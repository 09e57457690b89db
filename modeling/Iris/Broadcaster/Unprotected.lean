import Iris.Broadcaster.Send

/-!
# Unprotected traffic is not disturbed

Runs of `send_to_workers` calls on a broadcaster. Each call finds the block list, the counters and
the cache of workers in some state of their own.

* `SendCall`, `sendRun`: the calls and what they hand over; a batch is allocated at its own mark,
  protected or not, so that the mark follows the transaction;
* `unprotectedPairs`, **`unprotectedPairs_sendRun`**: what a run hands over of unprotected
  transactions is a function of its calls with unprotected payloads;
* **`unprotected_undisturbed`**: so two runs that agree on these calls agree on these attempts.
-/

namespace Iris

variable {ω κ : Type}

/-- A `send_to_workers` call: the block list in force, the counters and the workers it finds, and
its arguments. -/
structure SendCall (ω : Type) where
  blockedLeaders : Finset SocketAddr
  stats : TransactionStats
  workers : ω
  leaders : List SocketAddr
  encoded : Octets

namespace SendCall

/-- The batch carries a protected payload. -/
def isProtected (c : SendCall ω) : Bool :=
  match TpuClientPayload.decode (⟨none, c.encoded⟩ : Bytes Bool) with
  | some payload => payload.isMevProtected
  | none => false

/-- The batch as it travels, marked as protected or not. -/
def transaction (c : SendCall ω) : Bytes Bool := ⟨some c.isProtected, c.encoded⟩

/-- The leaders and the payload of a call that is neither a flush nor protected. -/
def unprotected (c : SendCall ω) : Option (List SocketAddr × Octets) :=
  if c.encoded ≠ [] ∧ c.isProtected = false then some (c.leaders, c.encoded) else none

end SendCall

variable (cache : WorkersCache Bool ω κ)

/-- The pairs that the calls pass to `try_send_transaction_to_address`, from a given buffer. -/
def sendRun : List (Bytes Bool) → List (SendCall ω) → List (Bytes Bool × SocketAddr)
  | _, [] => []
  | buffered, c :: cs =>
    let r := sendToWorkers cache ⟨c.blockedLeaders, buffered⟩ c.stats c.workers c.leaders
      c.transaction
    r.sending.handed ++ sendRun r.broadcaster.bufferedTransactions cs

/-- A transaction in the buffer. -/
def heldBody (wire : Octets) : Bytes Bool := ⟨some true, wire⟩

/-- The transaction is not marked as protected. -/
def isUnprotected (b : Bytes Bool) : Bool := b.alloc == some false

/-- The unprotected transactions among those handed over, with the addresses. -/
def unprotectedPairs (handed : List (Bytes Bool × SocketAddr)) : List (Octets × SocketAddr) :=
  (handed.filter fun h => isUnprotected h.1).map fun h => (h.1.data, h.2)

/-- The attempts that a call with an unprotected payload makes for it. -/
def pairsOf (call : List SocketAddr × Octets) : List (Octets × SocketAddr) :=
  call.1.map fun a => (call.2.take (call.2.length - 1), a)

/-! ## One call -/

/-- The round of the hold-back queue that a call is. -/
def SendCall.round (c : SendCall ω) : HoldQueue.Round (Bytes Bool) :=
  callRound c.transaction (hasBlockedSendTarget c.leaders c.blockedLeaders)

theorem decode_transaction (c : SendCall ω) (h : c.encoded ≠ []) :
    ∃ payload, TpuClientPayload.decode c.transaction = some payload ∧
      payload.isMevProtected = c.isProtected ∧
      payload.wireTransaction = ⟨some c.isProtected, c.encoded.take (c.encoded.length - 1)⟩ := by
  refine ⟨⟨c.transaction, h⟩, dif_neg h, ?_, rfl⟩
  have hnone : TpuClientPayload.decode (⟨none, c.encoded⟩ : Bytes Bool) =
      some ⟨⟨none, c.encoded⟩, h⟩ := dif_neg h
  rw [SendCall.isProtected, hnone]
  rfl

/-- The mark of an arrival says whether it must wait. -/
theorem isUnprotected_arrival (c : SendCall ω) :
    ∀ b m, c.round.arrival = some (b, m) → isUnprotected b = !m := by
  intro b m harrival
  by_cases h : c.encoded = []
  · have hnone : TpuClientPayload.decode c.transaction = none := TpuClientPayload.decode_eq_none.mpr h
    rw [SendCall.round, callRound, hnone] at harrival
    cases harrival
  · obtain ⟨payload, hdecode, hprotected, hwire⟩ := decode_transaction c h
    rw [SendCall.round, callRound, hdecode, Option.map_some, hprotected, hwire] at harrival
    cases harrival
    cases c.isProtected <;> rfl

/-- What passes in a call, with its addresses. -/
theorem passing_round (c : SendCall ω) :
    (c.round.passing.toList.flatMap fun t => c.leaders.map fun a => (t.data, a)) =
      (c.unprotected.toList.flatMap pairsOf) := by
  by_cases h : c.encoded = []
  · have hnone : TpuClientPayload.decode c.transaction = none := TpuClientPayload.decode_eq_none.mpr h
    simp [SendCall.round, callRound, hnone, HoldQueue.Round.passing, SendCall.unprotected, h]
  · obtain ⟨payload, hdecode, hprotected, hwire⟩ := decode_transaction c h
    cases hm : c.isProtected <;>
      simp [SendCall.round, callRound, hdecode, hprotected, hwire, HoldQueue.Round.passing,
        SendCall.unprotected, h, hm, pairsOf]

/-- Selecting the attempts by their transactions. -/
theorem filter_attempts {α : Type} (p : α → Bool) (transactions : List α)
    (leaders : List SocketAddr) :
    ((transactions.flatMap fun t => leaders.map fun a => (t, a)).filter fun h => p h.1) =
      (transactions.filter p).flatMap fun t => leaders.map fun a => (t, a) := by
  induction transactions with
  | nil => rfl
  | cons t ts ih =>
    rw [List.flatMap_cons, List.filter_append, ih, List.filter_map]
    by_cases ht : p t = true
    · rw [List.filter_cons_of_pos ht, List.flatMap_cons]
      congr 2
      exact List.filter_eq_self.mpr fun _ _ => ht
    · rw [List.filter_cons_of_neg ht]
      have hnone : leaders.filter ((fun h : α × SocketAddr => p h.1) ∘ fun a => (t, a)) = [] :=
        List.filter_eq_nil_iff.mpr fun _ _ => ht
      rw [hnone, List.map_nil, List.nil_append]

/-- **One call** hands over of unprotected transactions just its own, whatever is held and
whichever addresses are blocked. -/
theorem unprotectedPairs_sendToWorkers {buffered : List (Bytes Bool)}
    (hheld : ∀ b ∈ buffered, isUnprotected b = false) (c : SendCall ω) :
    unprotectedPairs (sendToWorkers cache ⟨c.blockedLeaders, buffered⟩ c.stats c.workers c.leaders
      c.transaction).sending.handed = c.unprotected.toList.flatMap pairsOf := by
  have hreleased : (HoldQueue.step buffered c.round).1.filter isUnprotected =
      c.round.passing.toList := HoldQueue.filter_released hheld (isUnprotected_arrival c)
  rw [unprotectedPairs, handed_sendToWorkers, filter_attempts, ← passing_round]
  show ((((HoldQueue.step buffered c.round).1.filter isUnprotected).flatMap _).map _) = _
  rw [hreleased, List.map_flatMap]
  congr 1
  funext t
  rw [List.map_map]
  rfl

/-! ## Runs -/

/-- **What a run hands over of unprotected transactions** is a function of its calls with
unprotected payloads. -/
theorem unprotectedPairs_sendRun (cs : List (SendCall ω)) :
    ∀ {buffered : List (Bytes Bool)}, (∀ b ∈ buffered, isUnprotected b = false) →
      unprotectedPairs (sendRun cache buffered cs) =
        (cs.filterMap SendCall.unprotected).flatMap pairsOf := by
  induction cs with
  | nil => exact fun _ => rfl
  | cons c cs ih =>
    intro buffered hheld
    have hkept : ∀ b ∈ (sendToWorkers cache ⟨c.blockedLeaders, buffered⟩ c.stats c.workers c.leaders
        c.transaction).broadcaster.bufferedTransactions, isUnprotected b = false := by
      rw [buffered_sendToWorkers]
      exact HoldQueue.marked_of_mem_kept hheld (isUnprotected_arrival c)
    have hcall := unprotectedPairs_sendToWorkers cache hheld c
    have hcons : (c :: cs).filterMap SendCall.unprotected =
        c.unprotected.toList ++ cs.filterMap SendCall.unprotected := by
      cases hc : c.unprotected <;> simp [hc]
    rw [hcons, List.flatMap_append, ← hcall, ← ih hkept, unprotectedPairs, sendRun,
      List.filter_append, List.map_append]
    rfl

/-- **Protection does not disturb unprotected traffic.** If two runs agree on their calls with
unprotected payloads, in the leaders and in the payload, they pass the same unprotected
transactions to the same addresses in the same order, whatever the buffers hold at the start,
whatever the other calls are, whichever addresses are blocked and whatever the workers answer. -/
theorem unprotected_undisturbed {ω' κ' : Type} (cache' : WorkersCache Bool ω' κ')
    (held held' : List Octets) {cs : List (SendCall ω)} {cs' : List (SendCall ω')}
    (h : cs.filterMap SendCall.unprotected = cs'.filterMap SendCall.unprotected) :
    unprotectedPairs (sendRun cache (held.map heldBody) cs) =
      unprotectedPairs (sendRun cache' (held'.map heldBody) cs') := by
  have hheld : ∀ (bodies : List Octets), ∀ b ∈ bodies.map heldBody, isUnprotected b = false := by
    intro bodies b hb
    obtain ⟨wire, -, rfl⟩ := List.mem_map.mp hb
    rfl
  calc unprotectedPairs (sendRun cache (held.map heldBody) cs)
      = (cs.filterMap SendCall.unprotected).flatMap pairsOf :=
        unprotectedPairs_sendRun cache cs (hheld held)
    _ = (cs'.filterMap SendCall.unprotected).flatMap pairsOf := by rw [h]
    _ = unprotectedPairs (sendRun cache' (held'.map heldBody) cs') :=
        (unprotectedPairs_sendRun cache' cs' (hheld held')).symm

/-- A protected payload meets a blocked leader, an unprotected one does not. -/
def mixedCalls : List (SendCall Unit) :=
  [⟨{⟨.v4 1#32, 1⟩}, {}, (), [⟨.v4 1#32, 1⟩], [5, 1]⟩, ⟨∅, {}, (), [⟨.v4 2#32, 1⟩], [6, 0]⟩]

/-- The unprotected payload alone. -/
def plainCalls : List (SendCall Unit) := [⟨∅, {}, (), [⟨.v4 2#32, 1⟩], [6, 0]⟩]

theorem unprotected_undisturbed_mixedCalls :
    unprotectedPairs (sendRun WorkersCache.accepting [] mixedCalls) = [([6], ⟨.v4 2#32, 1⟩)] := by
  have hagree : mixedCalls.filterMap SendCall.unprotected =
      plainCalls.filterMap SendCall.unprotected := by decide
  have hplain : unprotectedPairs (sendRun WorkersCache.accepting [heldBody [9]] plainCalls) =
      [([6], ⟨.v4 2#32, 1⟩)] := by decide
  rw [← hplain]
  exact unprotected_undisturbed WorkersCache.accepting WorkersCache.accepting [] [[9]] hagree

end Iris
