import Mathlib.Data.Finset.SDiff
import Iris.Broadcaster.Send

/-!
# One bad worker does not affect the others

The send loops evict a worker whose peer has gone from the cache they are sending through.

* `WorkerSet`: a cache that is a set of addresses; `dropped`: the addresses that answered
  `ReceiverDropped`;
* `Evicted`, **`evicted_sendToLeader`**, `evicted_sendAll`: the cache has lost exactly the workers
  that answered so, and each has been shut down;
* **`bad_worker_isolated`**: a whole call, whatever the workers answer.
-/

namespace Iris

variable {τ ω κ : Type}

/-- A cache of workers that is a set of addresses. An attempt is answered in any way, except that
only a worker that is there can answer `ReceiverDropped`, and leaves the set as it is; `pop` takes
out the worker of an address. -/
structure WorkerSet (τ ω κ : Type) extends WorkersCache τ ω κ where
  present : ω → Finset SocketAddr
  address : κ → SocketAddr
  present_try : ∀ workers a t,
    present (trySendTransactionToAddress workers a t).2 = present workers
  present_of_dropped : ∀ workers a t,
    (trySendTransactionToAddress workers a t).1 = .error .ReceiverDropped → a ∈ present workers
  pop_of_present : ∀ workers a, a ∈ present workers →
    ∃ worker workers', pop workers a = (some worker, workers') ∧ address worker = a ∧
      present workers' = (present workers).erase a

/-- The addresses that answered `ReceiverDropped`, in the order of the attempts. -/
def dropped (attempts : List (Bytes τ × SocketAddr × Except WorkersCacheError Unit)) :
    List SocketAddr :=
  attempts.filterMap fun (_, a, res) => if res = .error .ReceiverDropped then some a else none

theorem dropped_concat (attempts : List (Bytes τ × SocketAddr × Except WorkersCacheError Unit))
    (t : Bytes τ) (a : SocketAddr) (res : Except WorkersCacheError Unit) :
    dropped (attempts ++ [(t, a, res)]) =
      dropped attempts ++ if res = .error .ReceiverDropped then [a] else [] := by
  rw [dropped, List.filterMap_append]
  by_cases hres : res = .error .ReceiverDropped <;> simp [dropped, hres]

variable (cache : WorkerSet τ ω κ)

/-! ## One attempt -/

/-- A worker that answers anything but `ReceiverDropped` stays. -/
theorem sendToLeader_of_ne {t : Bytes τ} {st : Sending τ ω κ} {a : SocketAddr}
    (h : (cache.trySendTransactionToAddress st.workers a t).1 ≠ .error .ReceiverDropped) :
    sendToLeader cache.toWorkersCache t st a =
      { st with
        workers := (cache.trySendTransactionToAddress st.workers a t).2
        attempts := st.attempts ++
          [(t, a, (cache.trySendTransactionToAddress st.workers a t).1)] } := by
  unfold sendToLeader
  rcases hres : cache.trySendTransactionToAddress st.workers a t with ⟨res, workers⟩
  rw [hres] at h
  rcases res with (_ | _ | _) | ⟨⟩
  · rfl
  · exact absurd rfl h
  · rfl
  · rfl

/-- A worker that answers `ReceiverDropped` is taken out of the cache and shut down. -/
theorem sendToLeader_of_dropped {t : Bytes τ} {st : Sending τ ω κ} {a : SocketAddr}
    (h : (cache.trySendTransactionToAddress st.workers a t).1 = .error .ReceiverDropped) :
    a ∈ cache.present st.workers ∧ ∃ worker workers', cache.address worker = a ∧
      cache.present workers' = (cache.present st.workers).erase a ∧
      sendToLeader cache.toWorkersCache t st a =
        { workers := workers'
          attempts := st.attempts ++ [(t, a, .error .ReceiverDropped)]
          shutdown := st.shutdown ++ [worker] } := by
  have hmem : a ∈ cache.present st.workers := cache.present_of_dropped _ _ _ h
  have hafter : a ∈ cache.present (cache.trySendTransactionToAddress st.workers a t).2 := by
    rwa [cache.present_try]
  obtain ⟨worker, workers', hpop, haddress, hpresent⟩ := cache.pop_of_present _ _ hafter
  rw [cache.present_try] at hpresent
  refine ⟨hmem, worker, workers', haddress, hpresent, ?_⟩
  unfold sendToLeader
  rcases hres : cache.trySendTransactionToAddress st.workers a t with ⟨res, workers⟩
  rw [hres] at h hpop
  subst h
  simp only [hpop]

/-! ## The loops -/

/-- The cache held `before` and has lost the workers that answered `ReceiverDropped`, each of
which has been shut down and none of which did so twice. -/
structure Evicted (before : Finset SocketAddr) (st : Sending τ ω κ) : Prop where
  present : cache.present st.workers = before \ (dropped st.attempts).toFinset
  shutdown : st.shutdown.map cache.address = dropped st.attempts
  nodup : (dropped st.attempts).Nodup
  subset : ∀ a ∈ dropped st.attempts, a ∈ before

theorem evicted_start (workers : ω) : Evicted cache (cache.present workers) { workers } where
  present := by simp [dropped]
  shutdown := rfl
  nodup := List.nodup_nil
  subset := by simp [dropped]

/-- **One attempt.** -/
theorem evicted_sendToLeader {before : Finset SocketAddr} {st : Sending τ ω κ}
    (hst : Evicted cache before st) (t : Bytes τ) (a : SocketAddr) :
    Evicted cache before (sendToLeader cache.toWorkersCache t st a) := by
  by_cases h : (cache.trySendTransactionToAddress st.workers a t).1 = .error .ReceiverDropped
  · obtain ⟨hmem, worker, workers', haddress, hpresent, heq⟩ := sendToLeader_of_dropped cache h
    have hdropped : dropped (st.attempts ++ [(t, a, .error .ReceiverDropped)]) =
        dropped st.attempts ++ [a] := dropped_concat _ _ _ _
    rw [hst.present, Finset.mem_sdiff, List.mem_toFinset] at hmem
    rw [heq]
    refine ⟨?_, ?_, ?_, ?_⟩
    · show cache.present workers' = _
      rw [hpresent, hst.present, hdropped]
      ext b
      simp only [Finset.mem_erase, Finset.mem_sdiff, List.mem_toFinset, List.mem_append,
        List.mem_singleton, not_or]
      tauto
    · show (st.shutdown ++ [worker]).map cache.address = _
      rw [List.map_append, hst.shutdown, hdropped, List.map_singleton, haddress]
    · -- the worker was still there, so it had not answered so before
      rw [hdropped, ← List.concat_eq_append]
      exact hst.nodup.concat hmem.2
    · intro b hb
      rw [hdropped, List.mem_append, List.mem_singleton] at hb
      rcases hb with hb | rfl
      · exact hst.subset b hb
      · exact hmem.1
  · have hdropped : dropped (st.attempts ++
        [(t, a, (cache.trySendTransactionToAddress st.workers a t).1)]) = dropped st.attempts := by
      rw [dropped_concat, if_neg h, List.append_nil]
    rw [sendToLeader_of_ne cache h]
    refine ⟨?_, ?_, ?_, ?_⟩
    · show cache.present (cache.trySendTransactionToAddress st.workers a t).2 = _
      rw [cache.present_try, hdropped]
      exact hst.present
    · rw [hdropped]
      exact hst.shutdown
    · rw [hdropped]
      exact hst.nodup
    · rw [hdropped]
      exact hst.subset

theorem evicted_foldl {before : Finset SocketAddr} (t : Bytes τ) (leaders : List SocketAddr) :
    ∀ {st : Sending τ ω κ}, Evicted cache before st →
      Evicted cache before (leaders.foldl (sendToLeader cache.toWorkersCache t) st) := by
  induction leaders with
  | nil => exact fun hst => hst
  | cons a leaders ih => exact fun hst => ih (evicted_sendToLeader cache hst t a)

theorem evicted_sendAll {before : Finset SocketAddr} (transactions : List (Bytes τ))
    (leaders : List SocketAddr) : ∀ {st : Sending τ ω κ}, Evicted cache before st →
      Evicted cache before (sendAll cache.toWorkersCache transactions leaders st) := by
  induction transactions with
  | nil => exact fun hst => hst
  | cons t ts ih => exact fun hst => ih (evicted_foldl cache t leaders hst)

/-! ## A whole call -/

section Call

variable (self : MevProtectedBroadcaster τ) (stats : TransactionStats) (workers : ω)
  (leaders : List SocketAddr) (transaction : Bytes τ)

theorem evicted_sendToWorkers : Evicted cache (cache.present workers)
    (sendToWorkers cache.toWorkersCache self stats workers leaders transaction).sending := by
  simp only [sendToWorkers]
  split_ifs
  · exact evicted_start cache workers
  · exact evicted_sendAll cache _ leaders (evicted_start cache workers)

/-- What one address is offered: every transaction, as often as the address is a leader. -/
theorem offered_to_leader (transactions : List (Bytes τ)) (a : SocketAddr) :
    ((transactions.flatMap fun t => leaders.map fun b => (t, b)).filter
      (fun h => decide (h.2 = a))).map Prod.fst =
        transactions.flatMap fun t => List.replicate (leaders.count a) t := by
  induction transactions with
  | nil => rfl
  | cons t ts ih =>
    have hone : ((leaders.map fun b => (t, b)).filter fun h => decide (h.2 = a)).map Prod.fst =
        List.replicate (leaders.count a) t := by
      rw [List.filter_map, List.map_map]
      show (leaders.filter fun b => decide (b = a)).map (fun _ => t) = _
      rw [List.map_const', List.count_eq_length_filter]
      rfl
    rw [List.flatMap_cons, List.filter_append, List.map_append, ih, hone, List.flatMap_cons]

/-- **One bad worker does not affect the others.** Whatever the workers answer, the call returns
`Ok` and makes one attempt for each transaction that `prepare_transactions` returned and each
position in the leaders, transaction by transaction, so that each leader is offered the
transactions in that order. Afterwards the cache has lost exactly the workers that answered
`ReceiverDropped`, and each worker it has lost has been shut down once. -/
theorem bad_worker_isolated :
    (sendToWorkers cache.toWorkersCache self stats workers leaders transaction).result = .ok () ∧
    (sendToWorkers cache.toWorkersCache self stats workers leaders transaction).sending.handed =
      (prepareTransactions self.bufferedTransactions stats transaction
        (hasBlockedSendTarget leaders self.blockedLeaders)).ready.flatMap
          (fun t => leaders.map fun a => (t, a)) ∧
    (∀ a, ((sendToWorkers cache.toWorkersCache self stats workers leaders
        transaction).sending.handed.filter fun h => decide (h.2 = a)).map Prod.fst =
      (prepareTransactions self.bufferedTransactions stats transaction
        (hasBlockedSendTarget leaders self.blockedLeaders)).ready.flatMap
          fun t => List.replicate (leaders.count a) t) ∧
    (cache.present
        (sendToWorkers cache.toWorkersCache self stats workers leaders transaction).sending.workers =
      cache.present workers \ (dropped (sendToWorkers cache.toWorkersCache self stats workers leaders
        transaction).sending.attempts).toFinset) ∧
    ((sendToWorkers cache.toWorkersCache self stats workers leaders
      transaction).sending.shutdown.map cache.address).Nodup ∧
    ∀ a, a ∈ (sendToWorkers cache.toWorkersCache self stats workers leaders
        transaction).sending.shutdown.map cache.address ↔
      a ∈ cache.present workers ∧ a ∉ cache.present
        (sendToWorkers cache.toWorkersCache self stats workers leaders transaction).sending.workers
    := by
  have hevicted := evicted_sendToWorkers cache self stats workers leaders transaction
  have hhanded := handed_sendToWorkers cache.toWorkersCache self stats workers leaders transaction
  rw [sendRound, ← ready_prepareTransactions _ stats] at hhanded
  refine ⟨sendToWorkers_result _ _ _ _ _ _, hhanded, fun a => ?_, hevicted.present, ?_, fun a => ?_⟩
  · rw [hhanded]
    exact offered_to_leader leaders _ a
  · rw [hevicted.shutdown]
    exact hevicted.nodup
  · rw [hevicted.shutdown, hevicted.present, Finset.mem_sdiff, List.mem_toFinset]
    have hsubset := hevicted.subset a
    tauto

end Call

/-- A cache whose answers are a script; an answer `ReceiverDropped` from an address that is not
there becomes another error. -/
def WorkerSet.scripted :
    WorkerSet τ (Finset SocketAddr × List (Except WorkersCacheError Unit)) SocketAddr where
  trySendTransactionToAddress := fun (present, script) a _ =>
    match script with
    | [] => (.ok (), present, [])
    | res :: script =>
      (if res = .error .ReceiverDropped ∧ a ∉ present then .error (.other "no worker") else res,
        present, script)
  pop := fun (present, script) a =>
    if a ∈ present then (some a, present.erase a, script) else (none, present, script)
  present := Prod.fst
  address := id
  present_try := by
    rintro ⟨present, _ | ⟨res, script⟩⟩ a t <;> rfl
  present_of_dropped := by
    rintro ⟨present, _ | ⟨res, script⟩⟩ a t h
    · cases h
    · by_contra hnot
      have hnot : a ∉ present := hnot
      simp only [hnot, not_false_eq_true, and_true] at h
      split_ifs at h with hres
      · cases h
      · exact hres h
  pop_of_present := by
    rintro ⟨present, script⟩ a h
    exact ⟨a, (present.erase a, script), if_pos h, rfl, rfl⟩

/-- The first of three leaders, which is also the last, drops out at its first attempt. -/
theorem bad_worker_isolated_scripted :
    ∃ call, call = sendToWorkers WorkerSet.scripted.toWorkersCache ⟨∅, [⟨some 0, [1]⟩]⟩ {}
        ({⟨.v4 1#32, 1⟩, ⟨.v4 2#32, 1⟩}, [.error .ReceiverDropped])
        [⟨.v4 1#32, 1⟩, ⟨.v4 2#32, 1⟩, ⟨.v4 1#32, 1⟩] (⟨some 1, [2, 0]⟩ : Bytes ℕ) ∧
      call.sending.handed =
        [(⟨some 0, [1]⟩, ⟨.v4 1#32, 1⟩), (⟨some 0, [1]⟩, ⟨.v4 2#32, 1⟩),
          (⟨some 0, [1]⟩, ⟨.v4 1#32, 1⟩), (⟨some 1, [2]⟩, ⟨.v4 1#32, 1⟩),
          (⟨some 1, [2]⟩, ⟨.v4 2#32, 1⟩), (⟨some 1, [2]⟩, ⟨.v4 1#32, 1⟩)] ∧
      (@WorkerSet.scripted ℕ).present call.sending.workers = {⟨.v4 2#32, 1⟩} ∧
      (call.sending.shutdown.map (@WorkerSet.scripted ℕ).address).Nodup ∧
      ⟨.v4 1#32, 1⟩ ∈ call.sending.shutdown.map (@WorkerSet.scripted ℕ).address := by
  obtain ⟨-, hhanded, -, hpresent, hnodup, hshutdown⟩ :=
    bad_worker_isolated WorkerSet.scripted ⟨∅, [⟨some 0, [1]⟩]⟩ {}
      ({⟨.v4 1#32, 1⟩, ⟨.v4 2#32, 1⟩}, [.error .ReceiverDropped])
      [⟨.v4 1#32, 1⟩, ⟨.v4 2#32, 1⟩, ⟨.v4 1#32, 1⟩] (⟨some 1, [2, 0]⟩ : Bytes ℕ)
  refine ⟨_, rfl, hhanded.trans (by decide), hpresent.trans (by decide), hnodup, ?_⟩
  refine (hshutdown _).mpr ⟨by decide, ?_⟩
  rw [hpresent]
  decide

end Iris
