import Iris.Broadcaster.Send
import Iris.Handler
import Iris.Lib.Run
import Iris.Lib.Total

/-!
# Handlers, channel and broadcaster together

Handlers run one operation at a time, in any order. Meanwhile the flush task ticks, the refresh
thread replaces the block list, and the scheduler takes batches off the channel and has them
prepared under the lock of the buffer.

* `Service`, `ServiceEvent`, `step`: the system;
* `Did`, **`did_of_step`**: all that a step can do;
* `afterPrepare_eq`: a `send_to_workers` call does to the system what its preparation does;
* `Tallied`, **`tallied_run`**: every handler keeps to its course, and each counter is the number
  of its updates, which are no more than the events.
-/

namespace Iris

variable {ε τ : Type}

/-- The handlers that have been started, in the order of their start, and what they share. -/
structure Service (ε τ : Type) where
  handlers : List (Handler ε τ)
  channel : List (Bytes τ)
  stats : TransactionStats
  broadcaster : MevProtectedBroadcaster τ

/-- What can happen next. The outcome of `run` matters where the operation is an offer. -/
inductive ServiceEvent (ε τ : Type)
  | arrive (a : τ) (input : IngressInput ε)
  | run (i : ℕ) (outcome : TrySend)
  | flush (outcome : TrySend)
  | refresh (blockedLeaders : Finset SocketAddr)
  | prepare (isBlockedLeaderSlot : Bool)

namespace Service

open Lts

def init : Service ε τ := ⟨[], [], {}, ⟨∅, []⟩⟩

/-- The transactions held back. -/
def buffer (s : Service ε τ) : List (Bytes τ) := s.broadcaster.bufferedTransactions

/-- The state after the scheduler has taken `batch`, leaving `rest`, and had it prepared. -/
def afterPrepare (s : Service ε τ) (isBlockedLeaderSlot : Bool) (batch : Bytes τ)
    (rest : List (Bytes τ)) : Service ε τ :=
  let prepared := prepareTransactions s.buffer s.stats batch isBlockedLeaderSlot
  { s with
    channel := rest
    stats := prepared.stats
    broadcaster := { s.broadcaster with bufferedTransactions := prepared.buffered } }

/-- The next operation of a handler, which is in place `i`. -/
def runHandler (s : Service ε τ) (i : ℕ) (h : Handler ε τ) (outcome : TrySend) :
    Option (Service ε τ) :=
  match h.rest with
  | [] => none
  | .add c :: rest =>
    some { s with handlers := s.handlers.set i (h.add c rest), stats := c.record s.stats }
  | .offer p :: rest =>
    some { s with
      handlers := s.handlers.set i (h.offer p outcome rest)
      channel := trySendTransaction s.channel p.intoEncoded outcome }

variable (wincode : Wincode) (env : RpcEnv ε)

/-- One step; a finished handler does nothing, and the scheduler waits while the channel is
empty. -/
def step (s : Service ε τ) : ServiceEvent ε τ → Option (Service ε τ)
  | .arrive a input => some { s with handlers := s.handlers ++ [Handler.start wincode env a input] }
  | .run i outcome => s.handlers[i]?.bind fun h => s.runHandler i h outcome
  | .flush outcome => some { s with channel := flushTick s.channel outcome }
  | .refresh blockedLeaders => some { s with broadcaster := { s.broadcaster with blockedLeaders } }
  | .prepare isBlockedLeaderSlot =>
    match s.channel with
    | [] => none
    | batch :: rest => some (s.afterPrepare isBlockedLeaderSlot batch rest)

/-- All that a step can do. -/
inductive Did (s : Service ε τ) : ServiceEvent ε τ → Service ε τ → Prop
  | arrived (a : τ) (input : IngressInput ε) : Did s (.arrive a input)
      { s with handlers := s.handlers ++ [Handler.start wincode env a input] }
  | added {i : ℕ} {h : Handler ε τ} {c : Counter} {rest : List (Instr τ)} (outcome : TrySend)
      (hi : s.handlers[i]? = some h) (hrest : h.rest = .add c :: rest) : Did s (.run i outcome)
      { s with handlers := s.handlers.set i (h.add c rest), stats := c.record s.stats }
  | offered {i : ℕ} {h : Handler ε τ} {p : TpuClientPayload τ} {rest : List (Instr τ)}
      (outcome : TrySend) (hi : s.handlers[i]? = some h) (hrest : h.rest = .offer p :: rest) :
      Did s (.run i outcome)
      { s with
        handlers := s.handlers.set i (h.offer p outcome rest)
        channel := trySendTransaction s.channel p.intoEncoded outcome }
  | flushed (outcome : TrySend) :
      Did s (.flush outcome) { s with channel := flushTick s.channel outcome }
  | refreshed (blockedLeaders : Finset SocketAddr) : Did s (.refresh blockedLeaders)
      { s with broadcaster := { s.broadcaster with blockedLeaders } }
  | prepared {batch : Bytes τ} {rest : List (Bytes τ)} (isBlockedLeaderSlot : Bool)
      (hchannel : s.channel = batch :: rest) :
      Did s (.prepare isBlockedLeaderSlot) (s.afterPrepare isBlockedLeaderSlot batch rest)

theorem did_of_step {s s' : Service ε τ} {e : ServiceEvent ε τ}
    (h : step wincode env s e = some s') : Did wincode env s e s' := by
  cases e with
  | arrive a input => cases h; exact .arrived a input
  | run i outcome =>
    obtain ⟨hd, hi, hrun⟩ := Option.bind_eq_some_iff.mp h
    unfold runHandler at hrun
    split at hrun
    · cases hrun
    · rename_i c rest hrest
      cases hrun
      exact .added outcome hi hrest
    · rename_i p rest hrest
      cases hrun
      exact .offered outcome hi hrest
  | flush outcome => cases h; exact .flushed outcome
  | refresh blockedLeaders => cases h; exact .refreshed blockedLeaders
  | prepare isBlockedLeaderSlot =>
    unfold step at h
    cases hchannel : s.channel with
    | nil => rw [hchannel] at h; cases h
    | cons batch rest =>
      rw [hchannel] at h
      cases h
      exact .prepared isBlockedLeaderSlot hchannel

/-- **A call is its preparation**, as far as the buffer and the counters are concerned: the flag
is that of its leaders, and the workers have no part in it. -/
theorem afterPrepare_eq {ω κ : Type} (cache : WorkersCache τ ω κ) (s : Service ε τ) (workers : ω)
    (leaders : List SocketAddr) (batch : Bytes τ) (rest : List (Bytes τ)) :
    s.afterPrepare (hasBlockedSendTarget leaders s.broadcaster.blockedLeaders) batch rest =
      { s with
        channel := rest
        stats := (sendToWorkers cache s.broadcaster s.stats workers leaders batch).stats
        broadcaster :=
          (sendToWorkers cache s.broadcaster s.stats workers leaders batch).broadcaster } := by
  simp only [sendToWorkers]
  split_ifs <;> rfl

/-! ## The counters of the handlers -/

/-- The updates of a counter that the handlers have made. -/
def updates (s : Service ε τ) (c : Counter) : ℕ := total (fun h => h.made.count c) s.handlers

/-- A run so far: the handlers keep to their courses, each counter is the number of its updates,
modulo `2 ^ 64`, and no event has made more than one update. -/
structure Tallied (es : List (ServiceEvent ε τ)) (s : Service ε τ) : Prop where
  stage : ∀ h ∈ s.handlers, h.Stage
  read : ∀ c : Counter, c.read s.stats = UInt64.ofNat (s.updates c)
  length : total (fun h => h.made.length) s.handlers ≤ es.length

theorem tallied_init : Tallied [] (init : Service ε τ) where
  stage := by intro h hh; cases hh
  read := by
    intro c
    cases c <;> rfl
  length := Nat.le_refl 0

/-- A step that makes no update. -/
theorem Tallied.keep {es : List (ServiceEvent ε τ)} {s s' : Service ε τ} (hs : Tallied es s)
    (e : ServiceEvent ε τ) (hstage : ∀ h ∈ s'.handlers, h.Stage)
    (hread : ∀ c : Counter, c.read s'.stats = c.read s.stats)
    (hupdates : ∀ f : List Counter → ℕ, f [] = 0 →
      total (fun h => f h.made) s'.handlers = total (fun h => f h.made) s.handlers) :
    Tallied (es ++ [e]) s' where
  stage := hstage
  read := by
    intro c
    rw [hread, hs.read, updates, updates, hupdates (fun made => made.count c) rfl]
  length := by
    rw [hupdates List.length rfl, List.length_append]
    exact Nat.le_add_right_of_le hs.length

theorem stage_set {handlers : List (Handler ε τ)} (hs : ∀ h ∈ handlers, h.Stage) (i : ℕ)
    {h : Handler ε τ} (hh : h.Stage) : ∀ x ∈ handlers.set i h, x.Stage := by
  intro x hx
  rcases List.mem_or_eq_of_mem_set hx with hx | rfl
  · exact hs x hx
  · exact hh

theorem read_prepareTransactions (c : Counter) (buffered : List (Bytes τ))
    (stats : TransactionStats) (encoded : Bytes τ) (isBlocked : Bool) :
    c.read (prepareTransactions buffered stats encoded isBlocked).stats = c.read stats := by
  rw [stats_prepareTransactions]
  cases c <;> rfl

theorem count_made_add (h : Handler ε τ) (c : Counter) (rest : List (Instr τ)) (d : Counter) :
    (h.add c rest).made.count d = h.made.count d + if d = c then 1 else 0 := by
  show (h.made ++ [c]).count d = _
  rw [List.count_append]
  by_cases hd : d = c
  · simp [hd]
  · simp [hd, Ne.symm hd]

/-- **A handler updates a counter.** -/
theorem Tallied.add {es : List (ServiceEvent ε τ)} {s : Service ε τ} (hs : Tallied es s)
    (e : ServiceEvent ε τ) {i : ℕ} {h : Handler ε τ} {c : Counter} {rest : List (Instr τ)}
    (hi : s.handlers[i]? = some h) (hrest : h.rest = .add c :: rest) : Tallied (es ++ [e])
      { s with handlers := s.handlers.set i (h.add c rest), stats := c.record s.stats } where
  stage := stage_set hs.stage i (Handler.stage_add (hs.stage h (List.mem_of_getElem? hi)) hrest)
  read := by
    intro d
    have hset := Total.total_set (fun h => h.made.count d) hi (h.add c rest)
    have hone := count_made_add h c rest d
    have hcount : total (fun h => h.made.count d) (s.handlers.set i (h.add c rest)) =
        s.updates d + if d = c then 1 else 0 := by
      show _ = total _ _ + _
      omega
    show d.read (c.record s.stats) = UInt64.ofNat (total _ _)
    rw [Counter.read_record, hs.read, hcount]
    split_ifs <;> simp
  length := by
    have hset := Total.total_set (fun h => h.made.length) hi (h.add c rest)
    have hone : (h.add c rest).made.length = h.made.length + 1 := List.length_append
    have hle := hs.length
    show total _ (s.handlers.set i _) ≤ _
    rw [List.length_append, List.length_singleton]
    omega

/-- **One step.** -/
theorem tallied_step (es : List (ServiceEvent ε τ)) (s : Service ε τ) (e : ServiceEvent ε τ)
    (s' : Service ε τ) (hs : Tallied es s) (h : step wincode env s e = some s') :
    Tallied (es ++ [e]) s' := by
  cases did_of_step wincode env h with
  | arrived a input =>
    refine hs.keep _ (fun x hx => ?_) (fun _ => rfl) fun f hf => ?_
    · rcases List.mem_append.mp hx with hx | hx
      · exact hs.stage x hx
      · cases List.mem_singleton.mp hx
        exact Handler.stage_start wincode env a input
    · show total _ (s.handlers ++ [_]) = _
      rw [Total.total_concat]
      show _ + f [] = _
      rw [hf, Nat.add_zero]
  | added outcome hi hrest => exact hs.add _ hi hrest
  | offered outcome hi hrest =>
    rename_i i hd p rest
    have hstage := (Handler.stage_offer (hs.stage _ (List.mem_of_getElem? hi)) hrest outcome).2
    refine hs.keep _ (stage_set hs.stage i hstage) (fun _ => rfl) fun f hf => ?_
    exact Nat.add_right_cancel (Total.total_set (fun h => f h.made) hi (hd.offer p outcome rest))
  | flushed outcome => exact hs.keep _ hs.stage (fun _ => rfl) fun _ _ => rfl
  | refreshed blockedLeaders => exact hs.keep _ hs.stage (fun _ => rfl) fun _ _ => rfl
  | prepared isBlocked hchannel =>
    exact hs.keep _ hs.stage (fun c => read_prepareTransactions c _ _ _ _) fun _ _ => rfl

theorem tallied_run {es : List (ServiceEvent ε τ)} {s : Service ε τ}
    (hrun : runFrom (step wincode env) init es = some s) : Tallied es s :=
  runFrom_history (tallied_step wincode env) tallied_init hrun

/-- **The value of a counter**, in a run of fewer than `2 ^ 64` events. -/
theorem Tallied.toNat_read {es : List (ServiceEvent ε τ)} {s : Service ε τ} (hs : Tallied es s)
    (hlen : es.length < 2 ^ 64) (c : Counter) : (c.read s.stats).toNat = s.updates c := by
  have hle : s.updates c ≤ es.length :=
    (Total.total_le fun h _ => List.count_le_length).trans hs.length
  rw [hs.read, UInt64.toNat_ofNat_of_lt' (hle.trans_lt hlen)]

end Service

end Iris
