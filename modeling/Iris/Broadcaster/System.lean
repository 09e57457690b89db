import Iris.Lib.Run
import Iris.Broadcaster.Send
import Iris.TpuSender

/-!
# Runs of the broadcaster

The submissions of both servers and the ticks of the flush task put batches on the TPU channel,
the refresh thread replaces the block list, and the scheduler of the TPU client takes the batches
off the channel, one `send_to_workers` call each. Every submission is allocated afresh, so that
its bytes can be told from equal bytes submitted at another time.

* `Submission`, `Call`, `System`, `Event`, `step`: the system, with a record of its calls;
* `taken`, `queued`: the submissions that have left the channel, and those still in it;
* `WellTagged`, **`wellTagged_step`**: the channel holds payloads of distinct submissions and
  flushes, and the buffer holds bodies of protected submissions;
* `step_frame`, `blockedLeaders_step`: only calls touch the buffer and the record, and only
  refreshes the block list.
-/

namespace Iris

/-- One submission; `id` counts the submissions before it. -/
structure Submission where
  id : ℕ
  wire : Octets
  mevProtect : Bool
deriving DecidableEq, Repr

/-- A `send_to_workers` call: the block list it loaded, its arguments, and the pairs it passed to
`try_send_transaction_to_address`. -/
structure Call where
  loaded : Finset SocketAddr
  leaders : List SocketAddr
  batch : Bytes Submission
  handed : List (Bytes Submission × SocketAddr)

/-- The broadcaster, the channel in front of it and the cache of workers behind it. -/
structure System (ω : Type) where
  broadcaster : MevProtectedBroadcaster Submission
  stats : TransactionStats
  channel : List (Bytes Submission)
  workers : ω
  submitted : ℕ
  calls : List Call

/-- What can happen next. -/
inductive Event
  | submit (wireTransaction : Octets) (mevProtect : Bool) (outcome : TrySend)
  | flush (outcome : TrySend)
  | refresh (blockedLeaders : Finset SocketAddr)
  | send (leaders : List SocketAddr)

namespace System

variable {ω κ : Type}

/-- The state `MevProtectedBroadcaster::run` starts from. -/
def init (workers : ω) : System ω :=
  ⟨⟨∅, []⟩, {}, [], workers, 0, []⟩

/-- The submission that the next `submit` event makes. -/
def nextSubmission (s : System ω) (w : Octets) (m : Bool) : Submission := ⟨s.submitted, w, m⟩

variable (cache : WorkersCache Submission ω κ)

/-- The call made for `batch`. -/
def callFor (s : System ω) (leaders : List SocketAddr) (batch : Bytes Submission) : Call where
  loaded := s.broadcaster.blockedLeaders
  leaders := leaders
  batch := batch
  handed := (sendToWorkers cache s.broadcaster s.stats s.workers leaders batch).sending.handed

/-- The state after the scheduler has taken `batch`, leaving `rest`, and made its call. -/
def afterSend (s : System ω) (leaders : List SocketAddr) (batch : Bytes Submission)
    (rest : List (Bytes Submission)) : System ω :=
  let r := sendToWorkers cache s.broadcaster s.stats s.workers leaders batch
  { s with
    broadcaster := r.broadcaster
    stats := r.stats
    channel := rest
    workers := r.sending.workers
    calls := s.calls ++ [callFor cache s leaders batch] }

/-- One step; the scheduler waits while the channel is empty. -/
def step (s : System ω) : Event → Option (System ω)
  | .submit w m outcome =>
    let payload := TpuClientPayload.new (s.nextSubmission w m) w m
    let (channel, stats) :=
      TpuClientNextSender.sendTransaction s.channel s.stats payload outcome
    some { s with channel, stats, submitted := s.submitted + 1 }
  | .flush outcome => some { s with channel := flushTick s.channel outcome }
  | .refresh blockedLeaders =>
    some { s with broadcaster := { s.broadcaster with blockedLeaders } }
  | .send leaders =>
    match s.channel with
    | [] => none
    | batch :: rest => some (afterSend cache s leaders batch rest)

theorem step_send_eq_some {s s' : System ω} {leaders : List SocketAddr}
    (h : step cache s (.send leaders) = some s') :
    ∃ batch rest, s.channel = batch :: rest ∧ s' = afterSend cache s leaders batch rest := by
  unfold step at h
  cases hc : s.channel with
  | nil => rw [hc] at h; cases h
  | cons batch rest =>
    rw [hc] at h
    cases h
    exact ⟨batch, rest, rfl, rfl⟩

/-! ## Submissions in the channel, in the buffer and in the record -/

/-- The batch a submission enqueues. -/
def IsPayloadOf (b : Bytes Submission) (sub : Submission) : Prop :=
  b = (TpuClientPayload.new sub sub.wire sub.mevProtect).intoEncoded

/-- The wire bytes of a submission. -/
def IsBodyOf (b : Bytes Submission) (sub : Submission) : Prop := b = Bytes.fromVec sub sub.wire

/-- A batch of the channel: a flush or a payload. -/
def IsBatch (b : Bytes Submission) : Prop := b = Bytes.new ∨ ∃ sub, IsPayloadOf b sub

/-- An entry of the buffer: the wire bytes of a protected submission. -/
def IsHeld (b : Bytes Submission) : Prop := ∃ sub, IsBodyOf b sub ∧ sub.mevProtect = true

theorem decode_of_isPayloadOf {b : Bytes Submission} {sub : Submission} (h : IsPayloadOf b sub) :
    TpuClientPayload.decode b =
      some (TpuClientPayload.new sub sub.wire sub.mevProtect) := by
  rw [h, TpuClientPayload.decode_intoEncoded]

theorem arrival_of_isPayloadOf {b : Bytes Submission} {sub : Submission} (h : IsPayloadOf b sub)
    (blocked : Bool) :
    (callRound b blocked).arrival = some (Bytes.fromVec sub sub.wire, sub.mevProtect) := by
  simp [callRound, decode_of_isPayloadOf h]

theorem arrival_eq_some {b x : Bytes Submission} {m blocked : Bool} (hb : IsBatch b)
    (h : (callRound b blocked).arrival = some (x, m)) :
    ∃ sub, IsPayloadOf b sub ∧ IsBodyOf x sub ∧ sub.mevProtect = m := by
  rcases hb with rfl | ⟨sub, hsub⟩
  · cases h
  · rw [arrival_of_isPayloadOf hsub] at h
    cases h
    exact ⟨sub, hsub, rfl, rfl⟩

/-- The submissions whose batches the broadcaster has taken from the channel, in order. -/
def taken (s : System ω) : List Submission := s.calls.filterMap fun c => c.batch.alloc

/-- The submissions still in the channel. -/
def queued (s : System ω) : List Submission := s.channel.filterMap Bytes.alloc

/-- The channel holds batches, the buffer bodies of protected submissions, and no submission is
enqueued twice. -/
structure WellTagged (s : System ω) : Prop where
  batch : ∀ b ∈ s.channel, IsBatch b
  held : ∀ b ∈ s.broadcaster.bufferedTransactions, IsHeld b
  nodup : (taken s ++ queued s).Nodup
  lt : ∀ sub ∈ taken s ++ queued s, sub.id < s.submitted

theorem wellTagged_init (workers : ω) : WellTagged (init workers) where
  batch := by intro b hb; cases hb
  held := by intro b hb; cases hb
  nodup := List.nodup_nil
  lt := by intro sub hsub; cases hsub

theorem calls_afterSend (s : System ω) (leaders : List SocketAddr) (batch : Bytes Submission)
    (rest : List (Bytes Submission)) :
    (afterSend cache s leaders batch rest).calls = s.calls ++ [callFor cache s leaders batch] := rfl

theorem taken_afterSend (s : System ω) (leaders : List SocketAddr) (batch : Bytes Submission)
    (rest : List (Bytes Submission)) :
    taken (afterSend cache s leaders batch rest) = taken s ++ [batch].filterMap Bytes.alloc := by
  unfold taken afterSend
  rw [List.filterMap_append]
  rfl

/-- The taken and the queued submissions, together, do not change in a call. -/
theorem taken_append_queued_afterSend {s : System ω} {batch : Bytes Submission}
    {rest : List (Bytes Submission)} (hc : s.channel = batch :: rest)
    (leaders : List SocketAddr) :
    taken (afterSend cache s leaders batch rest) ++
      queued (afterSend cache s leaders batch rest) = taken s ++ queued s := by
  have hq : queued s = [batch].filterMap Bytes.alloc ++ rest.filterMap Bytes.alloc := by
    rw [queued, hc, ← List.filterMap_append]
    rfl
  rw [taken_afterSend, hq, List.append_assoc]
  rfl

theorem buffered_afterSend (s : System ω) (leaders : List SocketAddr) (batch : Bytes Submission)
    (rest : List (Bytes Submission)) :
    (afterSend cache s leaders batch rest).broadcaster.bufferedTransactions =
      (HoldQueue.step s.broadcaster.bufferedTransactions
        (sendRound s.broadcaster leaders batch)).2 :=
  buffered_sendToWorkers cache _ _ _ _ _

/-- The submissions in the channel after an offer. -/
theorem filterMap_alloc_trySendTransaction (channel : List (Bytes Submission))
    (b : Bytes Submission) (outcome : TrySend) :
    (trySendTransaction channel b outcome).filterMap Bytes.alloc = channel.filterMap Bytes.alloc ∨
      (trySendTransaction channel b outcome).filterMap Bytes.alloc =
        channel.filterMap Bytes.alloc ++ b.alloc.toList := by
  cases outcome with
  | sent =>
    right
    rw [trySendTransaction, List.filterMap_append]
    cases hb : b.alloc <;> simp [hb]
  | full | closed => exact Or.inl rfl

/-- Only calls touch the buffer and the record. -/
theorem step_frame {s s' : System ω} {e : Event} (h : step cache s e = some s')
    (he : ∀ leaders, e ≠ .send leaders) :
    s'.calls = s.calls ∧
      s'.broadcaster.bufferedTransactions = s.broadcaster.bufferedTransactions := by
  cases e with
  | submit w m outcome => cases h; exact ⟨rfl, rfl⟩
  | flush outcome => cases h; exact ⟨rfl, rfl⟩
  | refresh blocked => cases h; exact ⟨rfl, rfl⟩
  | send leaders => exact absurd rfl (he leaders)

/-- Only refreshes touch the block list. -/
theorem blockedLeaders_step {s s' : System ω} {e : Event} (h : step cache s e = some s')
    (he : ∀ blocked, e ≠ .refresh blocked) :
    s'.broadcaster.blockedLeaders = s.broadcaster.blockedLeaders := by
  cases e with
  | submit w m outcome => cases h; rfl
  | flush outcome => cases h; rfl
  | refresh blocked => exact absurd rfl (he blocked)
  | send leaders =>
    obtain ⟨batch, rest, -, rfl⟩ := step_send_eq_some cache h
    exact blocked_sendToWorkers cache _ _ _ _ _

/-- **An offer to the channel.** A batch of a new submission, or of none, keeps the channel well
tagged. -/
theorem wellTagged_offer {s s' : System ω} {b : Bytes Submission} {outcome : TrySend}
    (hs : WellTagged s) (hb : IsBatch b) (hcalls : s'.calls = s.calls)
    (hbuf : s'.broadcaster.bufferedTransactions = s.broadcaster.bufferedTransactions)
    (hchannel : s'.channel = trySendTransaction s.channel b outcome)
    (hsubmitted : s.submitted ≤ s'.submitted)
    (hnew : ∀ sub ∈ b.alloc.toList, s.submitted ≤ sub.id ∧ sub.id < s'.submitted) :
    WellTagged s' := by
  have htaken : taken s' = taken s := by unfold taken; rw [hcalls]
  have hqueued : queued s' = queued s ∨ queued s' = queued s ++ b.alloc.toList := by
    unfold queued
    rw [hchannel]
    exact filterMap_alloc_trySendTransaction s.channel b outcome
  have hfresh : ∀ sub ∈ b.alloc.toList, sub ∉ taken s ++ queued s := by
    intro sub hsub hmem
    have hge := (hnew sub hsub).1
    have hlt := hs.lt sub hmem
    omega
  refine ⟨fun x hx => ?_, ?_, ?_, fun sub hsub => ?_⟩
  · rw [hchannel] at hx
    rcases mem_trySendTransaction hx with hx | rfl
    · exact hs.batch x hx
    · exact hb
  · rw [hbuf]
    exact hs.held
  · rw [htaken]
    rcases hqueued with hq | hq
    · rw [hq]
      exact hs.nodup
    · rw [hq, ← List.append_assoc, List.nodup_append]
      refine ⟨hs.nodup, ?_, fun old hold new hnew heq => hfresh new hnew (heq ▸ hold)⟩
      cases b.alloc <;> simp
  · have hmem : sub ∈ taken s ++ queued s ∨ sub ∈ b.alloc.toList := by
      rw [htaken] at hsub
      rcases hqueued with hq | hq
      · rw [hq] at hsub
        exact Or.inl hsub
      · rw [hq, ← List.append_assoc] at hsub
        exact List.mem_append.mp hsub
    rcases hmem with hmem | hmem
    · have hlt := hs.lt sub hmem
      omega
    · exact (hnew sub hmem).2

/-- **A call** keeps the channel and the buffer well tagged. -/
theorem wellTagged_afterSend {s : System ω} (hs : WellTagged s) {batch : Bytes Submission}
    {rest : List (Bytes Submission)} (hc : s.channel = batch :: rest) (leaders : List SocketAddr) :
    WellTagged (afterSend cache s leaders batch rest) := by
  have hbatch : IsBatch batch := hs.batch batch (by rw [hc]; exact List.mem_cons_self)
  refine ⟨fun b hb => hs.batch b ?_, fun b hb => ?_, ?_, ?_⟩
  · rw [hc]
    exact List.mem_cons_of_mem _ hb
  · rw [buffered_afterSend] at hb
    rcases HoldQueue.mem_of_mem_kept hb with hb | harr
    · exact hs.held b hb
    · obtain ⟨sub, -, hbody, hm⟩ := arrival_eq_some hbatch harr
      exact ⟨sub, hbody, hm⟩
  · rw [taken_append_queued_afterSend cache hc]
    exact hs.nodup
  · rw [taken_append_queued_afterSend cache hc]
    exact hs.lt

theorem wellTagged_step {s s' : System ω} {e : Event} (hs : WellTagged s)
    (h : step cache s e = some s') : WellTagged s' := by
  cases e with
  | submit w m outcome =>
    cases h
    have hpayload : IsBatch
        (TpuClientPayload.new (s.nextSubmission w m) w m).intoEncoded := Or.inr ⟨_, rfl⟩
    refine wellTagged_offer hs hpayload rfl rfl rfl (Nat.le_succ _) fun sub hsub => ?_
    cases List.mem_singleton.mp hsub
    exact ⟨Nat.le_refl _, Nat.lt_succ_self _⟩
  | flush outcome =>
    cases h
    exact wellTagged_offer hs (Or.inl rfl) rfl rfl rfl (Nat.le_refl _) (by simp [Bytes.new])
  | refresh blocked =>
    cases h
    exact ⟨hs.batch, hs.held, hs.nodup, hs.lt⟩
  | send leaders =>
    obtain ⟨batch, rest, hc, rfl⟩ := step_send_eq_some cache h
    exact wellTagged_afterSend cache hs hc leaders

end System

end Iris
