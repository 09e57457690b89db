import Iris.Service

/-!
# The ledger of protected transactions

* `isProtectedBatch`: a payload with its flag set; `entering_le`: nothing else is held back;
* `Ledger`, **`ledger_step`**: what was buffered is what was released and what is held, and the
  protected payloads that were buffered, or are in the channel, were accepted;
* `Ledger.le_updates`, `Ledger.toNat`: nothing wraps around;
* **`mev_ledger`**: the counters of any run of fewer than `2 ^ 64` events.
-/

namespace Iris

variable {ε τ : Type}

/-- The batch is a protected payload. -/
def isProtectedBatch (batch : Bytes τ) : Bool :=
  match TpuClientPayload.decode batch with
  | some payload => payload.isMevProtected
  | none => false

theorem isProtectedBatch_intoEncoded (p : TpuClientPayload τ) :
    isProtectedBatch p.intoEncoded = p.isMevProtected := by
  rw [isProtectedBatch, TpuClientPayload.decode_intoEncoded]

/-- A call holds back nothing but protected payloads. -/
theorem entering_le (batch : Bytes τ) (isBlocked : Bool) :
    (callRound batch isBlocked).entering ≤ if isProtectedBatch batch then 1 else 0 := by
  unfold callRound isProtectedBatch
  cases hp : TpuClientPayload.decode batch with
  | none => simp [HoldQueue.Round.entering]
  | some p =>
    cases hm : p.isMevProtected <;> cases isBlocked <;> simp [HoldQueue.Round.entering, hm]

namespace Service

open Lts

/-- With `buffered` transactions held back so far and `released` of them released: the counters
say so, the rest is in the buffer, and each of them, like each protected payload in the channel,
was accepted from a handler. -/
structure Ledger (s : Service ε τ) (buffered released : ℕ) : Prop where
  mevBuffered : s.stats.mevBuffered = UInt64.ofNat buffered
  mevReleased : s.stats.mevReleased = UInt64.ofNat released
  mevBufferSize : s.stats.mevBufferSize = UInt64.ofNat s.buffer.length
  balance : buffered = released + s.buffer.length
  accepted : buffered + s.channel.countP isProtectedBatch ≤
    total Handler.protectedAccepted s.handlers

theorem ledger_init : Ledger (init : Service ε τ) 0 0 where
  mevBuffered := rfl
  mevReleased := rfl
  mevBufferSize := rfl
  balance := rfl
  accepted := Nat.le_refl 0

/-- A step that leaves the buffer and the counters of the ledger as they are. -/
theorem Ledger.keep {s s' : Service ε τ} {buffered released : ℕ} (hs : Ledger s buffered released)
    (hbuffered : s'.stats.mevBuffered = s.stats.mevBuffered)
    (hreleased : s'.stats.mevReleased = s.stats.mevReleased)
    (hsize : s'.stats.mevBufferSize = s.stats.mevBufferSize) (hbuffer : s'.buffer = s.buffer)
    (haccepted : buffered + s'.channel.countP isProtectedBatch ≤
      total Handler.protectedAccepted s'.handlers) : Ledger s' buffered released where
  mevBuffered := hbuffered.trans hs.mevBuffered
  mevReleased := hreleased.trans hs.mevReleased
  mevBufferSize := by
    rw [hsize, hbuffer]
    exact hs.mevBufferSize
  balance := by
    rw [hbuffer]
    exact hs.balance
  accepted := haccepted

theorem countP_flushTick (channel : List (Bytes τ)) (outcome : TrySend) :
    (flushTick channel outcome).countP isProtectedBatch = channel.countP isProtectedBatch := by
  cases outcome with
  | sent => simp [flushTick, trySendTransaction, List.countP_append, isProtectedBatch]
  | full | closed => rfl

/-- **A preparation** moves transactions from the channel to the buffer, and out of it. -/
theorem ledger_prepare {s : Service ε τ} {buffered released : ℕ} {batch : Bytes τ}
    {rest : List (Bytes τ)} (hs : Ledger s buffered released) (isBlocked : Bool)
    (hchannel : s.channel = batch :: rest) :
    Ledger (s.afterPrepare isBlocked batch rest)
      (buffered + (callRound batch isBlocked).entering)
      (released + (callRound batch isBlocked).letOut s.buffer) := by
  have hbuffer : (s.afterPrepare isBlocked batch rest).buffer =
      (HoldQueue.step s.buffer (callRound batch isBlocked)).2 :=
    buffered_prepareTransactions s.buffer s.stats batch isBlocked
  have hstats : (s.afterPrepare isBlocked batch rest).stats = _ :=
    stats_prepareTransactions s.buffer s.stats batch isBlocked
  refine ⟨?_, ?_, ?_, ?_, ?_⟩
  · rw [hstats, UInt64.ofNat_add, ← hs.mevBuffered]
  · rw [hstats, UInt64.ofNat_add, ← hs.mevReleased]
  · rw [hstats, hbuffer]
  · have hlength := HoldQueue.length_kept s.buffer (callRound batch isBlocked)
    have hbalance := hs.balance
    rw [hbuffer]
    omega
  · have haccepted := hs.accepted
    have hentering := entering_le batch isBlocked
    rw [hchannel, List.countP_cons] at haccepted
    show _ + rest.countP isProtectedBatch ≤ total Handler.protectedAccepted s.handlers
    omega

variable (wincode : Wincode) (env : RpcEnv ε)

/-- **One step.** -/
theorem ledger_step {s s' : Service ε τ} {e : ServiceEvent ε τ} {buffered released : ℕ}
    (hstage : ∀ h ∈ s.handlers, h.Stage) (hs : Ledger s buffered released)
    (h : step wincode env s e = some s') :
    ∃ buffered' released', Ledger s' buffered' released' := by
  have haccepted := hs.accepted
  cases did_of_step wincode env h with
  | arrived a input =>
    refine ⟨buffered, released, hs.keep rfl rfl rfl rfl ?_⟩
    show _ ≤ total _ (s.handlers ++ [_])
    rw [Total.total_concat]
    exact Nat.le_add_right_of_le haccepted
  | added outcome hi hrest =>
    rename_i i hd c rest
    have hset : total Handler.protectedAccepted (s.handlers.set i (hd.add c rest)) =
        total Handler.protectedAccepted s.handlers :=
      Nat.add_right_cancel (Total.total_set Handler.protectedAccepted hi (hd.add c rest))
    refine ⟨buffered, released, hs.keep ?_ ?_ ?_ rfl (haccepted.trans hset.ge)⟩
    -- the counters of the handlers are not those of the ledger
    all_goals cases c <;> rfl
  | offered outcome hi hrest =>
    rename_i i hd p rest
    have hset := Total.total_set Handler.protectedAccepted hi (hd.offer p outcome rest)
    have hanswer := (Handler.stage_offer (hstage _ (List.mem_of_getElem? hi)) hrest outcome).1
    have hbefore : hd.protectedAccepted = 0 := by rw [Handler.protectedAccepted, hanswer]
    refine ⟨buffered, released, hs.keep rfl rfl rfl rfl ?_⟩
    show _ + (trySendTransaction s.channel p.intoEncoded outcome).countP _ ≤
      total _ (s.handlers.set i _)
    cases outcome with
    | sent =>
      have hafter : (hd.offer p .sent rest).protectedAccepted = if p.isMevProtected then 1 else 0 :=
        rfl
      rw [trySendTransaction, List.countP_append, List.countP_singleton,
        isProtectedBatch_intoEncoded]
      omega
    | full | closed =>
      rw [trySendTransaction]
      omega
  | flushed outcome =>
    refine ⟨buffered, released, hs.keep rfl rfl rfl rfl ?_⟩
    show _ + (flushTick s.channel outcome).countP _ ≤ _
    rw [countP_flushTick]
    exact haccepted
  | refreshed blockedLeaders =>
    exact ⟨buffered, released, hs.keep rfl rfl rfl rfl haccepted⟩
  | prepared isBlocked hchannel => exact ⟨_, _, ledger_prepare hs isBlocked hchannel⟩

/-- A run so far, with its ledger. -/
def Accounted (es : List (ServiceEvent ε τ)) (s : Service ε τ) : Prop :=
  Tallied es s ∧ ∃ buffered released, Ledger s buffered released

theorem accounted_init : Accounted [] (init : Service ε τ) := ⟨tallied_init, 0, 0, ledger_init⟩

theorem accounted_step (es : List (ServiceEvent ε τ)) (s : Service ε τ) (e : ServiceEvent ε τ)
    (s' : Service ε τ) (hs : Accounted es s) (h : step wincode env s e = some s') :
    Accounted (es ++ [e]) s' := by
  obtain ⟨htallied, buffered, released, hledger⟩ := hs
  exact ⟨tallied_step wincode env es s e s' htallied h,
    ledger_step wincode env htallied.stage hledger h⟩

theorem accounted_run {es : List (ServiceEvent ε τ)} {s : Service ε τ}
    (hrun : runFrom (step wincode env) init es = some s) : Accounted es s :=
  runFrom_history (accounted_step wincode env) accounted_init hrun

/-- What was buffered had been counted as protected. -/
theorem Ledger.le_updates {s : Service ε τ} {buffered released : ℕ}
    (hs : Ledger s buffered released) (hstage : ∀ h ∈ s.handlers, h.Stage) :
    buffered ≤ s.updates .mevProtectedReceived := by
  have haccepted := hs.accepted
  have hcounted : total Handler.protectedAccepted s.handlers ≤ s.updates .mevProtectedReceived :=
    Total.total_le fun h hh => Handler.protectedAccepted_le (hstage h hh)
  omega

/-- The counters of the ledger, if fewer than `2 ^ 64` transactions were buffered. -/
theorem Ledger.toNat {s : Service ε τ} {buffered released : ℕ} (hs : Ledger s buffered released)
    (hlt : buffered < 2 ^ 64) :
    s.stats.mevBuffered.toNat = buffered ∧ s.stats.mevReleased.toNat = released ∧
      s.stats.mevBufferSize.toNat = s.buffer.length := by
  have hbalance := hs.balance
  have hreleased : released < 2 ^ 64 := by omega
  have hlength : s.buffer.length < 2 ^ 64 := by omega
  rw [hs.mevBuffered, hs.mevReleased, hs.mevBufferSize]
  exact ⟨UInt64.toNat_ofNat_of_lt' hlt, UInt64.toNat_ofNat_of_lt' hreleased,
    UInt64.toNat_ofNat_of_lt' hlength⟩

/-- **The ledger of protected transactions.** In any run of fewer than `2 ^ 64` events: what was
buffered is what was released and what is in the buffer, whose size is reported, and no more was
buffered than was counted as protected. A preparation adds to the released transactions what it
finds in the buffer, or nothing if the slot is blocked, and never its own arrival. -/
theorem mev_ledger {es : List (ServiceEvent ε τ)} {s : Service ε τ}
    (hrun : runFrom (step wincode env) init es = some s) (hlen : es.length < 2 ^ 64) :
    s.stats.mevBuffered.toNat = s.stats.mevReleased.toNat + s.buffer.length ∧
    s.stats.mevBufferSize.toNat = s.buffer.length ∧
    s.stats.mevBuffered ≤ s.stats.mevProtectedReceived ∧
    s.stats.mevReleased ≤ s.stats.mevBuffered ∧
    ∀ isBlocked s', step wincode env s (.prepare isBlocked) = some s' →
      s'.stats.mevReleased.toNat =
        s.stats.mevReleased.toNat + if isBlocked then 0 else s.buffer.length := by
  obtain ⟨htallied, buffered, released, hs⟩ := accounted_run wincode env hrun
  have hread : s.stats.mevProtectedReceived.toNat = s.updates .mevProtectedReceived :=
    htallied.toNat_read hlen .mevProtectedReceived
  have hupdates : s.updates .mevProtectedReceived < 2 ^ 64 := by
    rw [← hread]
    exact s.stats.mevProtectedReceived.toNat_lt
  have hle : buffered ≤ s.updates .mevProtectedReceived := hs.le_updates htallied.stage
  have hbalance := hs.balance
  obtain ⟨hbuffered, hreleased, hsize⟩ := hs.toNat (by omega)
  refine ⟨?_, hsize, ?_, ?_, fun isBlocked s' hstep => ?_⟩
  · rw [hbuffered, hreleased]
    exact hbalance
  · rw [UInt64.le_iff_toNat_le, hbuffered, hread]
    exact hle
  · rw [UInt64.le_iff_toNat_le, hbuffered, hreleased]
    omega
  · cases did_of_step wincode env hstep with
    | prepared _ hchannel =>
      -- the handlers are as before, so the bound on what was buffered is too
      have hafter := ledger_prepare hs isBlocked hchannel
      have hle' := hafter.le_updates htallied.stage
      rw [(hafter.toNat (hle'.trans_lt hupdates)).2.1, hreleased]
      rfl

/-- A protected packet is held back, and then released by an unprotected one. -/
def mevRun : List (ServiceEvent TransactionBinaryEncoding Unit) :=
  [.arrive () (.quic (.finished (TransactionPacket.layout ⟨[7], true, none⟩))),
    .arrive () (.quic (.finished (TransactionPacket.layout ⟨[8], false, none⟩))),
    .run 0 .sent, .run 0 .sent, .run 0 .sent, .run 1 .sent, .run 1 .sent, .prepare true,
    .run 0 .sent]

theorem mev_ledger_mevRun :
    ∃ s s', runFrom (step Wincode.standard sampleEnv) init mevRun = some s ∧
      s.buffer.length = 1 ∧ step Wincode.standard sampleEnv s (.prepare false) = some s' ∧
      s'.stats.mevReleased.toNat = s.stats.mevReleased.toNat + 1 :=
  ⟨_, _, rfl, rfl, rfl, (@mev_ledger _ _ Wincode.standard sampleEnv mevRun _ rfl
    (by decide)).2.2.2.2 false _ rfl⟩

end Service

end Iris
