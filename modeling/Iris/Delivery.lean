import Iris.Broadcaster.Safety
import Iris.Origin

/-!
# What reaches the workers

* `InOrder`, **`inOrder_step`**: among the protected transactions, and among the others, those
  released, held and queued are in this order those accepted;
* **`delivered_in_order`**: nothing that the channel has accepted is lost before a call releases it,
  duplicated or overtaken by another of its kind;
* `Handoff.Sound`, **`handed_is_submitted`**: what a call hands over was submitted as it is, and
  not as protected if one of its leaders was blocked;
* `moved_of_run`, **`released_of_last`**: the call for the last batch lets out all that was accepted
  before it, if none of its leaders is blocked.
-/

namespace Iris

open scoped List

variable {ε ω κ : Type}

/-- Whether a transaction was submitted as a protected one. -/
def isProtected (b : Bytes Submission) : Bool := b.alloc.any fun sub => sub.mevProtect

/-- The transactions in the channel; flushes are none. -/
def bodies (channel : List (Bytes Submission)) : List (Bytes Submission) :=
  channel.filterMap fun b => (TpuClientPayload.decode b).map TpuClientPayload.wireTransaction

theorem bodies_append (channel channel' : List (Bytes Submission)) :
    bodies (channel ++ channel') = bodies channel ++ bodies channel' := List.filterMap_append

theorem bodies_cons (batch : Bytes Submission) (rest : List (Bytes Submission)) (blocked : Bool) :
    bodies (batch :: rest) =
      ((callRound batch blocked).arrival.map Prod.fst).toList ++ bodies rest := by
  show bodies ([batch] ++ rest) = _
  rw [bodies_append]
  refine congrArg (· ++ bodies rest) ?_
  unfold bodies callRound
  cases h : TpuClientPayload.decode batch <;> simp [h]

theorem bodies_payload (p : TpuClientPayload Submission) :
    bodies [p.intoEncoded] = [p.wireTransaction] := by
  simp [bodies]

theorem bodies_flushTick (channel : List (Bytes Submission)) (outcome : TrySend) :
    bodies (flushTick channel outcome) = bodies channel := by
  cases outcome with
  | sent => exact (bodies_append _ _).trans (List.append_nil _)
  | full | closed => rfl

/-- What is handed over is what was prepared, to every leader, and a protected transaction is
prepared only when no leader is blocked. -/
structure Handoff.Sound (h : Handoff) : Prop where
  handed : h.handed = h.ready.flatMap fun t => h.leaders.map fun a => (t, a)
  shielded : ∀ b ∈ h.ready, isProtected b = true → ∀ a ∈ h.leaders, a ∉ h.loaded

/-- The event takes a batch off the channel. -/
def RelayEvent.isSend : RelayEvent ε → Bool
  | .send _ => true
  | _ => false

namespace Relay

open Lts

/-- The transactions that the calls so far have released, a call without leaders to nobody. -/
def released (s : Relay ε ω) : List (Bytes Submission) := s.handoffs.flatMap Handoff.ready

/-- The transactions that the channel has accepted. -/
def accepts (s : Relay ε ω) : List (Bytes Submission) :=
  s.accepted.map TpuClientPayload.wireTransaction

/-- The transactions on their way: those released, those held, and those in the channel. -/
def delivery (s : Relay ε ω) : List (Bytes Submission) :=
  released s ++ s.service.buffer ++ bodies s.service.channel

/-! ## Order -/

/-- The transactions of either kind stay in the order of their acceptance. -/
def InOrder (s : Relay ε ω) : Prop :=
  ∀ m : Bool, (delivery s).filter (fun b => isProtected b == m) =
    (accepts s).filter fun b => isProtected b == m

variable (cache : WorkersCache Submission ω κ) (wincode : Wincode) (env : RpcEnv ε)

theorem isProtected_of_isBodyOf {b : Bytes Submission} {sub : Submission}
    (h : System.IsBodyOf b sub) : isProtected b = sub.mevProtect := by
  rw [h]
  rfl

theorem ready_handoffFor (s : Relay ε ω) (leaders : List SocketAddr) (batch : Bytes Submission) :
    (handoffFor cache s leaders batch).ready = (HoldQueue.step s.service.buffer
      (callRound batch (hasBlockedSendTarget leaders s.service.broadcaster.blockedLeaders))).1 :=
  ready_prepareTransactions _ _ _ _

/-- What is on its way after a call. -/
theorem delivery_afterSend (s : Relay ε ω) (leaders : List SocketAddr) (batch : Bytes Submission)
    (rest : List (Bytes Submission)) :
    delivery (afterSend cache s leaders batch rest) = released s ++
      ((HoldQueue.step s.service.buffer (callRound batch
          (hasBlockedSendTarget leaders s.service.broadcaster.blockedLeaders))).1 ++
        (HoldQueue.step s.service.buffer (callRound batch
          (hasBlockedSendTarget leaders s.service.broadcaster.blockedLeaders))).2) ++
      bodies rest := by
  have hreleased : released (afterSend cache s leaders batch rest) =
      released s ++ (handoffFor cache s leaders batch).ready := by
    show (s.handoffs ++ [_]).flatMap _ = _
    rw [List.flatMap_append, List.flatMap_singleton]
    rfl
  rw [delivery, hreleased, service_afterSend, buffer_afterPrepare, ready_handoffFor,
    List.append_assoc (released s)]
  rfl

/-- Without an acceptance and without a call, the transactions stay where they are. -/
theorem delivery_service {s : Relay ε ω} {f : ServiceEvent ε Submission}
    {service : Service ε Submission} (hf : ∀ isBlocked, f ≠ .prepare isBlocked)
    (hnew : ∀ i outcome, f = .run i outcome → s.newlyAccepted i outcome = [])
    (hstep : Service.step wincode env s.service f = some service) :
    delivery { s with service } = delivery s := by
  cases Service.did_of_step wincode env hstep with
  | arrived a input => rfl
  | added outcome hi hrest => rfl
  | offered outcome hi hrest =>
    cases outcome with
    | sent => exact absurd (hnew _ .sent rfl) (by simp [newlyAccepted, hi, hrest])
    | full | closed => rfl
  | flushed outcome => exact congrArg (_ ++ ·) (bodies_flushTick _ _)
  | refreshed blockedLeaders => rfl
  | prepared isBlocked => exact absurd rfl (hf isBlocked)

/-- **One step.** -/
theorem inOrder_step {s s' : Relay ε ω} {e : RelayEvent ε} (htraced : Traced wincode env s)
    (hs : InOrder s) (h : step cache wincode env s e = some s') : InOrder s' := by
  intro m
  cases did_of_step cache wincode env h with
  | service f service hsend hf hhandlers hnew hstep =>
    rw [delivery_service wincode env hf hnew hstep]
    exact hs m
  | accepted i hd p rest hi hrest =>
    have hdelivery : delivery { s with
        service := { s.service with
          handlers := s.service.handlers.set i (hd.offer p .sent rest)
          channel := s.service.channel ++ [p.intoEncoded] }
        accepted := s.accepted ++ [p] } = delivery s ++ [p.wireTransaction] := by
      show _ ++ bodies (_ ++ _) = _
      rw [bodies_append, bodies_payload, ← List.append_assoc]
      rfl
    rw [hdelivery, List.filter_append, hs m, ← List.filter_append]
    have haccepts : accepts s ++ [p.wireTransaction] =
        (s.accepted ++ [p]).map TpuClientPayload.wireTransaction := by
      rw [List.map_append]
      rfl
    rw [haccepts]
    rfl
  | sent leaders batch rest hchannel =>
    have hbatch : System.IsBatch batch :=
      htraced.batch batch (by rw [hchannel]; exact List.mem_cons_self)
    have hheld : ∀ b ∈ s.service.buffer, (!isProtected b) = false := by
      intro b hb
      obtain ⟨sub, hbody, hm⟩ := htraced.held b hb
      rw [isProtected_of_isBodyOf hbody, hm]
      rfl
    have harrival : ∀ b m', (callRound batch
        (hasBlockedSendTarget leaders s.service.broadcaster.blockedLeaders)).arrival =
          some (b, m') → (!isProtected b) = !m' := by
      intro b m' harr
      obtain ⟨sub, -, hbody, rfl⟩ := System.arrival_eq_some hbatch harr
      rw [isProtected_of_isBodyOf hbody]
    have hkind : (fun b => isProtected b == m) = (fun b => !isProtected b) ∨
        (fun b => isProtected b == m) = fun b => !!isProtected b := by
      cases m with
      | false => exact Or.inl (by funext b; simp)
      | true => exact Or.inr (by funext b; simp)
    have hround := HoldQueue.filter_round hheld harrival hkind
    have hold := hs m
    rw [delivery, hchannel, bodies_cons batch rest
      (hasBlockedSendTarget leaders s.service.broadcaster.blockedLeaders)] at hold
    rw [delivery_afterSend]
    show _ = (accepts s).filter _
    simp only [List.filter_append] at hround hold ⊢
    rw [hround]
    simpa only [List.append_assoc] using hold

/-- The two kinds together. -/
theorem perm_of_inOrder {s : Relay ε ω} (hs : InOrder s) : delivery s ~ accepts s := by
  have hkinds : ∀ l : List (Bytes Submission),
      l.filter (fun b => isProtected b == true) ++ l.filter (fun b => isProtected b == false) ~ l :=
    fun l => by simpa using List.filter_append_perm isProtected l
  have hkept := hkinds (delivery s)
  rw [hs true, hs false] at hkept
  exact hkept.symm.trans (hkinds (accepts s))

theorem inOrder_run {workers : ω} {es : List (RelayEvent ε)} {s : Relay ε ω}
    (hrun : runFrom (step cache wincode env) (init workers) es = some s) : InOrder s := by
  have hboth : ∀ t e t', Traced wincode env t ∧ InOrder t → step cache wincode env t e = some t' →
      Traced wincode env t' ∧ InOrder t' := fun t e t' ht h =>
    ⟨traced_step wincode env cache t e t' ht.1 h, inOrder_step cache wincode env ht.1 ht.2 h⟩
  exact (runFrom_invariant hboth ⟨traced_init wincode env workers, fun _ => rfl⟩ hrun).2

/-- **Delivery.** In every run, among the protected transactions and among the others, those
released, those held and those in the channel are, in this order, those that the channel has
accepted. Together they are all the accepted ones, and no two of them are one submission. -/
theorem delivered_in_order {workers : ω} {es : List (RelayEvent ε)} {s : Relay ε ω}
    (hrun : runFrom (step cache wincode env) (init workers) es = some s) :
    (∀ m : Bool, (released s ++ s.service.buffer ++ bodies s.service.channel).filter
        (fun b => isProtected b == m) =
      (s.accepted.map TpuClientPayload.wireTransaction).filter fun b => isProtected b == m) ∧
    released s ++ s.service.buffer ++ bodies s.service.channel ~
      s.accepted.map TpuClientPayload.wireTransaction ∧
    (released s ++ s.service.buffer ++ bodies s.service.channel).Nodup := by
  have horder := inOrder_run cache wincode env hrun
  have hperm := perm_of_inOrder horder
  refine ⟨horder, hperm, hperm.nodup_iff.mpr ?_⟩
  have hnodup := (traced_run wincode env cache hrun).nodup
  have halloc : (accepts s).map Bytes.alloc = s.accepted.map fun p => p.encoded.alloc := by
    unfold accepts
    rw [List.map_map]
    rfl
  rw [← halloc] at hnodup
  exact hnodup.of_map _

/-- A stream with a protected transaction, and one with an unprotected one. -/
def packets : List (RelayEvent TransactionBinaryEncoding) :=
  [.arrive (.quic (.finished (TransactionPacket.layout ⟨[7], true, none⟩))),
    .arrive (.quic (.finished (TransactionPacket.layout ⟨[8, 8], false, none⟩))), .run 0 .sent,
    .run 0 .sent, .run 1 .sent, .run 0 .sent, .run 1 .sent, .run 0 .sent]

/-- Both are taken from the channel while one of the leaders is blocked. -/
def blockedRun : List (RelayEvent TransactionBinaryEncoding) :=
  packets ++ [.refresh {System.localAddr 8001}, .send [System.localAddr 8001],
    .send [System.localAddr 8001, System.localAddr 8002]]

theorem delivered_in_order_blockedRun :
    ∃ s, runFrom (step WorkersCache.accepting Wincode.standard sampleEnv) (init ())
        blockedRun = some s ∧
      released s = [⟨some ⟨1, [8, 8], false⟩, [8, 8]⟩] ∧
      s.service.buffer = [⟨some ⟨0, [7], true⟩, [7]⟩] ∧
      (released s ++ s.service.buffer ++ bodies s.service.channel).Nodup :=
  ⟨_, rfl, rfl, rfl,
    (@delivered_in_order _ _ _ WorkersCache.accepting Wincode.standard sampleEnv () blockedRun _
      rfl).2.2⟩

/-! ## Calls -/

theorem sound_handoffFor {s : Relay ε ω} {batch : Bytes Submission} (hbatch : System.IsBatch batch)
    (leaders : List SocketAddr) : (handoffFor cache s leaders batch).Sound where
  handed := by
    rw [ready_handoffFor]
    exact handed_sendToWorkers cache _ _ _ _ _
  shielded := by
    intro b hb hprotected a ha hblocked
    have hshut : (callRound batch
        (hasBlockedSendTarget leaders s.service.broadcaster.blockedLeaders)).shut = true :=
      hasBlockedSendTarget_iff.mpr ⟨a, ha, hblocked⟩
    rw [ready_handoffFor] at hb
    have harr := HoldQueue.arrival_of_mem_released hshut hb
    obtain ⟨sub, -, hbody, hm⟩ := System.arrival_eq_some hbatch harr
    rw [isProtected_of_isBodyOf hbody, hm] at hprotected
    cases hprotected

theorem sound_step {s s' : Relay ε ω} {e : RelayEvent ε} (htraced : Traced wincode env s)
    (hs : ∀ h ∈ s.handoffs, h.Sound) (h : step cache wincode env s e = some s') :
    ∀ h ∈ s'.handoffs, h.Sound := by
  cases did_of_step cache wincode env h with
  | service | accepted => exact hs
  | sent leaders batch rest hchannel =>
    intro c hc
    rcases List.mem_append.mp hc with hc | hc
    · exact hs c hc
    · rw [List.mem_singleton.mp hc]
      refine sound_handoffFor cache (htraced.batch batch ?_) leaders
      rw [hchannel]
      exact List.mem_cons_self

theorem sound_run {workers : ω} {es : List (RelayEvent ε)} {s : Relay ε ω}
    (hrun : runFrom (step cache wincode env) (init workers) es = some s) :
    ∀ h ∈ s.handoffs, h.Sound := by
  have hboth : ∀ t e t', (Traced wincode env t ∧ ∀ h ∈ t.handoffs, h.Sound) →
      step cache wincode env t e = some t' →
      Traced wincode env t' ∧ ∀ h ∈ t'.handoffs, h.Sound := fun t e t' ht h =>
    ⟨traced_step wincode env cache t e t' ht.1 h, sound_step cache wincode env ht.1 ht.2 h⟩
  exact (runFrom_invariant hboth ⟨traced_init wincode env workers, nofun⟩ hrun).2

/-- **From a transaction back to its client.** -/
theorem exists_handler_of_ready {workers : ω} {es : List (RelayEvent ε)} {s : Relay ε ω}
    (hrun : runFrom (step cache wincode env) (init workers) es = some s) {c : Handoff}
    (hc : c ∈ s.handoffs) {b : Bytes Submission} (hb : b ∈ c.ready) :
    ∃ i h w m, s.service.handlers[i]? = some h ∧ h.input.Submits wincode env w m ∧
      h.answer = some (TpuClientPayload.new ⟨i, w, m⟩ w m, .sent) ∧
      b = Bytes.fromVec ⟨i, w, m⟩ w := by
  have htraced := traced_run wincode env cache hrun
  -- the transaction is one of those accepted, hence the payload of a handler
  have hreleased : b ∈ released s := List.mem_flatMap.mpr ⟨c, hc, hb⟩
  have hperm := perm_of_inOrder (inOrder_run cache wincode env hrun)
  have haccepted : b ∈ accepts s :=
    hperm.mem_iff.mp (List.mem_append_left _ (List.mem_append_left _ hreleased))
  obtain ⟨p, hp, rfl⟩ := List.mem_map.mp haccepted
  obtain ⟨h, hh, hpayload⟩ := (htraced.accepted p).mp hp
  have hanswer := answer_of_acceptedPayload hpayload
  obtain ⟨i, hi⟩ := List.mem_iff_getElem?.mp hh
  obtain ⟨w, m, hsubmits, rfl⟩ := (htraced.origin i h hi).answer p _ hanswer
  exact ⟨i, h, w, m, hi, hsubmits, hanswer, TpuClientPayload.wireTransaction_new _ w m⟩

/-- **From a worker back to a client.** Every call of every run hands each transaction that it
releases to each of its leaders. The transaction is byte for byte what one of the handlers was
given by its client, the flag being the client's too, and the channel has accepted it; if it was
submitted as protected, no leader of the call is in the block list that the call loaded. -/
theorem handed_is_submitted {workers : ω} {es : List (RelayEvent ε)} {s : Relay ε ω}
    (hrun : runFrom (step cache wincode env) (init workers) es = some s) :
    ∀ c ∈ s.handoffs,
      (c.handed = c.ready.flatMap fun t => c.leaders.map fun a => (t, a)) ∧
      ∀ b ∈ c.ready, ∃ i h w m, s.service.handlers[i]? = some h ∧
        h.input.Submits wincode env w m ∧
        h.answer = some (TpuClientPayload.new ⟨i, w, m⟩ w m, .sent) ∧
        b = Bytes.fromVec ⟨i, w, m⟩ w ∧ (m = true → ∀ a ∈ c.leaders, a ∉ c.loaded) := by
  intro c hc
  have hsound := sound_run cache wincode env hrun c hc
  refine ⟨hsound.handed, fun b hb => ?_⟩
  obtain ⟨i, h, w, m, hi, hsubmits, hanswer, rfl⟩ :=
    exists_handler_of_ready cache wincode env hrun hc hb
  exact ⟨i, h, w, m, hi, hsubmits, hanswer, rfl, hsound.shielded _ hb⟩

theorem handed_is_submitted_blockedRun :
    ∃ s, runFrom (step WorkersCache.accepting Wincode.standard sampleEnv) (init ())
        blockedRun = some s ∧ s.handoffs.length = 2 ∧
      ∀ c ∈ s.handoffs, c.handed = c.ready.flatMap fun t => c.leaders.map fun a => (t, a) :=
  ⟨_, rfl, rfl, fun c hc =>
    (@handed_is_submitted _ _ _ WorkersCache.accepting Wincode.standard sampleEnv () blockedRun _
      rfl c hc).1⟩

/-! ## The last batch -/

/-- After some events the channel has lost as many batches as there were calls, and gained some. -/
structure Moved (s : Relay ε ω) (sends : ℕ) (s' : Relay ε ω)
    (pushed : List (Bytes Submission)) (more : List (TpuClientPayload Submission)) : Prop where
  channel : s'.service.channel = s.service.channel.drop sends ++ pushed
  accepted : s'.accepted = s.accepted ++ more
  bodies : bodies pushed = more.map TpuClientPayload.wireTransaction

/-- Without a call, batches can only be added, and only with an acceptance or a tick. -/
theorem moved_service {s : Relay ε ω} {f : ServiceEvent ε Submission}
    {service : Service ε Submission} (hf : ∀ isBlocked, f ≠ .prepare isBlocked)
    (hnew : ∀ i outcome, f = .run i outcome → s.newlyAccepted i outcome = [])
    (hstep : Service.step wincode env s.service f = some service) :
    ∃ pushed, Moved s 0 { s with service } pushed [] := by
  have hstay : ∀ t : Service ε Submission, t.channel = s.service.channel →
      ∃ pushed, Moved s 0 { s with service := t } pushed [] := fun t ht =>
    ⟨[], ht.trans (List.append_nil _).symm, (List.append_nil _).symm, rfl⟩
  cases Service.did_of_step wincode env hstep with
  | arrived a input => exact hstay _ rfl
  | added outcome hi hrest => exact hstay _ rfl
  | offered outcome hi hrest =>
    cases outcome with
    | sent => exact absurd (hnew _ .sent rfl) (by simp [newlyAccepted, hi, hrest])
    | full | closed => exact hstay _ rfl
  | flushed outcome =>
    cases outcome with
    | sent => exact ⟨[Bytes.new], rfl, (List.append_nil _).symm, rfl⟩
    | full | closed => exact hstay _ rfl
  | refreshed blockedLeaders => exact hstay _ rfl
  | prepared isBlocked => exact absurd rfl (hf isBlocked)

theorem moved_step {s s' : Relay ε ω} {e : RelayEvent ε}
    (h : step cache wincode env s e = some s') :
    [e].countP RelayEvent.isSend ≤ s.service.channel.length ∧
      ∃ pushed more, Moved s ([e].countP RelayEvent.isSend) s' pushed more := by
  cases did_of_step cache wincode env h with
  | service f service hsend hf hhandlers hnew hstep =>
    have hzero : [e].countP RelayEvent.isSend = 0 := by
      cases e with
      | send leaders => exact absurd rfl (hsend leaders)
      | _ => rfl
    obtain ⟨pushed, hmoved⟩ := moved_service wincode env hf hnew hstep
    rw [hzero]
    exact ⟨Nat.zero_le _, pushed, [], hmoved⟩
  | accepted i hd p rest hi hrest =>
    exact ⟨Nat.zero_le _, [p.intoEncoded], [p], rfl, rfl, bodies_payload p⟩
  | sent leaders batch rest hchannel =>
    refine ⟨?_, [], [], ?_, (List.append_nil _).symm, rfl⟩
    · rw [hchannel]
      exact Nat.succ_le_succ (Nat.zero_le _)
    · rw [hchannel]
      exact (List.append_nil _).symm

/-- **First in, first out.** As long as there have been no more calls than there were batches, the
channel holds the batches that are left of these, and behind them what came later. -/
theorem moved_of_run : ∀ {es : List (RelayEvent ε)} {s s' : Relay ε ω},
    runFrom (step cache wincode env) s es = some s' →
    es.countP RelayEvent.isSend ≤ s.service.channel.length →
      ∃ pushed more, Moved s (es.countP RelayEvent.isSend) s' pushed more
  | [], s, s', h, _ => by
    cases h
    exact ⟨[], [], (List.append_nil _).symm, (List.append_nil _).symm, rfl⟩
  | e :: es, s, s', h, hle => by
    obtain ⟨t, ht, h⟩ := runFrom_cons_eq_some.mp h
    obtain ⟨hone, pushed, more, hmoved⟩ := moved_step cache wincode env ht
    have hcount : (e :: es).countP RelayEvent.isSend =
        [e].countP RelayEvent.isSend + es.countP RelayEvent.isSend := by
      rw [← List.countP_append]
      rfl
    rw [hcount] at hle ⊢
    have hdrop := List.length_drop (l := s.service.channel) (i := [e].countP RelayEvent.isSend)
    have hlen : es.countP RelayEvent.isSend ≤
        (s.service.channel.drop ([e].countP RelayEvent.isSend)).length := by omega
    obtain ⟨pushed', more', hmoved'⟩ := moved_of_run h (by
      rw [hmoved.channel, List.length_append]
      omega)
    refine ⟨pushed ++ pushed', more ++ more', ?_, ?_, ?_⟩
    · rw [hmoved'.channel, hmoved.channel, List.drop_append_of_le_length hlen, List.drop_drop,
        List.append_assoc]
    · rw [hmoved'.accepted, hmoved.accepted, List.append_assoc]
    · rw [bodies_append, hmoved.bodies, hmoved'.bodies, List.map_append]

/-- **The last batch lets everything out.** When the batches in front of the last one have been
taken, and none of the leaders that the scheduler has for this one is blocked, its call leaves
nothing held back: the calls so far have released all that was accepted before. -/
theorem released_of_last {workers : ω} {es es' : List (RelayEvent ε)} {s t u : Relay ε ω}
    {leaders : List SocketAddr} {front : List (Bytes Submission)} {last : Bytes Submission}
    (hrun : runFrom (step cache wincode env) (init workers) es = some s)
    (hchannel : s.service.channel = front ++ [last])
    (hrun' : runFrom (step cache wincode env) s es' = some t)
    (hsends : es'.countP RelayEvent.isSend = front.length)
    (hopen : ∀ a ∈ leaders, a ∉ t.service.broadcaster.blockedLeaders)
    (hsend : step cache wincode env t (.send leaders) = some u) :
    u.service.buffer = [] ∧ released u ~ s.accepted.map TpuClientPayload.wireTransaction := by
  obtain ⟨pushed, more, hmoved⟩ := moved_of_run cache wincode env hrun' (by
    rw [hchannel, List.length_append, hsends]
    exact Nat.le_add_right _ _)
  have hhead : t.service.channel = last :: pushed := by
    rw [hmoved.channel, hsends, hchannel, List.drop_left]
    rfl
  have hperm := perm_of_inOrder (inOrder_run cache wincode env
    (runFrom_concat (runFrom_append_eq_some.mpr ⟨s, hrun, hrun'⟩) hsend))
  cases did_of_step cache wincode env hsend with
  | service f service hcall => exact absurd rfl (hcall leaders)
  | sent leaders batch rest htaken =>
    rw [hhead] at htaken
    cases htaken
    have hshut : hasBlockedSendTarget leaders t.service.broadcaster.blockedLeaders = false := by
      rw [← Bool.not_eq_true, hasBlockedSendTarget_iff]
      rintro ⟨a, ha, hblocked⟩
      exact hopen a ha hblocked
    have hbuffer : (afterSend cache t leaders last pushed).service.buffer = [] := by
      rw [service_afterSend, buffer_afterPrepare]
      exact HoldQueue.kept_of_open hshut
    refine ⟨hbuffer, (List.perm_append_right_iff (bodies pushed)).mp ?_⟩
    have haccepts : accepts (afterSend cache t leaders last pushed) =
        s.accepted.map TpuClientPayload.wireTransaction ++ bodies pushed := by
      show t.accepted.map _ = _
      rw [hmoved.accepted, List.map_append, hmoved.bodies]
    rw [haccepts, delivery, hbuffer, List.append_nil] at hperm
    exact hperm

end Relay

end Iris
