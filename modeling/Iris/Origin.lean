import Iris.Relay

/-!
# Where the payloads come from

* `IsPayloadFrom`, `FromInput`: what a handler offers is what its input submits;
* `Traced`, **`traced_step`**, **`traced_run`**: the accepted payloads are those of the handlers
  with a positive answer, no handler has two, and nothing but payloads and flushes is in the
  channel, nothing but protected transactions in the buffer.
-/

namespace Iris

variable {ε ω κ : Type}

/-- The payload of the handler that the channel has accepted. -/
def Handler.acceptedPayload {τ : Type} (h : Handler ε τ) : Option (TpuClientPayload τ) :=
  match h.answer with
  | some (p, .sent) => some p
  | _ => none

namespace Relay

open Lts

variable (wincode : Wincode) (env : RpcEnv ε)

/-- The payload is what the input submits, allocated at the mark of handler `i`. -/
def IsPayloadFrom (i : ℕ) (input : IngressInput ε) (p : TpuClientPayload Submission) : Prop :=
  ∃ w m, input.Submits wincode env w m ∧ p = TpuClientPayload.new ⟨i, w, m⟩ w m

/-- All that handler `i` may still offer or has offered is what its input submits. -/
structure FromInput (i : ℕ) (h : Handler ε Submission) : Prop where
  rest : ∀ p, Instr.offer p ∈ h.rest → IsPayloadFrom wincode env i h.input p
  answer : ∀ p outcome, h.answer = some (p, outcome) → IsPayloadFrom wincode env i h.input p

theorem fromInput_start (i : ℕ) (input : IngressInput ε) :
    FromInput wincode env i
      (Handler.start wincode env (input.submission wincode env i) input) where
  rest := by
    intro p hp
    have hmem : p ∈ input.payloads wincode (input.submission wincode env i) env := by
      cases input with
      | json txn params mevProtect => exact mem_program_offer.mp hp
      | quic stream => exact mem_program_offer.mp hp
    obtain ⟨w, m, hsubmits, rfl⟩ := (mem_payloads_iff wincode env).mp hmem
    exact ⟨w, m, hsubmits, by rw [submission_of_submits wincode env hsubmits]⟩
  answer := nofun

theorem fromInput_add {i : ℕ} {h : Handler ε Submission} (hh : FromInput wincode env i h)
    {c : Counter} {rest : List (Instr Submission)} (hrest : h.rest = .add c :: rest) :
    FromInput wincode env i (h.add c rest) where
  rest := fun p hp => hh.rest p (by rw [hrest]; exact List.mem_cons_of_mem _ hp)
  answer := hh.answer

theorem fromInput_offer {i : ℕ} {h : Handler ε Submission} (hh : FromInput wincode env i h)
    {p : TpuClientPayload Submission} {rest : List (Instr Submission)}
    (hrest : h.rest = .offer p :: rest) (outcome : TrySend) :
    FromInput wincode env i (h.offer p outcome rest) where
  rest := by
    intro x hx
    rcases List.mem_cons.mp hx with hx | hx
    · cases hx
    · exact hh.rest x (by rw [hrest]; exact List.mem_cons_of_mem _ hx)
  answer := by
    intro x outcome' hx
    cases hx
    exact hh.rest p (by rw [hrest]; exact List.mem_cons_self)

/-- **Where everything comes from.** -/
structure Traced (s : Relay ε ω) : Prop where
  tallied : ∃ fs, Service.Tallied fs s.service
  origin : ∀ i h, s.service.handlers[i]? = some h → FromInput wincode env i h
  accepted : ∀ p, p ∈ s.accepted ↔ ∃ h ∈ s.service.handlers, h.acceptedPayload = some p
  nodup : (s.accepted.map fun p => p.encoded.alloc).Nodup
  batch : ∀ b ∈ s.service.channel, System.IsBatch b
  held : ∀ b ∈ s.service.buffer, System.IsHeld b

theorem traced_init (workers : ω) : Traced wincode env (init workers : Relay ε ω) where
  tallied := ⟨[], Service.tallied_init⟩
  origin := nofun
  accepted := by
    intro p
    constructor
    · exact nofun
    · rintro ⟨h, hh, -⟩
      cases hh
  nodup := List.nodup_nil
  batch := nofun
  held := nofun

theorem isBatch_of_isPayloadFrom {i : ℕ} {input : IngressInput ε}
    {p : TpuClientPayload Submission} (h : IsPayloadFrom wincode env i input p) :
    System.IsBatch p.intoEncoded := by
  obtain ⟨w, m, -, rfl⟩ := h
  exact Or.inr ⟨⟨i, w, m⟩, rfl⟩

theorem alloc_of_isPayloadFrom {i : ℕ} {input : IngressInput ε}
    {p : TpuClientPayload Submission} (h : IsPayloadFrom wincode env i input p) :
    ∃ sub, p.encoded.alloc = some sub ∧ sub.id = i := by
  obtain ⟨w, m, -, rfl⟩ := h
  exact ⟨⟨i, w, m⟩, rfl, rfl⟩

theorem answer_of_acceptedPayload {h : Handler ε Submission} {p : TpuClientPayload Submission}
    (hp : h.acceptedPayload = some p) : h.answer = some (p, .sent) := by
  unfold Handler.acceptedPayload at hp
  split at hp
  · rename_i p' hanswer
    cases hp
    exact hanswer
  · cases hp

/-- A payload that the channel has accepted is not accepted again. -/
theorem Traced.not_mem_accepted {s : Relay ε ω} (hs : Traced wincode env s) {i : ℕ}
    {h : Handler ε Submission} (hi : s.service.handlers[i]? = some h) (hanswer : h.answer = none)
    {p : TpuClientPayload Submission} (hp : IsPayloadFrom wincode env i h.input p) :
    p.encoded.alloc ∉ s.accepted.map fun p => p.encoded.alloc := by
  intro hmem
  obtain ⟨p', hp', halloc⟩ := List.mem_map.mp hmem
  obtain ⟨h', hh', hpayload⟩ := (hs.accepted p').mp hp'
  obtain ⟨j, hj⟩ := List.mem_iff_getElem?.mp hh'
  have hanswer' := answer_of_acceptedPayload hpayload
  obtain ⟨sub, hsub, rfl⟩ := alloc_of_isPayloadFrom wincode env hp
  obtain ⟨sub', hsub', hid⟩ :=
    alloc_of_isPayloadFrom wincode env ((hs.origin j h' hj).answer p' _ hanswer')
  -- equal marks belong to one handler, which has had no answer yet
  rw [hsub, hsub'] at halloc
  cases halloc
  subst hid
  rw [hi] at hj
  cases hj
  rw [hanswer] at hanswer'
  cases hanswer'

variable (cache : WorkersCache Submission ω κ)

theorem acceptedPayload_of_ne {h : Handler ε Submission} {p : TpuClientPayload Submission}
    {outcome : TrySend} (h' : outcome ≠ .sent) (rest : List (Instr Submission)) :
    (h.offer p outcome rest).acceptedPayload = none := by
  cases outcome with
  | sent => exact absurd rfl h'
  | full | closed => rfl

theorem acceptedPayload_of_answer {h : Handler ε Submission} (hanswer : h.answer = none) :
    h.acceptedPayload = none := by
  rw [Handler.acceptedPayload, hanswer]

/-- A handler that changes without an acceptance changes nothing about what was accepted. -/
theorem accepted_set {handlers : List (Handler ε Submission)}
    {accepted : List (TpuClientPayload Submission)}
    (hs : ∀ p, p ∈ accepted ↔ ∃ h ∈ handlers, h.acceptedPayload = some p) {i : ℕ}
    {h h' : Handler ε Submission} (hi : handlers[i]? = some h)
    (hsame : h'.acceptedPayload = h.acceptedPayload) (p : TpuClientPayload Submission) :
    p ∈ accepted ↔ ∃ x ∈ handlers.set i h', x.acceptedPayload = some p := by
  rw [hs, Total.exists_mem_set_iff (P := fun x => x.acceptedPayload = some p) hi (Q := False)
    (by rw [hsame, or_false]), or_false]

/-- A step of the servers, the channel or the block list without an acceptance. -/
theorem traced_service {s : Relay ε ω} (hs : Traced wincode env s) {e : RelayEvent ε}
    {f : ServiceEvent ε Submission} {service : Service ε Submission}
    (hf : ∀ isBlocked, f ≠ .prepare isBlocked)
    (hhandlers : ∀ a input, f = .arrive a input → e = .arrive input ∧
      a = input.submission wincode env s.service.handlers.length)
    (hnew : ∀ i outcome, f = .run i outcome → s.newlyAccepted i outcome = [])
    (hstep : Service.step wincode env s.service f = some service) :
    Traced wincode env { s with service } := by
  obtain ⟨fs, htallied⟩ := hs.tallied
  have htallied' : ∃ fs, Service.Tallied fs service :=
    ⟨_, Service.tallied_step wincode env fs s.service f service htallied hstep⟩
  cases Service.did_of_step wincode env hstep with
  | arrived a input =>
    obtain ⟨-, rfl⟩ := hhandlers a input rfl
    refine ⟨htallied', fun i h hi => ?_, fun p => ?_, hs.nodup, hs.batch, hs.held⟩
    · exact Total.getElem?_concat_of hs.origin (fromInput_start wincode env _ input) hi
    · rw [hs.accepted]
      show _ ↔ ∃ h ∈ s.service.handlers ++ [_], _
      simp only [List.mem_append, List.mem_singleton, or_and_right, exists_or, exists_eq_left]
      rw [or_iff_left]
      exact nofun
  | added outcome hi hrest =>
    have horigin := fromInput_add wincode env (hs.origin _ _ hi) hrest
    exact ⟨htallied', fun j x hj => Total.getElem?_set_of hs.origin horigin hj,
      accepted_set hs.accepted hi rfl, hs.nodup, hs.batch, hs.held⟩
  | offered outcome hi hrest =>
    rename_i i h p rest
    have hne : outcome ≠ .sent := by
      rintro rfl
      have hnone := hnew i .sent rfl
      simp [newlyAccepted, hi, hrest] at hnone
    have horigin := fromInput_offer wincode env (hs.origin i h hi) hrest outcome
    have hanswer := (Handler.stage_offer (htallied.stage h (List.mem_of_getElem? hi)) hrest
      outcome).1
    have hsame : (h.offer p outcome rest).acceptedPayload = h.acceptedPayload := by
      rw [acceptedPayload_of_ne hne, acceptedPayload_of_answer hanswer]
    refine ⟨htallied', fun j x hj => Total.getElem?_set_of hs.origin horigin hj,
      accepted_set hs.accepted hi hsame, hs.nodup, fun b hb => hs.batch b ?_, hs.held⟩
    cases outcome with
    | sent => exact absurd rfl hne
    | full | closed => exact hb
  | flushed outcome =>
    refine ⟨htallied', hs.origin, hs.accepted, hs.nodup, fun b hb => ?_, hs.held⟩
    rcases mem_trySendTransaction hb with hb | rfl
    · exact hs.batch b hb
    · exact Or.inl rfl
  | refreshed blockedLeaders =>
    exact ⟨htallied', hs.origin, hs.accepted, hs.nodup, hs.batch, hs.held⟩
  | prepared isBlocked => exact absurd rfl (hf isBlocked)

/-- **An acceptance.** -/
theorem traced_accepted {s : Relay ε ω} (hs : Traced wincode env s) {i : ℕ}
    {h : Handler ε Submission} {p : TpuClientPayload Submission} {rest : List (Instr Submission)}
    (hi : s.service.handlers[i]? = some h) (hrest : h.rest = .offer p :: rest) :
    Traced wincode env
      { s with
        service := { s.service with
          handlers := s.service.handlers.set i (h.offer p .sent rest)
          channel := s.service.channel ++ [p.intoEncoded] }
        accepted := s.accepted ++ [p] } := by
  obtain ⟨fs, htallied⟩ := hs.tallied
  have hstage := htallied.stage h (List.mem_of_getElem? hi)
  have hanswer := (Handler.stage_offer hstage hrest .sent).1
  have hpayload : IsPayloadFrom wincode env i h.input p :=
    (hs.origin i h hi).rest p (by rw [hrest]; exact List.mem_cons_self)
  have horigin := fromInput_offer wincode env (hs.origin i h hi) hrest .sent
  have hstep : Service.step wincode env s.service (.run i .sent) = some { s.service with
      handlers := s.service.handlers.set i (h.offer p .sent rest)
      channel := s.service.channel ++ [p.intoEncoded] } := by
    rw [Service.step, hi, Option.bind_some, Service.runHandler, hrest]
    rfl
  refine ⟨⟨_, Service.tallied_step wincode env fs _ _ _ htallied hstep⟩,
    fun j x hj => Total.getElem?_set_of hs.origin horigin hj, fun q => ?_, ?_, fun b hb => ?_,
    hs.held⟩
  · have hchange : (h.offer p .sent rest).acceptedPayload = some q ↔
        h.acceptedPayload = some q ∨ q = p := by
      rw [acceptedPayload_of_answer hanswer, Handler.acceptedPayload, Handler.offer]
      simp [eq_comm]
    rw [Total.exists_mem_set_iff (P := fun x => x.acceptedPayload = some q) hi hchange,
      List.mem_append, List.mem_singleton, hs.accepted]
  · rw [List.map_append, List.map_singleton, ← List.concat_eq_append]
    exact hs.nodup.concat (hs.not_mem_accepted wincode env hi hanswer hpayload)
  · rcases List.mem_append.mp hb with hb | hb
    · exact hs.batch b hb
    · rw [List.mem_singleton.mp hb]
      exact isBatch_of_isPayloadFrom wincode env hpayload

/-- What the buffer holds after a preparation. -/
theorem buffer_afterPrepare (s : Service ε Submission) (isBlocked : Bool)
    (batch : Bytes Submission) (rest : List (Bytes Submission)) :
    (s.afterPrepare isBlocked batch rest).buffer =
      (HoldQueue.step s.buffer (callRound batch isBlocked)).2 :=
  buffered_prepareTransactions s.buffer s.stats batch isBlocked

/-- **One step.** -/
theorem traced_step (s : Relay ε ω) (e : RelayEvent ε) (s' : Relay ε ω)
    (hs : Traced wincode env s) (h : step cache wincode env s e = some s') :
    Traced wincode env s' := by
  cases did_of_step cache wincode env h with
  | service f service hsend hf hhandlers hnew hstep =>
    exact traced_service wincode env hs hf hhandlers hnew hstep
  | accepted i hd p rest hi hrest => exact traced_accepted wincode env hs hi hrest
  | sent leaders batch rest hchannel =>
    obtain ⟨fs, htallied⟩ := hs.tallied
    obtain ⟨f, hf⟩ := exists_service_step cache wincode env h
    have hbatch : System.IsBatch batch := hs.batch batch (by rw [hchannel]; exact List.mem_cons_self)
    have hservice := service_afterSend cache s leaders batch rest
    refine ⟨⟨_, Service.tallied_step wincode env fs _ _ _ htallied hf⟩, ?_, ?_, hs.nodup,
      fun b hb => hs.batch b ?_, fun b hb => ?_⟩
    · rw [hservice]
      exact hs.origin
    · rw [hservice]
      exact hs.accepted
    · rw [hchannel]
      exact List.mem_cons_of_mem _ hb
    · rw [hservice, buffer_afterPrepare] at hb
      rcases HoldQueue.mem_of_mem_kept hb with hb | harr
      · exact hs.held b hb
      · obtain ⟨sub, -, hbody, hm⟩ := System.arrival_eq_some hbatch harr
        exact ⟨sub, hbody, hm⟩

theorem traced_run {workers : ω} {es : List (RelayEvent ε)} {s : Relay ε ω}
    (hrun : runFrom (step cache wincode env) (init workers) es = some s) :
    Traced wincode env s :=
  runFrom_invariant (traced_step wincode env cache) (traced_init wincode env workers) hrun

end Relay

end Iris
