import Iris.Delivery
import Iris.IngressLedger

/-!
# The ledger from the servers to the workers

* `Handler.pending`, `pending_add`: a handler that has counted its request or stream, and nothing
  has been decided on it;
* `Tracked`, **`tracked_run`**: the payloads accepted are those of the handlers, and the counters
  are their updates;
* **`delivery_ledger`**: what the counters say was received and enqueued, against what the calls
  have released and what is still on its way.
-/

namespace Iris

open scoped List

variable {ε τ ω κ : Type}

namespace Handler

/-- What the handler has received was counted, and neither rejected nor refused nor accepted. -/
def pending (h : Handler ε τ) : Bool := h.inFlight && !h.accepted

/-- The payload was accepted, and this has not been counted. -/
def uncounted (h : Handler ε τ) : Bool := h.accepted && !h.finished

theorem accepted_eq_false {h : Handler ε τ} (hanswer : h.answer = none) : h.accepted = false := by
  rw [accepted, hanswer]

/-- Once its payload was accepted, a handler is in flight until it has counted that. -/
theorem inFlight_of_accepted {h : Handler ε τ} (hs : Stage h) (haccepted : h.accepted = true) :
    h.inFlight = !h.finished := by
  have hnone : h.answer ≠ none := fun hanswer =>
    Bool.noConfusion ((accepted_eq_false hanswer).symm.trans haccepted)
  cases hs with
  | ignored hinput hmade hanswer hrest => exact absurd hanswer hnone
  | underway r m todo last hr hlast hmade hanswer hrest => exact absurd hanswer hnone
  | rejected r m c hr hc hmade hanswer hrest => exact absurd hanswer hnone
  | answered r p outcome hr hmade hanswer hrest =>
    have hout : (r :: mevCounters p.isMevProtected).any Counter.isOutcome = false :=
      List.any_eq_false.mpr fun c hc => by simp [(opening_mevCounters hr _).outcome c hc]
    rw [inFlight, finished, hmade, hrest, hout, List.any_cons, hr]
    rfl
  | recorded r p outcome hr hmade hanswer hrest =>
    have hout : h.made.any Counter.isOutcome = true := by simp [hmade, isOutcome_answerCounter]
    rw [inFlight, finished, hrest, hout, Bool.not_true, Bool.and_false]
    rfl

/-- **A handler in flight** is pending, or has yet to count an acceptance. -/
theorem pending_add {h : Handler ε τ} (hs : Stage h) :
    (if h.inFlight then 1 else 0) =
      (if h.pending then 1 else 0) + if h.uncounted then 1 else 0 := by
  unfold pending uncounted
  cases haccepted : h.accepted with
  | false => simp
  | true => simp [inFlight_of_accepted hs haccepted]

/-- An acceptance has been counted, or will be. -/
theorem accepted_add (h : Handler ε τ) : (if h.accepted then 1 else 0) =
    (if h.finished && h.accepted then 1 else 0) + if h.uncounted then 1 else 0 := by
  unfold uncounted
  cases h.accepted <;> cases h.finished <;> rfl

end Handler

namespace Service

/-- **The balance over all handlers**, with the acceptances that have not been counted as such. -/
theorem pending_balance {s : Service ε τ} (hs : ∀ h ∈ s.handlers, h.Stage) :
    s.updates .quicReceived + s.updates .jsonRpcReceived =
      s.updates .quicInvalid + s.updates .jsonRpcInvalid + s.updates .tpuDropped +
        s.handlers.countP Handler.accepted + s.handlers.countP Handler.pending ∧
    s.updates .tpuEnqueued + s.handlers.countP Handler.uncounted =
      s.handlers.countP Handler.accepted := by
  have hbalance := ingress_balance hs
  have henqueued := updates_tpuEnqueued hs
  have hflight := Total.total_congr fun h hh => Handler.pending_add (hs h hh)
  have haccepted := Total.total_congr fun h (_ : h ∈ s.handlers) => Handler.accepted_add h
  rw [Total.total_add, ← Total.countP_eq_total, ← Total.countP_eq_total,
    ← Total.countP_eq_total] at hflight haccepted
  omega

end Service

namespace Relay

open Lts

variable (cache : WorkersCache Submission ω κ) (wincode : Wincode) (env : RpcEnv ε)

/-- A run so far: the payloads accepted are those of the handlers, one for one, and the counters
are the updates of the handlers, no more than the events. -/
structure Tracked (es : List (RelayEvent ε)) (s : Relay ε ω) : Prop where
  accepted : s.service.handlers.countP Handler.accepted = s.accepted.length
  tallied : ∃ fs : List (ServiceEvent ε Submission), fs.length = es.length ∧
    s.service.Tallied fs

/-- A handler that changes, but not in whether its payload was accepted. -/
theorem countP_accepted_set {handlers : List (Handler ε τ)} {i : ℕ} {h h' : Handler ε τ}
    (hi : handlers[i]? = some h) (hsame : h'.accepted = h.accepted) :
    (handlers.set i h').countP Handler.accepted = handlers.countP Handler.accepted := by
  have hset := Total.total_set (fun h => if h.accepted then 1 else 0) hi h'
  rw [hsame] at hset
  rw [Total.countP_eq_total, Total.countP_eq_total]
  exact Nat.add_right_cancel hset

/-- Without an acceptance, the count stays. -/
theorem countP_accepted_service {s : Relay ε ω} {f : ServiceEvent ε Submission}
    {service : Service ε Submission} (hstage : ∀ h ∈ s.service.handlers, h.Stage)
    (hnew : ∀ i outcome, f = .run i outcome → s.newlyAccepted i outcome = [])
    (hstep : Service.step wincode env s.service f = some service) :
    service.handlers.countP Handler.accepted = s.service.handlers.countP Handler.accepted := by
  cases Service.did_of_step wincode env hstep with
  | arrived a input =>
    show (s.service.handlers ++ [_]).countP _ = _
    rw [List.countP_append]
    rfl
  | added outcome hi hrest => exact countP_accepted_set hi rfl
  | offered outcome hi hrest =>
    rename_i i h p rest
    have hnone := (Handler.stage_offer (hstage h (List.mem_of_getElem? hi)) hrest outcome).1
    refine countP_accepted_set hi ?_
    rw [Handler.accepted_eq_false hnone]
    cases outcome with
    | sent => exact absurd (hnew i .sent rfl) (by simp [newlyAccepted, hi, hrest])
    | full | closed => rfl
  | flushed outcome => rfl
  | refreshed blockedLeaders => rfl
  | prepared isBlocked hchannel => rfl

/-- **One step.** -/
theorem tracked_step (es : List (RelayEvent ε)) (s : Relay ε ω) (e : RelayEvent ε)
    (s' : Relay ε ω) (hs : Tracked es s) (h : step cache wincode env s e = some s') :
    Tracked (es ++ [e]) s' := by
  obtain ⟨fs, hlen, htallied⟩ := hs.tallied
  obtain ⟨f, hf⟩ := exists_service_step cache wincode env h
  refine ⟨?_, fs ++ [f], by rw [List.length_append, List.length_append, hlen]; rfl,
    Service.tallied_step wincode env fs _ f _ htallied hf⟩
  cases did_of_step cache wincode env h with
  | service f service hsend hf hhandlers hnew hstep =>
    exact (countP_accepted_service wincode env htallied.stage hnew hstep).trans hs.accepted
  | accepted i hd p rest hi hrest =>
    have hnone := (Handler.stage_offer (htallied.stage hd (List.mem_of_getElem? hi)) hrest .sent).1
    have hset := Total.total_set (fun h => if h.accepted then 1 else 0) hi (hd.offer p .sent rest)
    have hbefore : hd.accepted = false := Handler.accepted_eq_false hnone
    have hafter : (hd.offer p .sent rest).accepted = true := rfl
    have hcount := hs.accepted
    simp only [hbefore, hafter, ← Total.countP_eq_total] at hset
    show (s.service.handlers.set i _).countP _ = (s.accepted ++ [p]).length
    rw [List.length_append, List.length_singleton]
    simpa [hcount] using hset
  | sent leaders batch rest hchannel => exact hs.accepted

theorem tracked_run {workers : ω} {es : List (RelayEvent ε)} {s : Relay ε ω}
    (hrun : runFrom (step cache wincode env) (init workers) es = some s) : Tracked es s :=
  runFrom_history (tracked_step cache wincode env) ⟨rfl, [], rfl, Service.tallied_init⟩ hrun

/-- **The delivery ledger.** In any run of fewer than `2 ^ 64` events: what the counters call
received is what they call invalid or dropped, what the calls have released, what is held back or
waits in the channel, and what nothing has been decided on. Of what is enqueued, the counter lacks
the acceptances that their handlers have not counted yet. -/
theorem delivery_ledger {workers : ω} {es : List (RelayEvent ε)} {s : Relay ε ω}
    (hrun : runFrom (step cache wincode env) (init workers) es = some s)
    (hlen : es.length < 2 ^ 64) :
    s.service.stats.quicReceived.toNat + s.service.stats.jsonRpcReceived.toNat =
      s.service.stats.quicInvalid.toNat + s.service.stats.jsonRpcInvalid.toNat +
        s.service.stats.tpuDropped.toNat +
        ((released s).length + s.service.buffer.length + (bodies s.service.channel).length) +
        s.service.handlers.countP Handler.pending ∧
    s.service.stats.tpuEnqueued.toNat + s.service.handlers.countP Handler.uncounted =
      (released s).length + s.service.buffer.length + (bodies s.service.channel).length := by
  obtain ⟨haccepted, fs, hfs, htallied⟩ := tracked_run cache wincode env hrun
  have hread := htallied.toNat_read (hfs ▸ hlen)
  have hperm := (perm_of_inOrder (inOrder_run cache wincode env hrun)).length_eq
  simp only [delivery, accepts, List.length_append, List.length_map] at hperm
  obtain ⟨hbalance, henqueued⟩ := Service.pending_balance htallied.stage
  rw [← hread, ← hread, ← hread, ← hread, ← hread, haccepted, ← hperm] at hbalance
  rw [← hread, haccepted, ← hperm] at henqueued
  exact ⟨hbalance, henqueued⟩

theorem delivery_ledger_blockedRun :
    ∃ s, runFrom (step WorkersCache.accepting Wincode.standard sampleEnv) (init ())
        blockedRun = some s ∧ (released s).length = 1 ∧ s.service.buffer.length = 1 ∧
      s.service.stats.tpuEnqueued.toNat + s.service.handlers.countP Handler.uncounted =
        (released s).length + s.service.buffer.length + (bodies s.service.channel).length :=
  ⟨_, rfl, rfl, rfl, (@delivery_ledger _ _ _ WorkersCache.accepting Wincode.standard sampleEnv ()
    blockedRun _ rfl (by decide)).2⟩

end Relay

end Iris
