import Iris.Websocket

/-!
# Leader tracking fails fast

The subscription goes on, or winds down because it was cancelled, or returns an error, which
aborts the process.

* `Fails`: the events that end the subscription with an error;
* `phase_handle`, `phase_sent`, `cancelled_step`: what a step does to the phase and the token;
* `Wound`, **`wound_step`**: a task that winds down, or has ended without an error, was cancelled;
* **`fail_fast`**: every way out of the function, over all runs.
-/

namespace Iris

namespace Subscription

/-- The event ends the subscription with an error: a request fails, the stream ends or stalls, or
the consumer is gone and the token is not set. -/
def Fails (s : Subscription) : SubscriptionEvent → Prop
  | .connect (.error _) | .subscribe (.error _) | .shutdown (.error _) => True
  | .select (.stream next) => ¬ Delivers next
  | .send .closed => s.cancelled = false
  | _ => False

/-! ## The phase and the token after a step -/

@[simp] theorem phase_leave (s : Subscription) (result : Except AnyhowError Unit) :
    (s.leave result).phase = .returned result s.cancelled := rfl

@[simp] theorem phase_await (s : Subscription) : s.await.phase = .waiting s.cancelled := rfl

/-- A notification that maps to no event starts the next wait. -/
theorem phase_handle_none {s : Subscription} {update : SlotUpdate}
    (h : mapWebsocketUpdateToSlotEvent update = none) :
    (s.handle update).phase = .waiting s.cancelled := by
  rw [handle, h]
  rfl

theorem phase_handle (s : Subscription) (update : SlotUpdate) :
    (s.handle update).phase = .waiting s.cancelled ∨
      ∃ event, (s.handle update).phase = .sending update event := by
  unfold handle
  cases mapWebsocketUpdateToSlotEvent update with
  | none => exact Or.inl rfl
  | some event => exact Or.inr ⟨event, rfl⟩

/-- A send leads to the next wait, unless it finds the channel closed. -/
theorem phase_sent {s : Subscription} {outcome : SendTimeout} (h : outcome ≠ .closed)
    (update : SlotUpdate) (event : SlotEvent) :
    (s.sent update event outcome).phase = .waiting s.cancelled := by
  cases outcome with
  | closed => exact absurd rfl h
  | sent => rfl
  | timeout => rfl

theorem phase_sent_closed (s : Subscription) (update : SlotUpdate) (event : SlotEvent) :
    (s.sent update event .closed).phase =
      if s.cancelled then .unsubscribing
      else .returned (.error ["slot-event consumer unexpectedly stopped"]) s.cancelled := by
  simp only [sent]
  split_ifs <;> rfl

theorem cancelled_handle (s : Subscription) (update : SlotUpdate) :
    (s.handle update).cancelled = s.cancelled := by
  unfold handle
  split <;> rfl

theorem cancelled_sent (s : Subscription) (update : SlotUpdate) (event : SlotEvent)
    (outcome : SendTimeout) : (s.sent update event outcome).cancelled = s.cancelled := by
  cases outcome with
  | sent => rfl
  | timeout => rfl
  | closed =>
    simp only [sent]
    split_ifs <;> rfl

/-- Only `cancel` touches the token. -/
theorem cancelled_step {s s' : Subscription} {e : SubscriptionEvent} (he : e ≠ .cancel)
    (h : step s e = some s') : s'.cancelled = s.cancelled := by
  cases did_of_step h with
  | cancelled => exact absurd rfl he
  | notified b hphase after update => exact cancelled_handle s update
  | sent update event hphase outcome => exact cancelled_sent s update event outcome
  | _ => rfl

/-- The token is set by a `cancel` of the run. -/
theorem mem_of_cancelled {es : List SubscriptionEvent} {s : Subscription}
    (hrun : Lts.runFrom step init es = some s) (hs : s.cancelled = true) : .cancel ∈ es := by
  by_contra hnot
  have hkeep : ∀ s e s', s.cancelled = false → e ≠ .cancel → step s e = some s' →
      s'.cancelled = false := fun s e s' hclear he h => (cancelled_step he h).trans hclear
  have hne : ∀ e ∈ es, e ≠ .cancel := by
    rintro e he rfl
    exact hnot he
  have hclear : s.cancelled = false :=
    Lts.runFrom_invariant_of_allSteps hkeep rfl (Lts.allSteps_of_forall_mem hne) hrun
  rw [hs] at hclear
  cases hclear

/-! ## Winding down -/

/-- A task that winds down was cancelled, and so was one that has ended without an error. -/
structure Wound (s : Subscription) : Prop where
  winding : s.phase = .unsubscribing ∨ s.phase = .shuttingDown → s.cancelled = true
  finished : ∀ c, s.phase = .returned (.ok ()) c → c = true ∧ s.cancelled = true

theorem wound_init : Wound init where
  winding := by simp [init]
  finished := by simp [init]

/-- A task that waits or sends has nothing to show. -/
theorem wound_of_phase {s : Subscription} (h₁ : s.phase ≠ .unsubscribing)
    (h₂ : s.phase ≠ .shuttingDown) (h₃ : ∀ c, s.phase ≠ .returned (.ok ()) c) : Wound s where
  winding := fun h => absurd h (not_or.mpr ⟨h₁, h₂⟩)
  finished := fun c h => absurd h (h₃ c)

theorem wound_step (s : Subscription) (e : SubscriptionEvent) (s' : Subscription) (hs : Wound s)
    (h : step s e = some s') : Wound s' := by
  cases did_of_step h with
  | cancelled => exact ⟨fun _ => rfl, fun c hc => ⟨(hs.finished c hc).1, rfl⟩⟩
  | connected => exact wound_of_phase (by simp) (by simp) (by simp)
  | connectFailed e => exact wound_of_phase (by simp) (by simp) (by simp)
  | subscribed => exact wound_of_phase (by simp) (by simp) (by simp)
  | subscribeFailed e => exact wound_of_phase (by simp) (by simp) (by simp)
  | observed b hphase hcancelled => exact ⟨fun _ => hcancelled, by simp⟩
  | notified b hphase after update hin =>
    rcases phase_handle s update with hp | ⟨event, hp⟩
    · exact wound_of_phase (by simp [hp]) (by simp [hp]) (by simp [hp])
    · exact wound_of_phase (by simp [hp]) (by simp [hp]) (by simp [hp])
  | missed b hphase next e hout he => exact wound_of_phase (by simp) (by simp) (by simp)
  | sent update event hphase outcome =>
    by_cases hclosed : outcome = .closed
    · subst hclosed
      have hp := phase_sent_closed s update event
      have hc := cancelled_sent s update event .closed
      by_cases hcancelled : s.cancelled = true
      · rw [if_pos hcancelled] at hp
        exact ⟨fun _ => hc.trans hcancelled, by simp [hp]⟩
      · rw [if_neg hcancelled] at hp
        exact wound_of_phase (by simp [hp]) (by simp [hp]) (by simp [hp])
    · have hp := phase_sent (s := s) hclosed update event
      exact wound_of_phase (by simp [hp]) (by simp [hp]) (by simp [hp])
  | unsubscribed hphase => exact ⟨fun _ => hs.winding (Or.inl hphase), by simp⟩
  | stopped hphase =>
    have hcancelled : s.cancelled = true := hs.winding (Or.inr hphase)
    refine ⟨by simp, fun c hc => ?_⟩
    rw [phase_leave, SubscriptionPhase.returned.injEq] at hc
    exact ⟨hc.2.symm.trans hcancelled, hcancelled⟩
  | stopFailed e => exact wound_of_phase (by simp) (by simp) (by simp)

theorem wound_of_run {es : List SubscriptionEvent} {s : Subscription}
    (hrun : Lts.runFrom step init es = some s) : Wound s :=
  Lts.runFrom_invariant wound_step wound_init hrun

/-! ## The ways out -/

/-- **An event that fails** returns an error, which aborts the process. -/
theorem aborted_of_fails {s s' : Subscription} {e : SubscriptionEvent} (hfails : s.Fails e)
    (h : step s e = some s') :
    ∃ error, s'.phase = .returned (.error error) s.cancelled ∧
      websocketSlotEventStream (.error error) = .aborted := by
  cases did_of_step h with
  | connectFailed e => exact ⟨_, rfl, rfl⟩
  | subscribeFailed e => exact ⟨_, rfl, rfl⟩
  | stopFailed e => exact ⟨_, rfl, rfl⟩
  | missed b hphase next e hout he => exact ⟨_, rfl, rfl⟩
  | notified b hphase after update hin => exact absurd ⟨after, update, rfl, hin⟩ hfails
  | sent update event hphase outcome =>
    cases outcome with
    | closed =>
      have hclear : ¬ s.cancelled = true := by
        rw [show s.cancelled = false from hfails]
        simp
      have hp := phase_sent_closed s update event
      rw [if_neg hclear] at hp
      exact ⟨_, hp, rfl⟩
    | sent => exact hfails.elim
    | timeout => exact hfails.elim
  | _ => exact hfails.elim

/-- **The ways out.** A step that returns is the end of the shutdown, or an event that fails. -/
theorem fails_of_returned {s s' : Subscription} {e : SubscriptionEvent}
    (hs : ∀ result c, s.phase ≠ .returned result c) (h : step s e = some s')
    {result : Except AnyhowError Unit} {c : Bool} (hret : s'.phase = .returned result c) :
    (e = .shutdown (.ok ()) ∧ s.phase = .shuttingDown ∧ result = .ok ()) ∨ s.Fails e := by
  cases did_of_step h with
  | cancelled => exact absurd hret (hs result c)
  | connectFailed e => exact Or.inr trivial
  | subscribeFailed e => exact Or.inr trivial
  | stopFailed e => exact Or.inr trivial
  | missed b hphase next e hout he => exact Or.inr hout
  | notified b hphase after update hin =>
    rcases phase_handle s update with hp | ⟨event, hp⟩
    · simp [hp] at hret
    · simp [hp] at hret
  | sent update event hphase outcome =>
    by_cases hclosed : outcome = .closed
    · subst hclosed
      rw [phase_sent_closed] at hret
      split_ifs at hret with hcancelled
      exact Or.inr (Bool.eq_false_iff.mpr hcancelled)
    · simp [phase_sent hclosed] at hret
  | stopped hphase =>
    rw [phase_leave, SubscriptionPhase.returned.injEq] at hret
    exact Or.inl ⟨rfl, hphase, hret.1.symm⟩
  | _ => simp_all

/-- **Fail-fast.** The task ends without aborting the process only after cancellation: the token
was set when the subscription returned. A step that makes the subscription return is the end of a
shutdown that follows a cancellation, or an event that fails; and an event that fails always
returns an error and aborts. A slow consumer, or a notification that maps to no event, leads to
the next wait. -/
theorem fail_fast {es : List SubscriptionEvent} {s : Subscription}
    (hrun : Lts.runFrom step init es = some s) :
    (∀ result c, s.phase = .returned result c → websocketSlotEventStream result = .finished →
      c = true ∧ .cancel ∈ es) ∧
    (∀ e s' result c, (∀ result c, s.phase ≠ .returned result c) → step s e = some s' →
      s'.phase = .returned result c →
        (e = .shutdown (.ok ()) ∧ result = .ok () ∧ .cancel ∈ es) ∨
          (s.Fails e ∧ ∃ error, result = .error error)) ∧
    (∀ e s', s.Fails e → step s e = some s' →
      ∃ error, s'.phase = .returned (.error error) s.cancelled ∧
        websocketSlotEventStream (.error error) = .aborted) ∧
    (∀ s', step s (.send .timeout) = some s' → s'.phase = .waiting s.cancelled) ∧
    (∀ after update s', after ≤ WEBSOCKET_STALL_TIMEOUT →
      mapWebsocketUpdateToSlotEvent update = none →
        step s (.select (.stream (.yields after update))) = some s' →
          s'.phase = .waiting s.cancelled) := by
  have hwound := wound_of_run hrun
  refine ⟨fun result c hret hfinished => ?_, fun e s' result c hs h hret => ?_,
    fun e s' hfails h => aborted_of_fails hfails h, fun s' h => ?_,
    fun after update s' hin hnone h => ?_⟩
  · cases result with
    | ok =>
      obtain ⟨hc, hcancelled⟩ := hwound.finished c hret
      exact ⟨hc, mem_of_cancelled hrun hcancelled⟩
    | error error => cases hfinished
  · rcases fails_of_returned hs h hret with ⟨rfl, hphase, rfl⟩ | hfails
    · exact Or.inl ⟨rfl, rfl, mem_of_cancelled hrun (hwound.winding (Or.inr hphase))⟩
    · obtain ⟨error, hp, -⟩ := aborted_of_fails hfails h
      rw [hp, SubscriptionPhase.returned.injEq] at hret
      exact Or.inr ⟨hfails, error, hret.1.symm⟩
  · cases did_of_step h with
    | sent update event hphase => exact phase_sent (by simp) update event
  · cases did_of_step h with
    | notified b hphase => exact phase_handle_none hnone
    | missed b hphase next e hout => exact absurd ⟨after, update, rfl, hin⟩ hout

/-- A slow consumer, a notification that is not forwarded, and a cancellation at last. -/
def quietRun : List SubscriptionEvent :=
  [.connect (.ok ()), .subscribe (.ok ()), .select (.stream (.yields 5 (.Completed 7))),
    .send .timeout, .select (.stream (.yields 5 .other)), .cancel, .select .cancelled,
    .unsubscribe, .shutdown (.ok ())]

theorem fail_fast_quietRun :
    ∃ s, Lts.runFrom step init quietRun = some s ∧ s.phase = .returned (.ok ()) true ∧
      .cancel ∈ quietRun := by
  have hmap : (Lts.runFrom step init quietRun).map phase = some (.returned (.ok ()) true) := by
    decide
  obtain ⟨s, hrun, hs⟩ := Option.map_eq_some_iff.mp hmap
  exact ⟨s, hrun, hs, ((fail_fast hrun).1 _ _ hs rfl).2⟩

end Subscription

end Iris
