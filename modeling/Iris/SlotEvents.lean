import Iris.FailFast

/-!
# The slot events that reach the leader cache

What the channel of slot events has received, and when the subscription reports a stall, as
functions of the events of a run alone.

* `imageOf`, `outcomeOf`, `images`, `outcomes`: the notifications to forward, and how the sends
  ended; `delivered`: the ones whose own send went through;
* `Forwards`, **`forwards_of_step`**: what a step adds to these;
* `Forwarded`: the invariant, every image but the one being sent has met its outcome;
* `Stalls`, `reportsStall_step`: the waits that stall, and the steps that report one;
* **`slot_events_faithful`**: both, over all runs.
-/

namespace Iris

namespace Subscription

/-- The slot event of a notification that comes in time and is to be forwarded. -/
def imageOf : SubscriptionEvent → Option SlotEvent
  | .select (.stream (.yields after update)) =>
    if after ≤ WEBSOCKET_STALL_TIMEOUT then mapWebsocketUpdateToSlotEvent update else none
  | _ => none

/-- The end of a send. -/
def outcomeOf : SubscriptionEvent → Option SendTimeout
  | .send outcome => some outcome
  | _ => none

/-- The images of the notifications received, in order. -/
def images (es : List SubscriptionEvent) : List SlotEvent := es.filterMap imageOf

/-- The outcomes of the sends, in order. -/
def outcomes (es : List SubscriptionEvent) : List SendTimeout := es.filterMap outcomeOf

/-- The slot events whose own send did not time out or find the channel closed. -/
def delivered (events : List SlotEvent) (sends : List SendTimeout) : List SlotEvent :=
  (events.zip sends).filterMap fun (event, outcome) => if outcome = .sent then some event else none

/-- The slot event being sent. -/
def inTransit (s : Subscription) : List SlotEvent :=
  match s.phase with
  | .sending _ event => [event]
  | _ => []

theorem inTransit_of_phase {s : Subscription} (h : ∀ update event, s.phase ≠ .sending update event) :
    s.inTransit = [] := by
  unfold inTransit
  split
  · rename_i update event hphase
    exact absurd hphase (h update event)
  · rfl

theorem inTransit_sending {s : Subscription} {update : SlotUpdate} {event : SlotEvent}
    (h : s.phase = .sending update event) : s.inTransit = [event] := by
  unfold inTransit
  rw [h]

theorem slotEvents_handle (s : Subscription) (update : SlotUpdate) :
    (s.handle update).slotEvents = s.slotEvents := by
  unfold handle
  split <;> rfl

theorem inTransit_handle (s : Subscription) (update : SlotUpdate) :
    (s.handle update).inTransit = (mapWebsocketUpdateToSlotEvent update).toList := by
  unfold handle
  cases mapWebsocketUpdateToSlotEvent update with
  | none => rfl
  | some event => rfl

theorem slotEvents_sent (s : Subscription) (update : SlotUpdate) (event : SlotEvent)
    (outcome : SendTimeout) : (s.sent update event outcome).slotEvents =
      s.slotEvents ++ if outcome = .sent then [event] else [] := by
  cases outcome with
  | sent => rfl
  | timeout => exact (List.append_nil _).symm
  | closed => cases hcancelled : s.cancelled <;> simp [sent, leave, hcancelled]

theorem inTransit_sent (s : Subscription) (update : SlotUpdate) (event : SlotEvent)
    (outcome : SendTimeout) : (s.sent update event outcome).inTransit = [] := by
  apply inTransit_of_phase
  intro update' event'
  by_cases hclosed : outcome = .closed
  · subst hclosed
    rw [phase_sent_closed]
    split_ifs <;> simp
  · simp [phase_sent hclosed]

/-! ## Forwarding -/

/-- What a step does to the images, the outcomes and the channel: it takes up an image, or ends
the send of the one in transit, or does neither. -/
inductive Forwards (s : Subscription) (e : SubscriptionEvent) (s' : Subscription) : Prop
  | takes (event : SlotEvent) (himage : imageOf e = some event) (houtcome : outcomeOf e = none)
      (hbefore : s.inTransit = []) (hafter : s'.inTransit = [event])
      (hsent : s'.slotEvents = s.slotEvents)
  | ends (event : SlotEvent) (outcome : SendTimeout) (himage : imageOf e = none)
      (houtcome : outcomeOf e = some outcome) (hbefore : s.inTransit = [event])
      (hafter : s'.inTransit = [])
      (hsent : s'.slotEvents = s.slotEvents ++ if outcome = .sent then [event] else [])
  | neither (himage : imageOf e = none) (houtcome : outcomeOf e = none)
      (htransit : s'.inTransit = s.inTransit) (hsent : s'.slotEvents = s.slotEvents)

/-- A step between two phases in which nothing is sent. -/
theorem forwards_idle {s s' : Subscription} {e : SubscriptionEvent} (himage : imageOf e = none)
    (houtcome : outcomeOf e = none) (h : ∀ update event, s.phase ≠ .sending update event)
    (h' : ∀ update event, s'.phase ≠ .sending update event)
    (hsent : s'.slotEvents = s.slotEvents) : Forwards s e s' :=
  .neither himage houtcome ((inTransit_of_phase h').trans (inTransit_of_phase h).symm) hsent

/-- A stream that gives no notification in time gives no image. -/
theorem imageOf_of_not_delivers {next : StreamNext SlotUpdate} (h : ¬ Delivers next) :
    imageOf (.select (.stream next)) = none := by
  cases next with
  | yields after update => exact if_neg fun hin => h ⟨after, update, rfl, hin⟩
  | ends after => rfl
  | silent => rfl

/-- **Every step does one of these.** -/
theorem forwards_of_step {s s' : Subscription} {e : SubscriptionEvent} (h : step s e = some s') :
    Forwards s e s' := by
  cases did_of_step h with
  | cancelled => exact .neither rfl rfl rfl rfl
  | connected hphase => exact forwards_idle rfl rfl (by simp [hphase]) (by simp) rfl
  | connectFailed e hphase => exact forwards_idle rfl rfl (by simp [hphase]) (by simp) rfl
  | subscribed hphase => exact forwards_idle rfl rfl (by simp [hphase]) (by simp) rfl
  | subscribeFailed e hphase => exact forwards_idle rfl rfl (by simp [hphase]) (by simp) rfl
  | observed b hphase => exact forwards_idle rfl rfl (by simp [hphase]) (by simp) rfl
  | notified b hphase after update hin =>
    have himage : imageOf (.select (.stream (.yields after update))) =
        mapWebsocketUpdateToSlotEvent update := if_pos hin
    have hbefore : s.inTransit = [] := inTransit_of_phase (by simp [hphase])
    have hafter := inTransit_handle s update
    cases hmap : mapWebsocketUpdateToSlotEvent update with
    | none =>
      rw [hmap] at himage hafter
      exact .neither himage rfl (hafter.trans hbefore.symm) (slotEvents_handle s update)
    | some event =>
      rw [hmap] at himage hafter
      exact .takes event himage rfl hbefore hafter (slotEvents_handle s update)
  | missed b hphase next e hout he =>
    exact forwards_idle (imageOf_of_not_delivers hout) rfl (by simp [hphase]) (by simp) rfl
  | sent update event hphase outcome =>
    exact .ends event outcome rfl rfl (inTransit_sending hphase)
      (inTransit_sent s update event outcome) (slotEvents_sent s update event outcome)
  | unsubscribed hphase => exact forwards_idle rfl rfl (by simp [hphase]) (by simp) rfl
  | stopped hphase => exact forwards_idle rfl rfl (by simp [hphase]) (by simp) rfl
  | stopFailed e hphase => exact forwards_idle rfl rfl (by simp [hphase]) (by simp) rfl

theorem images_concat (es : List SubscriptionEvent) (e : SubscriptionEvent) :
    images (es ++ [e]) = images es ++ (imageOf e).toList := by
  rw [images, List.filterMap_append]
  cases h : imageOf e <;> simp [images, h]

theorem outcomes_concat (es : List SubscriptionEvent) (e : SubscriptionEvent) :
    outcomes (es ++ [e]) = outcomes es ++ (outcomeOf e).toList := by
  rw [outcomes, List.filterMap_append]
  cases h : outcomeOf e <;> simp [outcomes, h]

/-- One more send. -/
theorem delivered_concat {events : List SlotEvent} {sends : List SendTimeout}
    (h : events.length = sends.length) (event : SlotEvent) (outcome : SendTimeout) :
    delivered (events ++ [event]) (sends ++ [outcome]) =
      delivered events sends ++ if outcome = .sent then [event] else [] := by
  rw [delivered, List.zip_append h, List.filterMap_append]
  by_cases hsent : outcome = .sent <;> simp [delivered, hsent]

theorem delivered_sublist (events : List SlotEvent) (sends : List SendTimeout) :
    (delivered events sends).Sublist events := by
  induction events generalizing sends with
  | nil => exact List.Sublist.refl _
  | cons event events ih =>
    cases sends with
    | nil => exact List.nil_sublist _
    | cons outcome sends =>
      unfold delivered at ih ⊢
      by_cases hsent : outcome = .sent
      · simpa [hsent] using ih sends
      · simpa [hsent] using (ih sends).trans (List.sublist_cons_self event events)

/-- The images are those whose send has ended, followed by the one in transit; the channel has
received the former as far as their sends went through. -/
def Forwarded (es : List SubscriptionEvent) (s : Subscription) : Prop :=
  ∃ ended, images es = ended ++ s.inTransit ∧ ended.length = (outcomes es).length ∧
    s.slotEvents = delivered ended (outcomes es)

theorem forwarded_step (es : List SubscriptionEvent) (s : Subscription) (e : SubscriptionEvent)
    (s' : Subscription) (hs : Forwarded es s) (h : step s e = some s') :
    Forwarded (es ++ [e]) s' := by
  obtain ⟨ended, himages, hlength, hslots⟩ := hs
  unfold Forwarded
  rw [images_concat, outcomes_concat]
  cases forwards_of_step h with
  | takes event himage houtcome hbefore hafter hsent =>
    refine ⟨ended, ?_, ?_, ?_⟩
    · rw [himages, hbefore, hafter, himage, List.append_nil]
      rfl
    · rw [houtcome, hlength]
      simp
    · rw [hsent, houtcome, hslots]
      simp
  | ends event outcome himage houtcome hbefore hafter hsent =>
    refine ⟨ended ++ [event], ?_, ?_, ?_⟩
    · rw [himages, hbefore, hafter, himage]
      rfl
    · rw [houtcome, List.length_append, List.length_append, hlength]
      rfl
    · rw [hsent, houtcome, hslots]
      exact (delivered_concat hlength event outcome).symm
  | neither himage houtcome htransit hsent =>
    refine ⟨ended, ?_, ?_, ?_⟩
    · rw [himages, himage, htransit]
      simp
    · rw [houtcome, hlength]
      simp
    · rw [hsent, houtcome, hslots]
      simp

/-! ## Stalls -/

/-- The wait lasts the whole stall timeout: no notification, and no end, within it. -/
def Stalls : StreamNext SlotUpdate → Prop
  | .yields after _ | .ends after => WEBSOCKET_STALL_TIMEOUT < after
  | .silent => True

/-- The event is a wait that stalls. -/
def IsStall (e : SubscriptionEvent) : Prop := ∃ next, e = .select (.stream next) ∧ Stalls next

/-- The error that reports a stall. -/
def stalledError : AnyhowError := [(NotificationError.Stalled WEBSOCKET_STALL_TIMEOUT).toText]

/-- The subscription has returned the error of a stall. -/
def ReportsStall (s : Subscription) : Prop := ∃ c, s.phase = .returned (.error stalledError) c

theorem reportsStall_leave {s : Subscription} {error : AnyhowError} :
    (s.leave (.error error)).ReportsStall ↔ error = stalledError := by
  simp [ReportsStall]

theorem not_reportsStall_of_phase {s : Subscription}
    (h : ∀ error c, s.phase ≠ .returned (.error error) c) : ¬ s.ReportsStall := by
  rintro ⟨c, hc⟩
  exact h _ _ hc

/-- The errors of the requests are told from a stall by their first message. -/
theorem cons_ne_stalledError {message : String} (error : AnyhowError)
    (h : message ≠ (NotificationError.Stalled WEBSOCKET_STALL_TIMEOUT).toText) :
    message :: error ≠ stalledError := by
  intro heq
  exact h (List.cons.inj heq).1

/-- **A wait without a notification** stalls, or finds the end of the stream. -/
theorem toText_eq_iff {next : StreamNext SlotUpdate} {error : NotificationError}
    (hout : ¬ Delivers next)
    (he : nextNotification WEBSOCKET_STALL_TIMEOUT (.stream next) = .error error) :
    [error.toText] = stalledError ↔ Stalls next := by
  have hclosed : [NotificationError.Closed.toText] ≠ stalledError := by decide
  cases next with
  | yields after update =>
    have hlate : ¬ after ≤ WEBSOCKET_STALL_TIMEOUT := fun hin => hout ⟨after, update, rfl, hin⟩
    simp only [nextNotification, timeout, if_neg hlate, Except.error.injEq] at he
    subst he
    exact iff_of_true rfl (Nat.not_le.mp hlate)
  | ends after =>
    by_cases hin : after ≤ WEBSOCKET_STALL_TIMEOUT
    · simp only [nextNotification, timeout, if_pos hin, Except.error.injEq] at he
      subst he
      exact iff_of_false hclosed (Nat.not_lt.mpr hin)
    · simp only [nextNotification, timeout, if_neg hin, Except.error.injEq] at he
      subst he
      exact iff_of_true rfl (Nat.not_le.mp hin)
  | silent =>
    simp only [nextNotification, timeout, Except.error.injEq] at he
    subst he
    exact iff_of_true rfl trivial

/-- **Which steps report a stall**: the waits that stall, and those after a report. -/
theorem reportsStall_step {s s' : Subscription} {e : SubscriptionEvent} (h : step s e = some s') :
    s'.ReportsStall ↔ s.ReportsStall ∨ IsStall e := by
  have hidle : ∀ {t : Subscription}, (∀ error c, s.phase ≠ .returned (.error error) c) →
      ¬ IsStall e → (¬ t.ReportsStall) → (t.ReportsStall ↔ s.ReportsStall ∨ IsStall e) :=
    fun hs he ht => iff_of_false ht (not_or.mpr ⟨not_reportsStall_of_phase hs, he⟩)
  cases did_of_step h with
  | cancelled => exact (or_iff_left (by simp [IsStall])).symm
  | connected hphase =>
    exact hidle (by simp [hphase]) (by simp [IsStall]) (not_reportsStall_of_phase (by simp))
  | connectFailed e hphase =>
    refine hidle (by simp [hphase]) (by simp [IsStall]) ?_
    rw [reportsStall_leave]
    exact cons_ne_stalledError e (by decide)
  | subscribed hphase =>
    exact hidle (by simp [hphase]) (by simp [IsStall]) (not_reportsStall_of_phase (by simp))
  | subscribeFailed e hphase =>
    refine hidle (by simp [hphase]) (by simp [IsStall]) ?_
    rw [reportsStall_leave]
    exact cons_ne_stalledError e (by decide)
  | observed b hphase =>
    exact hidle (by simp [hphase]) (by simp [IsStall]) (not_reportsStall_of_phase (by simp))
  | notified b hphase after update hin =>
    have hnot : ¬ IsStall (.select (.stream (.yields after update))) := by
      rintro ⟨next, heq, hstalls⟩
      cases heq
      exact absurd hin (Nat.not_le.mpr hstalls)
    refine hidle (by simp [hphase]) hnot (not_reportsStall_of_phase ?_)
    rcases phase_handle s update with hp | ⟨event, hp⟩ <;> simp [hp]
  | missed b hphase next e hout he =>
    have hs : ¬ s.ReportsStall := not_reportsStall_of_phase (by simp [hphase])
    have hstall : IsStall (.select (.stream next)) ↔ Stalls next := by simp [IsStall]
    rw [reportsStall_leave, toText_eq_iff hout he, hstall]
    exact (or_iff_right hs).symm
  | sent update event hphase outcome =>
    refine hidle (by simp [hphase]) (by simp [IsStall]) ?_
    rintro ⟨c, hc⟩
    by_cases hclosed : outcome = .closed
    · subst hclosed
      rw [phase_sent_closed] at hc
      split_ifs at hc
      rw [SubscriptionPhase.returned.injEq, Except.error.injEq] at hc
      exact cons_ne_stalledError [] (by decide) hc.1
    · simp [phase_sent hclosed] at hc
  | unsubscribed hphase =>
    exact hidle (by simp [hphase]) (by simp [IsStall]) (not_reportsStall_of_phase (by simp))
  | stopped hphase =>
    exact hidle (by simp [hphase]) (by simp [IsStall]) (not_reportsStall_of_phase (by simp))
  | stopFailed e hphase =>
    refine hidle (by simp [hphase]) (by simp [IsStall]) ?_
    rw [reportsStall_leave]
    exact cons_ne_stalledError e (by decide)

end Subscription

end Iris
