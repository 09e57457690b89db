import Iris.Basic
import Iris.Lib.Run

/-!
# The websocket subscription

A task reads slot updates from a websocket and forwards some of them to the leader cache. It
watches the stream for stalls, and aborts the process when the subscription fails.

* `mapWebsocketUpdateToSlotEvent`, `nextNotification`: the code without its loop;
* `Subscription`, `SubscriptionEvent`, `step`: `run_websocket_subscription`, one await at a time;
* `websocketSlotEventStream`: what the task does with the result;
* `Did`, **`did_of_step`**: all that a step can do;
* `FailedAfterCancel`, `HarmlessOnceCancelled`: what cancellation should rule out, and the steps
  that do not bring it about;
* **`cancelled_run_iff`**: a run does not fail after cancellation exactly when all its steps are
  such; `stream_end_after_cancel`: a run that does.
-/

namespace Iris

/-- A `SlotUpdate`; the kinds that are not forwarded are not told apart. -/
inductive SlotUpdate
  | FirstShredReceived (slot : UInt64)
  | Completed (slot : UInt64)
  | other
deriving DecidableEq, Repr

inductive SlotEvent
  | Start (slot : UInt64)
  | End (slot : UInt64)
deriving DecidableEq, Repr

def mapWebsocketUpdateToSlotEvent : SlotUpdate → Option SlotEvent
  | .FirstShredReceived slot => some (.Start slot)
  | .Completed slot => some (.End slot)
  | .other => none

/-- `WEBSOCKET_STALL_TIMEOUT`, in milliseconds. -/
def WEBSOCKET_STALL_TIMEOUT : ℕ := 30000

inductive NotificationError
  | Closed
  | Stalled (stallTimeout : ℕ)
deriving DecidableEq, Repr

/-- The text of the error; a whole number of seconds is printed as such. -/
def NotificationError.toText : NotificationError → String
  | .Closed => "slot-update websocket subscription ended"
  | .Stalled stallTimeout =>
    let seconds := stallTimeout / 1000
    s!"slot-update websocket received no events for {seconds}s"

/-- What a stream does after the start of a wait: a notification or the end after some
milliseconds, or nothing. -/
inductive StreamNext (α : Type)
  | yields (after : ℕ) (notification : α)
  | ends (after : ℕ)
  | silent
deriving DecidableEq, Repr

/-- `tokio::time::timeout` of `notifications.next()`; `none` when the time is up. -/
def timeout {α : Type} (limit : ℕ) : StreamNext α → Option (Option α)
  | .yields after notification => if after ≤ limit then some (some notification) else none
  | .ends after => if after ≤ limit then some none else none
  | .silent => none

/-- The stream is ready at the start of the wait. -/
def StreamNext.isReady {α : Type} : StreamNext α → Bool
  | .yields after _ | .ends after => after == 0
  | .silent => false

/-- The branch that `tokio::select!` takes. -/
inductive Branch (α : Type)
  | cancelled
  | stream (next : StreamNext α)
deriving DecidableEq, Repr

/-- `next_notification`. -/
def nextNotification {α : Type} (stallTimeout : ℕ) :
    Branch α → Except NotificationError (Option α)
  | .cancelled => .ok none
  | .stream next =>
    match timeout stallTimeout next with
    | some (some notification) => .ok (some notification)
    | some none => .error .Closed
    | none => .error (.Stalled stallTimeout)

/-- The outcomes of `send_timeout`. -/
inductive SendTimeout
  | sent
  | closed
  | timeout
deriving DecidableEq, Repr

/-- Where the task waits, or how it has returned. A wait for a notification remembers whether the
token was set when it began, and a return whether it was set by then. -/
inductive SubscriptionPhase
  | connecting
  | subscribing
  | waiting (cancelledBefore : Bool)
  | sending (update : SlotUpdate) (event : SlotEvent)
  | unsubscribing
  | shuttingDown
  | returned (result : Except AnyhowError Unit) (cancelled : Bool)
deriving DecidableEq

/-- The task, the token, the channel of slot events, and a record of the notifications, each with
the outcome of its own send. -/
structure Subscription where
  phase : SubscriptionPhase
  cancelled : Bool
  slotEvents : List SlotEvent
  received : List (SlotUpdate × Option SendTimeout)
deriving DecidableEq

/-- What can happen next. -/
inductive SubscriptionEvent
  | cancel
  | connect (result : Except AnyhowError Unit)
  | subscribe (result : Except AnyhowError Unit)
  | select (branch : Branch SlotUpdate)
  | send (outcome : SendTimeout)
  | unsubscribe
  | shutdown (result : Except AnyhowError Unit)

/-- How the task of the subscription can end. -/
inductive TaskEnd
  | finished
  | aborted
deriving DecidableEq, Repr

/-- `websocket_slot_event_stream`: the task aborts the process when the subscription returns an
error. -/
def websocketSlotEventStream : Except AnyhowError Unit → TaskEnd
  | .ok () => .finished
  | .error _ => .aborted

namespace Subscription

def init : Subscription := ⟨.connecting, false, [], []⟩

/-- The end of the task. -/
def leave (s : Subscription) (result : Except AnyhowError Unit) : Subscription :=
  { s with phase := .returned result s.cancelled }

/-- The loop begins a wait. -/
def await (s : Subscription) : Subscription := { s with phase := .waiting s.cancelled }

/-- A branch that is ready can be taken. When the token was set before the wait began, the stream
is looked at once only. -/
def isEnabled (s : Subscription) (cancelledBefore : Bool) : Branch SlotUpdate → Bool
  | .cancelled => s.cancelled
  | .stream next => !cancelledBefore || next.isReady

/-- What the loop does with a notification. -/
def handle (s : Subscription) (update : SlotUpdate) : Subscription :=
  match mapWebsocketUpdateToSlotEvent update with
  | none => { s with received := s.received ++ [(update, none)] }.await
  | some event => { s with phase := .sending update event }

/-- What the loop does when its send has ended. -/
def sent (s : Subscription) (update : SlotUpdate) (event : SlotEvent) (outcome : SendTimeout) :
    Subscription :=
  let s := { s with received := s.received ++ [(update, some outcome)] }
  match outcome with
  | .sent => { s with slotEvents := s.slotEvents ++ [event] }.await
  | .closed =>
    if s.cancelled then { s with phase := .unsubscribing }
    else s.leave (.error ["slot-event consumer unexpectedly stopped"])
  | .timeout => s.await

/-- One step of `run_websocket_subscription`. -/
def step (s : Subscription) : SubscriptionEvent → Option Subscription
  | .cancel => some { s with cancelled := true }
  | .connect result =>
    match s.phase, result with
    | .connecting, .ok () => some { s with phase := .subscribing }
    | .connecting, .error e =>
      some (s.leave (.error ("cannot connect to slot-update websocket" :: e)))
    | _, _ => none
  | .subscribe result =>
    match s.phase, result with
    | .subscribing, .ok () => some s.await
    | .subscribing, .error e => some (s.leave (.error ("cannot subscribe to slot updates" :: e)))
    | _, _ => none
  | .select branch =>
    match s.phase with
    | .waiting cancelledBefore =>
      if s.isEnabled cancelledBefore branch then
        match nextNotification WEBSOCKET_STALL_TIMEOUT branch with
        | .ok none => some { s with phase := .unsubscribing }
        | .ok (some update) => some (s.handle update)
        | .error e => some (s.leave (.error [e.toText]))
      else none
    | _ => none
  | .send outcome =>
    match s.phase with
    | .sending update event => some (s.sent update event outcome)
    | _ => none
  | .unsubscribe =>
    match s.phase with
    | .unsubscribing => some { s with phase := .shuttingDown }
    | _ => none
  | .shutdown result =>
    match s.phase, result with
    | .shuttingDown, .ok () => some (s.leave (.ok ()))
    | .shuttingDown, .error e =>
      some (s.leave (.error ("cannot shut down slot-update websocket" :: e)))
    | _, _ => none

/-- The stream gives a notification in time. -/
def Delivers (next : StreamNext SlotUpdate) : Prop :=
  ∃ after update, next = .yields after update ∧ after ≤ WEBSOCKET_STALL_TIMEOUT

theorem nextNotification_yields {after : ℕ} (update : SlotUpdate)
    (h : after ≤ WEBSOCKET_STALL_TIMEOUT) :
    nextNotification WEBSOCKET_STALL_TIMEOUT (.stream (.yields after update)) =
      .ok (some update) := by
  simp [nextNotification, timeout, h]

/-- A stream that gives no notification in time is an error. -/
theorem nextNotification_of_not_delivers {next : StreamNext SlotUpdate} (h : ¬ Delivers next) :
    ∃ e, nextNotification WEBSOCKET_STALL_TIMEOUT (.stream next) = .error e := by
  cases next with
  | yields after update =>
    have hlate : ¬ after ≤ WEBSOCKET_STALL_TIMEOUT := fun hin => h ⟨after, update, rfl, hin⟩
    exact ⟨.Stalled WEBSOCKET_STALL_TIMEOUT, by simp [nextNotification, timeout, hlate]⟩
  | ends after =>
    by_cases hin : after ≤ WEBSOCKET_STALL_TIMEOUT
    · exact ⟨.Closed, by simp [nextNotification, timeout, hin]⟩
    · exact ⟨.Stalled WEBSOCKET_STALL_TIMEOUT, by simp [nextNotification, timeout, hin]⟩
  | silent => exact ⟨.Stalled WEBSOCKET_STALL_TIMEOUT, rfl⟩

/-- What a step can do. -/
inductive Did (s : Subscription) : SubscriptionEvent → Subscription → Prop
  | cancelled : Did s .cancel { s with cancelled := true }
  | connected (hphase : s.phase = .connecting) :
      Did s (.connect (.ok ())) { s with phase := .subscribing }
  | connectFailed (e : AnyhowError) (hphase : s.phase = .connecting) :
      Did s (.connect (.error e))
        (s.leave (.error ("cannot connect to slot-update websocket" :: e)))
  | subscribed (hphase : s.phase = .subscribing) : Did s (.subscribe (.ok ())) s.await
  | subscribeFailed (e : AnyhowError) (hphase : s.phase = .subscribing) :
      Did s (.subscribe (.error e)) (s.leave (.error ("cannot subscribe to slot updates" :: e)))
  | observed (b : Bool) (hphase : s.phase = .waiting b) (hcancelled : s.cancelled = true) :
      Did s (.select .cancelled) { s with phase := .unsubscribing }
  | notified (b : Bool) (hphase : s.phase = .waiting b) (after : ℕ) (update : SlotUpdate)
      (hin : after ≤ WEBSOCKET_STALL_TIMEOUT) :
      Did s (.select (.stream (.yields after update))) (s.handle update)
  | missed (b : Bool) (hphase : s.phase = .waiting b) (next : StreamNext SlotUpdate)
      (e : NotificationError) (hout : ¬ Delivers next)
      (he : nextNotification WEBSOCKET_STALL_TIMEOUT (.stream next) = .error e) :
      Did s (.select (.stream next)) (s.leave (.error [e.toText]))
  | sent (update : SlotUpdate) (event : SlotEvent) (hphase : s.phase = .sending update event)
      (outcome : SendTimeout) : Did s (.send outcome) (s.sent update event outcome)
  | unsubscribed (hphase : s.phase = .unsubscribing) :
      Did s .unsubscribe { s with phase := .shuttingDown }
  | stopped (hphase : s.phase = .shuttingDown) : Did s (.shutdown (.ok ())) (s.leave (.ok ()))
  | stopFailed (e : AnyhowError) (hphase : s.phase = .shuttingDown) :
      Did s (.shutdown (.error e))
        (s.leave (.error ("cannot shut down slot-update websocket" :: e)))

theorem did_of_select {s s' : Subscription} {branch : Branch SlotUpdate} {b : Bool}
    (hphase : s.phase = .waiting b) (h : step s (.select branch) = some s') :
    Did s (.select branch) s' := by
  simp only [step, hphase] at h
  split_ifs at h with henabled
  cases branch with
  | cancelled =>
    cases h
    exact .observed b hphase henabled
  | stream next =>
    by_cases hin : Delivers next
    · obtain ⟨after, update, rfl, hin⟩ := hin
      rw [nextNotification_yields update hin] at h
      cases h
      exact .notified b hphase after update hin
    · obtain ⟨e, he⟩ := nextNotification_of_not_delivers hin
      rw [he] at h
      cases h
      exact .missed b hphase next e hin he

/-- **Every step does one of these.** -/
theorem did_of_step {s s' : Subscription} {e : SubscriptionEvent} (h : step s e = some s') :
    Did s e s' := by
  cases e with
  | cancel => cases h; exact .cancelled
  | connect result =>
    simp only [step] at h
    split at h
    · cases h; exact .connected ‹_›
    · cases h; exact .connectFailed _ ‹_›
    · cases h
  | subscribe result =>
    simp only [step] at h
    split at h
    · cases h; exact .subscribed ‹_›
    · cases h; exact .subscribeFailed _ ‹_›
    · cases h
  | select branch =>
    cases hphase : s.phase with
    | waiting b => exact did_of_select hphase h
    | _ => simp [step, hphase] at h
  | send outcome =>
    simp only [step] at h
    split at h
    · cases h; exact .sent _ _ ‹_› outcome
    · cases h
  | unsubscribe =>
    simp only [step] at h
    split at h
    · cases h; exact .unsubscribed ‹_›
    · cases h
  | shutdown result =>
    simp only [step] at h
    split at h
    · cases h; exact .stopped ‹_›
    · cases h; exact .stopFailed _ ‹_›
    · cases h

/-- After its return the task does nothing. -/
theorem phase_of_returned {s s' : Subscription} {e : SubscriptionEvent}
    {result : Except AnyhowError Unit} {c : Bool} (hs : s.phase = .returned result c)
    (h : step s e = some s') : s'.phase = .returned result c := by
  cases did_of_step h with
  | cancelled => exact hs
  | _ => simp_all

/-! ## Cancellation -/

/-- The subscription returned after cancellation, and with an error, so that the process was
aborted. -/
def FailedAfterCancel (s : Subscription) : Prop :=
  ∃ result, s.phase = .returned result true ∧ websocketSlotEventStream result = .aborted

/-- If the token is set, the event is not the failure of a request, nor a stream that is looked
at and has ended or stalled. -/
def HarmlessOnceCancelled (s : Subscription) : SubscriptionEvent → Prop
  | .connect result | .subscribe result | .shutdown result => s.cancelled = true → result = .ok ()
  | .select (.stream next) => s.cancelled = true → Delivers next
  | _ => True

theorem failed_leave {s : Subscription} {result : Except AnyhowError Unit} :
    (s.leave result).FailedAfterCancel ↔
      s.cancelled = true ∧ websocketSlotEventStream result = .aborted := by
  unfold FailedAfterCancel leave
  simp only [SubscriptionPhase.returned.injEq]
  constructor
  · rintro ⟨_, ⟨rfl, hcancelled⟩, haborted⟩
    exact ⟨hcancelled, haborted⟩
  · rintro ⟨hcancelled, haborted⟩
    exact ⟨result, ⟨rfl, hcancelled⟩, haborted⟩

theorem failed_leave_error {s : Subscription} {e : AnyhowError} :
    (s.leave (.error e)).FailedAfterCancel ↔ s.cancelled = true := by
  rw [failed_leave]
  exact and_iff_left rfl

theorem not_failed_leave_ok (s : Subscription) : ¬ (s.leave (.ok ())).FailedAfterCancel := by
  rw [failed_leave]
  rintro ⟨-, haborted⟩
  cases haborted

/-- A task that is not returned has not failed. -/
theorem not_failed_of_phase {s : Subscription} (h : ∀ result c, s.phase ≠ .returned result c) :
    ¬ s.FailedAfterCancel := by
  rintro ⟨result, hresult, -⟩
  exact h _ _ hresult

theorem not_failed_handle (s : Subscription) (update : SlotUpdate) :
    ¬ (s.handle update).FailedAfterCancel := by
  apply not_failed_of_phase
  unfold handle
  split <;> simp [await]

/-- A closed channel is no failure once the token is set. -/
theorem not_failed_sent (s : Subscription) (update : SlotUpdate) (event : SlotEvent)
    (outcome : SendTimeout) : ¬ (s.sent update event outcome).FailedAfterCancel := by
  cases outcome with
  | sent => exact not_failed_of_phase (by simp [sent, await])
  | timeout => exact not_failed_of_phase (by simp [sent, await])
  | closed =>
    simp only [sent]
    split_ifs with hc
    · exact not_failed_of_phase (by simp)
    · rw [failed_leave_error]
      exact hc

/-- Leaving with an error is a failure after cancellation unless the event is excused before it. -/
theorem failed_leave_iff {s : Subscription} {e : AnyhowError} {P : Prop} (hP : ¬ P) :
    (s.leave (.error e)).FailedAfterCancel ↔ ¬ (s.cancelled = true → P) := by
  rw [failed_leave_error]
  simp [hP]

/-- **Which steps fail.** A step from a state that has not failed brings about a failure after
cancellation exactly if it is not harmless. -/
theorem failed_step_iff {s s' : Subscription} {e : SubscriptionEvent}
    (hs : ¬ s.FailedAfterCancel) (h : step s e = some s') :
    s'.FailedAfterCancel ↔ ¬ s.HarmlessOnceCancelled e := by
  cases did_of_step h with
  | cancelled => exact iff_of_false hs fun hnot => hnot trivial
  | connected => exact iff_of_false (not_failed_of_phase (by simp)) fun hnot => hnot fun _ => rfl
  | connectFailed e => exact failed_leave_iff (by simp)
  | subscribed =>
    exact iff_of_false (not_failed_of_phase (by simp [await])) fun hnot => hnot fun _ => rfl
  | subscribeFailed e => exact failed_leave_iff (by simp)
  | observed => exact iff_of_false (not_failed_of_phase (by simp)) fun hnot => hnot trivial
  | notified b hphase after update hin =>
    exact iff_of_false (not_failed_handle s update) fun hnot => hnot fun _ => ⟨after, update, rfl, hin⟩
  | missed b hphase next e hout he => exact failed_leave_iff hout
  | sent update event hphase outcome =>
    exact iff_of_false (not_failed_sent s update event outcome) fun hnot => hnot trivial
  | unsubscribed => exact iff_of_false (not_failed_of_phase (by simp)) fun hnot => hnot trivial
  | stopped => exact iff_of_false (not_failed_leave_ok s) fun hnot => hnot fun _ => rfl
  | stopFailed e => exact failed_leave_iff (by simp)

/-- **Cancellation and failure.** A run does not fail after cancellation exactly when, once the
token is set, connecting, subscribing and shutting down succeed and the stream, whenever the
`select!` looks at it, gives a notification in time. -/
theorem cancelled_run_iff {es : List SubscriptionEvent} {s : Subscription}
    (hrun : Lts.runFrom step init es = some s) :
    ¬ s.FailedAfterCancel ↔ Lts.AllSteps step HarmlessOnceCancelled init es := by
  have hinit : ¬ init.FailedAfterCancel := not_failed_of_phase (by simp [init])
  have hstay : ∀ s e s', True → ¬ ¬ s.FailedAfterCancel → step s e = some s' →
      ¬ ¬ s'.FailedAfterCancel := by
    intro s e s' _ hs h
    rw [not_not] at hs ⊢
    obtain ⟨result, hresult, haborted⟩ := hs
    exact ⟨result, phase_of_returned hresult h, haborted⟩
  have hgood : ∀ s e s', True → ¬ s.FailedAfterCancel → s.HarmlessOnceCancelled e →
      step s e = some s' → ¬ s'.FailedAfterCancel := by
    intro s e s' _ hs hharmless h
    rw [failed_step_iff hs h]
    exact fun hnot => hnot hharmless
  have hbad : ∀ s e s', True → ¬ s.HarmlessOnceCancelled e → step s e = some s' →
      ¬ ¬ s'.FailedAfterCancel := by
    intro s e s' _ hnot h
    by_cases hs : s.FailedAfterCancel
    · exact hstay s e s' trivial (not_not_intro hs) h
    · exact not_not_intro ((failed_step_iff hs h).mpr hnot)
  exact Lts.good_iff_allSteps (fun _ _ _ _ _ => trivial) hgood hbad hstay trivial hinit hrun

/-- The token is set while the task waits, and then the stream ends. -/
def streamEndRun : List SubscriptionEvent :=
  [.connect (.ok ()), .subscribe (.ok ()), .cancel, .select (.stream (.ends 1))]

theorem cancelled_run_iff_streamEndRun :
    ∃ s, Lts.runFrom step init streamEndRun = some s ∧
      (¬ s.FailedAfterCancel ↔ Lts.AllSteps step HarmlessOnceCancelled init streamEndRun) := by
  have hsome : (Lts.runFrom step init streamEndRun).isSome = true := by decide
  obtain ⟨s, hrun⟩ := Option.isSome_iff_exists.mp hsome
  exact ⟨s, hrun, cancelled_run_iff hrun⟩

/-- **A failure after cancellation.** -/
theorem stream_end_after_cancel :
    ¬ ∀ s, Lts.runFrom step init streamEndRun = some s → ¬ s.FailedAfterCancel := by
  intro hall
  have hmap : (Lts.runFrom step init streamEndRun).map phase =
      some (.returned (.error ["slot-update websocket subscription ended"]) true) := by decide
  obtain ⟨s, hrun, hs⟩ := Option.map_eq_some_iff.mp hmap
  exact hall s hrun ⟨_, hs, rfl⟩

end Subscription

end Iris
