import Iris.SlotFeed

/-!
# The watchdog of the subscription

The subscription waits `WEBSOCKET_STALL_TIMEOUT` for a notification and `SLOT_EVENT_SEND_TIMEOUT`
for room in its channel. Here it runs with a clock, and possibly some time later than it could.

* `ClockedFeed`, `ClockedFeedEvent`, `step`: the subscription and its clock; `Did`, `did_of_step`;
* `Ordered`, **`stall_waits`**: it reports a stall only when the stream was silent for the timeout;
* `OnTime`, `Watched`, **`watched_step`**: how long it has been since the last notification;
* **`watchdog`**: unless it is cancelled, it hears from the stream in time or aborts the program.
-/

namespace Iris

open Lts Subscription

/-- `SLOT_EVENT_SEND_TIMEOUT`, in milliseconds. -/
def SLOT_EVENT_SEND_TIMEOUT : ℕ := 100

/-- The subscription with its channel, the time, the time since which it has been waiting where it
is, and the time of the last notification, or of the subscription if there was none. -/
structure ClockedFeed where
  feed : SlotFeed
  now : ℕ
  since : ℕ
  heard : ℕ

/-- What can happen next. -/
inductive ClockedFeedEvent
  | pass (milliseconds : ℕ)
  | feed (e : SlotFeedEvent)

namespace ClockedFeed

def init : ClockedFeed := ⟨SlotFeed.init, 0, 0, 0⟩

/-- A wait has lasted long enough to end so. -/
def isDue (s : ClockedFeed) : SlotFeedEvent → Bool
  | .task (.select (.stream (.yields after _))) => s.since + after ≤ s.now
  | .task (.select (.stream (.ends after))) => s.since + after ≤ s.now
  | .task (.select (.stream .silent)) => s.since + WEBSOCKET_STALL_TIMEOUT ≤ s.now
  | .task (.send .timeout) => s.since + SLOT_EVENT_SEND_TIMEOUT ≤ s.now
  | _ => true

/-- The event ends a wait of the task. -/
def endsWait : SlotFeedEvent → Bool
  | .task .cancel => false
  | .task _ => true
  | _ => false

/-- The event is the start of the subscription or a notification. -/
def isHeard : SlotFeedEvent → Bool
  | .task (.subscribe _) => true
  | .task (.select (.stream (.yields after _))) => after ≤ WEBSOCKET_STALL_TIMEOUT
  | _ => false

/-- The state after an event, at the time it happens. -/
def after (s : ClockedFeed) (e : SlotFeedEvent) (feed : SlotFeed) : ClockedFeed where
  feed := feed
  now := s.now
  since := if endsWait e then s.now else s.since
  heard := if isHeard e then s.now else s.heard

/-- One step. -/
def step (s : ClockedFeed) : ClockedFeedEvent → Option ClockedFeed
  | .pass milliseconds => some { s with now := s.now + milliseconds }
  | .feed e => if s.isDue e then (SlotFeed.step s.feed e).map (s.after e) else none

/-- All that a step can do. -/
inductive Did (s : ClockedFeed) : ClockedFeedEvent → ClockedFeed → Prop
  | passed (milliseconds : ℕ) : Did s (.pass milliseconds) { s with now := s.now + milliseconds }
  | moved (e : SlotFeedEvent) (feed : SlotFeed) (hdue : s.isDue e = true)
      (hstep : SlotFeed.step s.feed e = some feed) : Did s (.feed e) (s.after e feed)

theorem did_of_step {s s' : ClockedFeed} {e : ClockedFeedEvent} (h : step s e = some s') :
    Did s e s' := by
  cases e with
  | pass milliseconds =>
    cases h
    exact .passed milliseconds
  | feed e =>
    simp only [step] at h
    split_ifs at h with hdue
    obtain ⟨feed, hstep, rfl⟩ := Option.map_eq_some_iff.mp h
    exact .moved e feed hdue hstep

/-- What is due can happen. -/
theorem step_of_isDue {s : ClockedFeed} {e : SlotFeedEvent} {feed : SlotFeed}
    (hdue : s.isDue e = true) (h : SlotFeed.step s.feed e = some feed) :
    step s (.feed e) = some (s.after e feed) := by
  simp only [step, hdue, h, if_true, Option.map_some]

/-- **The feed** runs as it does without a clock. -/
theorem exists_feed_run {es : List ClockedFeedEvent} {s : ClockedFeed}
    (hrun : runFrom step init es = some s) :
    ∃ fs, runFrom SlotFeed.step SlotFeed.init fs = some s.feed :=
  runFrom_simulate feed (fun s e s' h => by
    cases did_of_step h with
    | passed => exact ⟨[], rfl⟩
    | moved e feed hdue hstep => exact ⟨[e], runFrom_cons_eq_some.mpr ⟨_, hstep, rfl⟩⟩) hrun

/-! ## No stall too early -/

/-- A notification is heard at the end of a wait. -/
theorem endsWait_of_isHeard {e : SlotFeedEvent} (h : isHeard e = true) : endsWait e = true := by
  unfold isHeard at h
  split at h <;> first | rfl | cases h

/-- The last notification, the wait, and now. -/
def Ordered (s : ClockedFeed) : Prop := s.heard ≤ s.since ∧ s.since ≤ s.now

theorem ordered_step (s : ClockedFeed) (e : ClockedFeedEvent) (s' : ClockedFeed) (hs : Ordered s)
    (h : step s e = some s') : Ordered s' := by
  obtain ⟨hheard, hsince⟩ := hs
  cases did_of_step h with
  | passed milliseconds => exact ⟨hheard, Nat.le_add_right_of_le hsince⟩
  | moved e feed hdue hstep =>
    unfold Ordered after
    by_cases hends : endsWait e = true
    · rw [if_pos hends]
      refine ⟨?_, Nat.le_refl _⟩
      split_ifs
      · exact Nat.le_refl _
      · exact Nat.le_trans hheard hsince
    · have hnot : ¬ isHeard e = true := fun hheard => hends (endsWait_of_isHeard hheard)
      rw [if_neg hends, if_neg hnot]
      exact ⟨hheard, hsince⟩

/-- A wait that stalls has lasted for the timeout. -/
theorem since_of_stall {s : ClockedFeed} {next : StreamNext SlotUpdate} (hstalls : Stalls next)
    (hdue : s.isDue (.task (.select (.stream next))) = true) :
    s.since + WEBSOCKET_STALL_TIMEOUT ≤ s.now := by
  cases next with
  | yields after update =>
    have hle : s.since + after ≤ s.now := of_decide_eq_true hdue
    have hlt : WEBSOCKET_STALL_TIMEOUT < after := hstalls
    omega
  | ends after =>
    have hle : s.since + after ≤ s.now := of_decide_eq_true hdue
    have hlt : WEBSOCKET_STALL_TIMEOUT < after := hstalls
    omega
  | silent => exact of_decide_eq_true hdue

/-- **No stall too early.** However the task is scheduled, and whatever it does with the
notifications: when it reports a stall, at least the timeout has passed since the last one. -/
theorem stall_waits {es : List ClockedFeedEvent} {s s' : ClockedFeed} {e : ClockedFeedEvent}
    (hrun : runFrom step init es = some s) (h : step s e = some s')
    (hbefore : ¬ s.feed.task.ReportsStall) (hstall : s'.feed.task.ReportsStall) :
    s.heard + WEBSOCKET_STALL_TIMEOUT ≤ s.now := by
  have hinit : Ordered init := ⟨Nat.le_refl _, Nat.le_refl _⟩
  obtain ⟨hheard, -⟩ := runFrom_invariant ordered_step hinit hrun
  cases did_of_step h with
  | passed => exact absurd hstall hbefore
  | moved e feed hdue hstep =>
    cases (SlotFeed.did_of_step hstep).2 with
    | task f task hallows htask =>
      obtain ⟨next, rfl, hstalls⟩ := ((reportsStall_step htask).mp hstall).resolve_left hbefore
      have hsince := since_of_stall hstalls hdue
      omega
    | received | stopped => exact absurd hstall hbefore

/-! ## The watchdog -/

/-- Time does not go on by more than `lateness` when the task could be run, at the end of a wait
for a notification or for room in the channel. -/
def OnTime (lateness : ℕ) (s : ClockedFeed) : ClockedFeedEvent → Prop
  | .pass milliseconds =>
    match s.feed.task.phase with
    | .waiting _ => s.now + milliseconds ≤ s.since + WEBSOCKET_STALL_TIMEOUT + lateness
    | .sending _ _ => s.now + milliseconds ≤ s.since + SLOT_EVENT_SEND_TIMEOUT + lateness
    | _ => True
  | .feed _ => True

/-- How long a task has been waiting that has always been on time, and how long before that it heard
of the stream. -/
structure Watched (lateness : ℕ) (s : ClockedFeed) : Prop where
  waiting : ∀ b, s.feed.task.phase = .waiting b →
    s.since ≤ s.heard + SLOT_EVENT_SEND_TIMEOUT + lateness ∧
      s.now ≤ s.since + WEBSOCKET_STALL_TIMEOUT + lateness
  sending : ∀ update event, s.feed.task.phase = .sending update event →
    s.since = s.heard ∧ s.now ≤ s.since + SLOT_EVENT_SEND_TIMEOUT + lateness

variable {lateness : ℕ}

/-- A task that is not in its loop. -/
theorem watched_of_phase {s : ClockedFeed} (hwaiting : ∀ b, s.feed.task.phase ≠ .waiting b)
    (hsending : ∀ update event, s.feed.task.phase ≠ .sending update event) : Watched lateness s :=
  ⟨fun b hb => absurd hb (hwaiting b), fun update event hp => absurd hp (hsending update event)⟩

/-- A task that has just heard of the stream. -/
theorem watched_of_heard {s : ClockedFeed} (hheard : s.heard = s.now) (hsince : s.since = s.now) :
    Watched lateness s :=
  ⟨fun _ _ => ⟨by omega, by omega⟩, fun _ _ _ => ⟨by omega, by omega⟩⟩

/-- **One step of the task.** -/
theorem watched_task {s s' : ClockedFeed} {e : SubscriptionEvent} (hs : Watched lateness s)
    (h : Subscription.step s.feed.task e = some s'.feed.task) (hnow : s'.now = s.now)
    (hsince : s'.since = if endsWait (.task e) then s.now else s.since)
    (hheard : s'.heard = if isHeard (.task e) then s.now else s.heard) : Watched lateness s' := by
  generalize htask : s'.feed.task = task at h
  cases Subscription.did_of_step h with
  | cancelled =>
    have hphase : s'.feed.task.phase = s.feed.task.phase := by rw [htask]
    refine ⟨fun b hb => ?_, fun update event hp => ?_⟩
    · rw [hsince, hheard, hnow]
      exact hs.waiting b (hphase.symm.trans hb)
    · rw [hsince, hheard, hnow]
      exact hs.sending update event (hphase.symm.trans hp)
  | subscribed => exact watched_of_heard (hheard.trans hnow.symm) (hsince.trans hnow.symm)
  | notified b hphase after update hin =>
    have hyes : isHeard (.task (.select (.stream (.yields after update)))) = true :=
      decide_eq_true hin
    rw [if_pos hyes] at hheard
    exact watched_of_heard (hheard.trans hnow.symm) (hsince.trans hnow.symm)
  | sent update event hphase outcome =>
    -- the wait that begins now follows a send that began with a notification
    obtain ⟨hsame, htime⟩ := hs.sending update event hphase
    refine ⟨fun b hb => ?_, fun update' event' hp => ?_⟩
    · rw [show s'.since = s.now from hsince, show s'.heard = s.heard from hheard, hnow]
      omega
    · rw [htask] at hp
      cases outcome with
      | closed =>
        rw [phase_sent_closed] at hp
        split_ifs at hp
      | sent | timeout => cases hp
  | _ => exact watched_of_phase (by simp [htask]) (by simp [htask])

theorem watched_step (s : ClockedFeed) (e : ClockedFeedEvent) (s' : ClockedFeed)
    (hs : Watched lateness s) (htime : OnTime lateness s e) (h : step s e = some s') :
    Watched lateness s' := by
  cases did_of_step h with
  | passed milliseconds =>
    unfold OnTime at htime
    refine ⟨fun b hb => ⟨(hs.waiting b hb).1, ?_⟩, fun update event hp =>
      ⟨(hs.sending update event hp).1, ?_⟩⟩
    · rw [show s.feed.task.phase = .waiting b from hb] at htime
      exact htime
    · rw [show s.feed.task.phase = .sending update event from hp] at htime
      exact htime
  | moved e feed hdue hstep =>
    cases (SlotFeed.did_of_step hstep).2 with
    | task f task hallows htask => exact watched_task hs htask rfl rfl rfl
    | received | stopped => exact ⟨hs.waiting, hs.sending⟩

/-- **The watchdog.** Suppose that the task is never run more than `lateness` milliseconds later
than it could be. Once it has subscribed, and until it is cancelled, it has had a notification, or
begun to wait for the first one, within both timeouts and twice the delay, or it has aborted the
program. -/
theorem watchdog {es : List ClockedFeedEvent} {s : ClockedFeed}
    (hrun : runFrom step init es = some s) (htime : AllSteps step (OnTime lateness) init es)
    (hconnected : s.feed.task.phase ≠ .connecting) (hsubscribed : s.feed.task.phase ≠ .subscribing)
    (hclear : s.feed.task.cancelled = false) :
    s.feed.aborted = true ∨
      s.now ≤ s.heard + WEBSOCKET_STALL_TIMEOUT + SLOT_EVENT_SEND_TIMEOUT + 2 * lateness := by
  have hinit : Watched lateness init := watched_of_phase (by simp [init, SlotFeed.init,
    Subscription.init]) (by simp [init, SlotFeed.init, Subscription.init])
  have hs := runFrom_invariant_of_allSteps watched_step hinit htime hrun
  obtain ⟨fs, hfeed⟩ := exists_feed_run hrun
  have hwound := runFrom_invariant wound_step wound_init (SlotFeed.task_run hfeed)
  have hset : ¬ s.feed.task.cancelled = true := Bool.eq_false_iff.mp hclear
  cases hphase : s.feed.task.phase with
  | connecting => exact absurd hphase hconnected
  | subscribing => exact absurd hphase hsubscribed
  | waiting b =>
    obtain ⟨hsince, hnow⟩ := hs.waiting b hphase
    exact Or.inr (by omega)
  | sending update event =>
    obtain ⟨hsince, hnow⟩ := hs.sending update event hphase
    exact Or.inr (by omega)
  | unsubscribing => exact absurd (hwound.winding (Or.inl hphase)) hset
  | shuttingDown => exact absurd (hwound.winding (Or.inr hphase)) hset
  | returned result c =>
    cases result with
    | ok => exact absurd (hwound.finished c hphase).2 hset
    | error error =>
      refine Or.inl ?_
      simp [SlotFeed.aborted, hphase, websocketSlotEventStream]

/-- One slot event for which there is room late, and then nothing, for the task to find out 20
milliseconds late. -/
def silentFeed : List ClockedFeedEvent :=
  [.feed (.task (.connect (.ok ()))), .feed (.task (.subscribe (.ok ()))), .pass 5,
    .feed (.task (.select (.stream (.yields 5 (.FirstShredReceived 7))))), .pass 90,
    .feed (.task (.send .sent)), .pass 30020]

/-- The state at the end of it. -/
def silentState : ClockedFeed where
  feed :=
    { task := ⟨.waiting false, false, [.Start 7], [(.FirstShredReceived 7, some .sent)]⟩
      channel := BoundedChannel.empty.offer (.Start 7)
      received := [] }
  now := 30115
  since := 95
  heard := 5

theorem stall_waits_silentFeed :
    ∃ s', runFrom step init silentFeed = some silentState ∧
      step silentState (.feed (.task (.select (.stream .silent)))) = some s' ∧
      silentState.heard + WEBSOCKET_STALL_TIMEOUT ≤ silentState.now := by
  have hstep := step_of_isDue (s := silentState) (e := .task (.select (.stream .silent)))
    (by decide) rfl
  have hrun : runFrom step init silentFeed = some silentState := rfl
  exact ⟨_, hrun, hstep, stall_waits hrun hstep (not_reportsStall_of_phase nofun) ⟨_, rfl⟩⟩

theorem onTime_silentFeed : AllSteps step (OnTime 20) init silentFeed := by
  have hfirst : 0 + 5 ≤ 0 + WEBSOCKET_STALL_TIMEOUT + 20 := by decide
  have hsend : 5 + 90 ≤ 5 + SLOT_EVENT_SEND_TIMEOUT + 20 := by decide
  have hsecond : 95 + 30020 ≤ 95 + WEBSOCKET_STALL_TIMEOUT + 20 := by decide
  apply allSteps_cons_of_step trivial rfl
  apply allSteps_cons_of_step trivial rfl
  apply allSteps_cons_of_step (by exact hfirst) rfl
  apply allSteps_cons_of_step trivial rfl
  apply allSteps_cons_of_step (by exact hsend) rfl
  apply allSteps_cons_of_step trivial rfl
  exact allSteps_cons_of_step (by exact hsecond) rfl trivial

theorem watchdog_silentFeed :
    ∃ s, runFrom step init silentFeed = some s ∧ s.feed.aborted = false ∧ s.now = 30115 ∧
      s.now ≤ s.heard + WEBSOCKET_STALL_TIMEOUT + SLOT_EVENT_SEND_TIMEOUT + 2 * 20 :=
  ⟨_, rfl, rfl, rfl, (@watchdog 20 silentFeed _ rfl onTime_silentFeed nofun nofun rfl).resolve_left
    (by decide)⟩

end ClockedFeed

end Iris
