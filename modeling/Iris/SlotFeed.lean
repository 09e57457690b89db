import Iris.Lib.BoundedChannel
import Iris.SlotEvents

/-!
# From the websocket to the leader cache

The subscription, the channel of slot events, and the leader cache at the other end of it, which
takes the events at its own pace, or stops.

* `SlotFeed`, `SlotFeedEvent`, `step`: the system; how a send ends is up to the channel;
* `Did`, **`did_of_step`**: all that a step can do;
* `taskEvents`, `task_run`: its subscription runs as a `Subscription`;
* `unread_run`: the channel is the queue of what was sent and has not been received;
* **`complete_iff`**: the cache misses nothing exactly if it is there and has room at every send;
* `Left`, **`sends_after_stop`**: once it has stopped, one send at most tells the subscription so.
-/

namespace Iris

/-- The size of the channel that `websocket_slot_event_stream` makes. -/
def SLOT_EVENT_CHANNEL_SIZE : ℕ := 256

/-- The subscription, its channel, and what the leader cache has received from it. -/
structure SlotFeed where
  task : Subscription
  channel : BoundedChannel SlotEvent SLOT_EVENT_CHANNEL_SIZE
  received : List SlotEvent

/-- What can happen next: something in the task, or the cache receives an event or stops. -/
inductive SlotFeedEvent
  | task (e : SubscriptionEvent)
  | recv
  | stop

/-- How a `send_timeout` ends that finds the channel so when it ends. -/
def SendTimeout.ofReply : Reply → SendTimeout
  | .accepted => .sent
  | .full => .timeout
  | .closed => .closed

namespace SlotFeed

open Lts Subscription

def init : SlotFeed := ⟨Subscription.init, .empty, []⟩

/-- The task has aborted the process. -/
def aborted (s : SlotFeed) : Bool :=
  match s.task.phase with
  | .returned result _ => websocketSlotEventStream result == .aborted
  | _ => false

/-- The end of a send is the one that the channel gives it. -/
def allows (s : SlotFeed) : SubscriptionEvent → Bool
  | .send outcome => outcome == SendTimeout.ofReply s.channel.reply
  | _ => true

/-- The channel after something has happened in the task. -/
def channelAfter (s : SlotFeed) (e : SubscriptionEvent) :
    BoundedChannel SlotEvent SLOT_EVENT_CHANNEL_SIZE :=
  match e, s.task.phase with
  | .send _, .sending _ event => s.channel.offer event
  | _, _ => s.channel

/-- One step. -/
def step (s : SlotFeed) (e : SlotFeedEvent) : Option SlotFeed :=
  if s.aborted then none
  else match e with
    | .task e =>
      if s.allows e then
        (Subscription.step s.task e).map fun task => { s with task, channel := s.channelAfter e }
      else none
    | .recv => s.channel.take.map fun (event, channel) =>
        { s with channel, received := s.received ++ [event] }
    | .stop => some { s with channel := s.channel.close }

/-- All that a step can do. -/
inductive Did (s : SlotFeed) : SlotFeedEvent → SlotFeed → Prop
  | task (e : SubscriptionEvent) (task : Subscription) (hallows : s.allows e = true)
      (hstep : Subscription.step s.task e = some task) :
      Did s (.task e) { s with task, channel := s.channelAfter e }
  | received (event : SlotEvent) (channel : BoundedChannel SlotEvent SLOT_EVENT_CHANNEL_SIZE)
      (htake : s.channel.take = some (event, channel)) :
      Did s .recv { s with channel, received := s.received ++ [event] }
  | stopped : Did s .stop { s with channel := s.channel.close }

theorem did_of_step {s s' : SlotFeed} {e : SlotFeedEvent} (h : step s e = some s') :
    s.aborted = false ∧ Did s e s' := by
  unfold step at h
  split_ifs at h with haborted
  refine ⟨Bool.eq_false_iff.mpr haborted, ?_⟩
  cases e with
  | task e =>
    by_cases hallows : s.allows e = true
    · simp only [hallows, if_true] at h
      obtain ⟨task, hstep, rfl⟩ := Option.map_eq_some_iff.mp h
      exact .task e task hallows hstep
    · simp [hallows] at h
  | recv =>
    obtain ⟨⟨event, channel⟩, htake, rfl⟩ := Option.map_eq_some_iff.mp h
    exact .received event channel htake
  | stop =>
    cases h
    exact .stopped

/-! ## The subscription -/

/-- What happens in the task. -/
def taskEvents (es : List SlotFeedEvent) : List SubscriptionEvent :=
  es.filterMap fun
    | .task e => some e
    | _ => none

theorem taskEvents_concat_task (es : List SlotFeedEvent) (e : SubscriptionEvent) :
    taskEvents (es ++ [.task e]) = taskEvents es ++ [e] := by
  rw [taskEvents, List.filterMap_append]
  rfl

theorem task_step (es : List SlotFeedEvent) (s : SlotFeed) (e : SlotFeedEvent) (s' : SlotFeed)
    (hs : runFrom Subscription.step Subscription.init (taskEvents es) = some s.task)
    (h : step s e = some s') :
    runFrom Subscription.step Subscription.init (taskEvents (es ++ [e])) = some s'.task := by
  cases (did_of_step h).2 with
  | task e task hallows hstep =>
    rw [taskEvents_concat_task]
    exact runFrom_concat hs hstep
  | received | stopped =>
    rw [taskEvents, List.filterMap_append]
    exact (List.append_nil (taskEvents es)).symm ▸ hs

/-- **The subscription** runs as it does by itself. -/
theorem task_run {es : List SlotFeedEvent} {s : SlotFeed} (hrun : runFrom step init es = some s) :
    runFrom Subscription.step Subscription.init (taskEvents es) = some s.task :=
  runFrom_history task_step rfl hrun

/-! ## What the cache receives -/

/-- Only a send adds to the slot events. -/
theorem slotEvents_of_outcomeOf {t t' : Subscription} {e : SubscriptionEvent}
    (he : outcomeOf e = none) (h : Subscription.step t e = some t') :
    t'.slotEvents = t.slotEvents := by
  cases forwards_of_step h with
  | takes event himage houtcome hbefore hafter hsent => exact hsent
  | ends event outcome himage houtcome => rw [he] at houtcome; cases houtcome
  | neither himage houtcome htransit hsent => exact hsent

/-- What was sent is what has been received and what waits. -/
def Unread (s : SlotFeed) : Prop := s.received ++ s.channel.waiting = s.task.slotEvents

theorem ofReply_eq_sent {r : Reply} : SendTimeout.ofReply r = .sent ↔ r = .accepted := by
  cases r <;> decide

/-- **One step.** -/
theorem unread_step (s : SlotFeed) (e : SlotFeedEvent) (s' : SlotFeed) (hs : Unread s)
    (h : step s e = some s') : Unread s' := by
  unfold Unread at hs ⊢
  cases (did_of_step h).2 with
  | task e task hallows hstep =>
    by_cases he : outcomeOf e = none
    · have hchannel : s.channelAfter e = s.channel := by
        cases e with
        | send outcome => cases he
        | _ => rfl
      show _ ++ (s.channelAfter e).waiting = task.slotEvents
      rw [hchannel, slotEvents_of_outcomeOf he hstep]
      exact hs
    · cases Subscription.did_of_step hstep with
      | sent update event hphase outcome =>
        have houtcome : outcome = SendTimeout.ofReply s.channel.reply := beq_iff_eq.mp hallows
        have hchannel : s.channelAfter (.send outcome) = s.channel.offer event := by
          simp only [channelAfter, hphase]
        show _ ++ (s.channelAfter (.send outcome)).waiting = _
        rw [hchannel, BoundedChannel.waiting_offer, slotEvents_sent, ← List.append_assoc, hs,
          houtcome]
        simp only [ofReply_eq_sent]
      | _ => exact absurd rfl he
  | received event channel htake =>
    obtain ⟨-, -, hwaiting⟩ := BoundedChannel.take_eq_some_iff.mp htake
    rw [hwaiting] at hs
    show (s.received ++ [event]) ++ channel.waiting = _
    rw [List.append_assoc]
    exact hs
  | stopped => exact hs

theorem unread_run {es : List SlotFeedEvent} {s : SlotFeed} (hrun : runFrom step init es = some s) :
    Unread s := by
  have hinit : Unread init := rfl
  exact runFrom_invariant unread_step hinit hrun

/-- If the event ends a send, the cache is there and has room for one more. -/
def KeepsUp (s : SlotFeed) (e : SlotFeedEvent) : Prop :=
  ∀ outcome, e = .task (.send outcome) →
    s.channel.closed = false ∧ s.channel.waiting.length < SLOT_EVENT_CHANNEL_SIZE

/-- A step ends a send well exactly if the cache keeps up. -/
theorem keepsUp_iff {s s' : SlotFeed} {e : SlotFeedEvent} (h : step s e = some s') :
    KeepsUp s e ↔ ∀ outcome ∈ outcomes (taskEvents [e]), outcome = .sent := by
  cases (did_of_step h).2 with
  | task f task hallows hstep =>
    cases f with
    | send outcome =>
      have houtcome : outcome = SendTimeout.ofReply s.channel.reply := beq_iff_eq.mp hallows
      have hlist : outcomes (taskEvents [.task (.send outcome)]) = [outcome] := rfl
      rw [hlist, List.forall_mem_singleton, houtcome, ofReply_eq_sent,
        BoundedChannel.reply_eq_accepted_iff]
      exact ⟨fun hup => hup outcome (houtcome ▸ rfl), fun hroom _ _ => hroom⟩
    | _ => exact iff_of_true (fun _ heq => by cases heq) nofun
  | received | stopped => exact iff_of_true (fun _ heq => by cases heq) nofun

theorem outcomes_taskEvents_append (es fs : List SlotFeedEvent) :
    outcomes (taskEvents (es ++ fs)) = outcomes (taskEvents es) ++ outcomes (taskEvents fs) := by
  unfold outcomes taskEvents
  rw [List.filterMap_append, List.filterMap_append]

/-- **All sends end well** exactly if the cache always keeps up. -/
theorem allSteps_keepsUp_iff : ∀ {es : List SlotFeedEvent} {s s' : SlotFeed},
    runFrom step s es = some s' →
      (AllSteps step KeepsUp s es ↔ ∀ outcome ∈ outcomes (taskEvents es), outcome = .sent)
  | [], s, s', _ => iff_of_true trivial nofun
  | e :: es, s, s', h => by
    obtain ⟨t, ht, h⟩ := runFrom_cons_eq_some.mp h
    have hrest := allSteps_keepsUp_iff h
    have hcons : AllSteps step KeepsUp s (e :: es) ↔ KeepsUp s e ∧ AllSteps step KeepsUp t es := by
      simp [AllSteps, ht]
    have houtcomes := outcomes_taskEvents_append [e] es
    rw [List.singleton_append] at houtcomes
    rw [hcons, hrest, keepsUp_iff ht, houtcomes, List.forall_mem_append]

/-- All the events come through exactly if all their sends go well. -/
theorem delivered_eq_iff : ∀ {events : List SlotEvent} {sends : List SendTimeout},
    events.length = sends.length →
      (delivered events sends = events ↔ ∀ outcome ∈ sends, outcome = .sent)
  | [], [], _ => iff_of_true rfl nofun
  | event :: events, outcome :: sends, hlen => by
    have hrest := delivered_eq_iff (Nat.succ.inj hlen)
    have hcons : delivered (event :: events) (outcome :: sends) =
        (if outcome = .sent then [event] else []) ++ delivered events sends := by
      unfold delivered
      by_cases hsent : outcome = .sent <;> simp [hsent]
    rw [hcons, List.forall_mem_cons, ← hrest]
    by_cases hsent : outcome = .sent
    · simp [hsent]
    · have hshort := (delivered_sublist events sends).length_le
      refine iff_of_false (fun heq => ?_) fun hall => hsent hall.1
      have hlength := congrArg List.length heq
      rw [if_neg hsent, List.nil_append, List.length_cons] at hlength
      omega

/-- **What the leader cache gets to know.** What it has received, and then what waits for it, are
the start and the end events whose own send went through, in the order of their notifications. With
the one being sent these are all of them exactly if, at the end of every send, the cache had not
stopped and had fewer than 256 events to read. -/
theorem complete_iff {es : List SlotFeedEvent} {s : SlotFeed}
    (hrun : runFrom step init es = some s) :
    s.received ++ s.channel.waiting =
      delivered (images (taskEvents es)) (outcomes (taskEvents es)) ∧
    (s.received ++ s.channel.waiting ++ s.task.inTransit = images (taskEvents es) ↔
      AllSteps step KeepsUp init es) := by
  have hinit : Forwarded [] Subscription.init := ⟨[], rfl, rfl, rfl⟩
  obtain ⟨ended, himages, hlength, hslots⟩ := runFrom_history forwarded_step hinit (task_run hrun)
  have hunread : s.received ++ s.channel.waiting = delivered ended (outcomes (taskEvents es)) :=
    (unread_run hrun).trans hslots
  rw [allSteps_keepsUp_iff hrun, ← delivered_eq_iff hlength, hunread, himages,
    List.append_left_inj]
  refine ⟨?_, Iff.rfl⟩
  -- the event in transit has no outcome yet
  unfold delivered
  conv_rhs => rw [← List.append_nil (outcomes (taskEvents es)), List.zip_append hlength]
  simp

/-- Two events are sent, and the cache has read the first. -/
def stoppedFeed : List SlotFeedEvent :=
  [.task (.connect (.ok ())), .task (.subscribe (.ok ())),
    .task (.select (.stream (.yields 5 (.FirstShredReceived 7)))), .task (.send .sent), .recv,
    .task (.select (.stream (.yields 5 (.Completed 7)))), .task (.send .sent)]

theorem complete_iff_stoppedFeed :
    ∃ s, runFrom step init stoppedFeed = some s ∧ s.received = [.Start 7] ∧
      s.channel.waiting = [.End 7] ∧
      s.received ++ s.channel.waiting =
        delivered (images (taskEvents stoppedFeed)) (outcomes (taskEvents stoppedFeed)) :=
  ⟨_, rfl, rfl, rfl, (@complete_iff stoppedFeed _ rfl).1⟩

/-! ## A cache that has stopped -/

/-- The task has left its loop. -/
def Left (t : Subscription) : Prop :=
  t.phase = .unsubscribing ∨ t.phase = .shuttingDown ∨ ∃ result c, t.phase = .returned result c

/-- It does not come back, and sends nothing more. -/
theorem left_step {t t' : Subscription} {e : SubscriptionEvent} (ht : Left t)
    (h : Subscription.step t e = some t') : Left t' ∧ outcomeOf e = none := by
  cases Subscription.did_of_step h with
  | cancelled => exact ⟨ht, rfl⟩
  | unsubscribed hphase => exact ⟨Or.inr (Or.inl rfl), rfl⟩
  | stopped hphase => exact ⟨Or.inr (Or.inr ⟨_, _, rfl⟩), rfl⟩
  | stopFailed e hphase => exact ⟨Or.inr (Or.inr ⟨_, _, rfl⟩), rfl⟩
  | connected hphase => simp [Left, hphase] at ht
  | connectFailed e hphase => simp [Left, hphase] at ht
  | subscribed hphase => simp [Left, hphase] at ht
  | subscribeFailed e hphase => simp [Left, hphase] at ht
  | observed b hphase => simp [Left, hphase] at ht
  | notified b hphase => simp [Left, hphase] at ht
  | missed b hphase => simp [Left, hphase] at ht
  | sent update event hphase => simp [Left, hphase] at ht

/-- The token stays set. -/
theorem cancelled_of_step {t t' : Subscription} {e : SubscriptionEvent} (ht : t.cancelled = true)
    (h : Subscription.step t e = some t') : t'.cancelled = true := by
  cases e with
  | cancel => cases h; rfl
  | _ => rw [cancelled_step (by simp) h]; exact ht

/-- **A send to a cache that has stopped** ends the loop, or the process. -/
theorem left_of_closed {s : SlotFeed} (update : SlotUpdate) (event : SlotEvent)
    (channel : BoundedChannel SlotEvent SLOT_EVENT_CHANNEL_SIZE) :
    Left (s.task.sent update event .closed) ∧
      ((s.task.sent update event .closed).cancelled = true ∨
        aborted { s with task := s.task.sent update event .closed, channel } = true) := by
  have hphase := phase_sent_closed s.task update event
  by_cases hcancelled : s.task.cancelled = true
  · rw [if_pos hcancelled] at hphase
    exact ⟨Or.inl hphase, Or.inl ((cancelled_sent _ _ _ _).trans hcancelled)⟩
  · rw [if_neg hcancelled] at hphase
    refine ⟨Or.inr (Or.inr ⟨_, _, hphase⟩), Or.inr ?_⟩
    simp [aborted, hphase, websocketSlotEventStream]

/-- Since the cache stopped: nothing was received, and one send at most was made, which has ended
the loop or the process. -/
structure Stopped (s : SlotFeed) (es : List SlotFeedEvent) (t : SlotFeed) : Prop where
  closed : t.channel.closed = true
  received : t.received = s.received
  sends : outcomes (taskEvents es) = [] ∨
    outcomes (taskEvents es) = [.closed] ∧ Left t.task ∧
      (t.task.cancelled = true ∨ t.aborted = true)

theorem stopped_step {s : SlotFeed} (es : List SlotFeedEvent) (t : SlotFeed) (e : SlotFeedEvent)
    (t' : SlotFeed) (ht : Stopped s es t) (h : step t e = some t') : Stopped s (es ++ [e]) t' := by
  obtain ⟨hclosed, hreceived, hsends⟩ := ht
  obtain ⟨halive, hdid⟩ := did_of_step h
  cases hdid with
  | task f task hallows hstep =>
    have hchannel : (t.channelAfter f).closed = true := by
      unfold channelAfter
      split
      · exact hclosed
      · exact hclosed
    refine ⟨hchannel, hreceived, ?_⟩
    rw [outcomes_taskEvents_append]
    rcases hsends with hnone | ⟨hone, hleft, hended⟩
    · by_cases hf : outcomeOf f = none
      · have hnil : outcomes (taskEvents [.task f]) = [] := by
          simp [outcomes, taskEvents, hf]
        exact Or.inl (by rw [hnone, hnil]; rfl)
      · cases Subscription.did_of_step hstep with
        | sent update event hphase outcome =>
          have hreply : t.channel.reply = .closed :=
            BoundedChannel.reply_eq_closed_iff.mpr hclosed
          have houtcome : outcome = .closed := by
            rw [beq_iff_eq.mp hallows, hreply]
            rfl
          subst houtcome
          obtain ⟨hleft, hended⟩ := left_of_closed (s := t) update event
            (t.channelAfter (.send .closed))
          exact Or.inr ⟨by rw [hnone]; rfl, hleft, hended⟩
        | _ => exact absurd rfl hf
    · obtain ⟨hleft', hf⟩ := left_step hleft hstep
      have hnil : outcomes (taskEvents [.task f]) = [] := by simp [outcomes, taskEvents, hf]
      have hcancelled : t.task.cancelled = true := by
        rcases hended with hcancelled | haborted
        · exact hcancelled
        · rw [halive] at haborted
          cases haborted
      exact Or.inr ⟨by rw [hone, hnil]; rfl, hleft', Or.inl (cancelled_of_step hcancelled hstep)⟩
  | received event channel htake =>
    obtain ⟨hopen, -, -⟩ := BoundedChannel.take_eq_some_iff.mp htake
    rw [hclosed] at hopen
    cases hopen
  | stopped =>
    refine ⟨rfl, hreceived, ?_⟩
    have hnil : outcomes (taskEvents [.stop]) = [] := rfl
    rw [outcomes_taskEvents_append, hnil, List.append_nil]
    exact hsends

/-- **When the leader cache has stopped** it receives nothing more, and the subscription makes one
more send at most. That send finds the channel closed and ends the loop; without the token it ends
the process. -/
theorem sends_after_stop {es : List SlotFeedEvent} {s s' : SlotFeed}
    (hclosed : s.channel.closed = true) (hrun : runFrom step s es = some s') :
    s'.received = s.received ∧
      (outcomes (taskEvents es) = [] ∨
        outcomes (taskEvents es) = [.closed] ∧ Left s'.task ∧
          (s'.task.cancelled = true ∨ s'.aborted = true)) := by
  have hinit : Stopped s [] s := ⟨hclosed, rfl, Or.inl rfl⟩
  have hs := runFrom_history stopped_step hinit hrun
  exact ⟨hs.received, hs.sends⟩

/-- The cache stops; the next slot event finds out. -/
def lastSend : List SlotFeedEvent :=
  [.task (.select (.stream (.yields 5 (.FirstShredReceived 8)))), .task (.send .closed)]

theorem sends_after_stop_lastSend :
    ∃ s s', runFrom step init (stoppedFeed ++ [.stop]) = some s ∧
      runFrom step s lastSend = some s' ∧ outcomes (taskEvents lastSend) = [.closed] ∧
      s'.received = s.received ∧ Left s'.task ∧ (s'.task.cancelled = true ∨ s'.aborted = true) := by
  have hmap : (runFrom step init (stoppedFeed ++ [.stop])).map
      (fun s => (s.channel.closed, (runFrom step s lastSend).isSome)) = some (true, true) := rfl
  obtain ⟨s, hrun, hs⟩ := Option.map_eq_some_iff.mp hmap
  obtain ⟨hclosed, hsome⟩ := Prod.mk.inj hs
  obtain ⟨s', hlast⟩ := Option.isSome_iff_exists.mp hsome
  obtain ⟨hreceived, hsends⟩ := sends_after_stop hclosed hlast
  have hone : outcomes (taskEvents lastSend) ≠ [] := List.cons_ne_nil _ _
  exact ⟨s, s', hrun, hlast, rfl, hreceived, (hsends.resolve_left hone).2⟩

end SlotFeed

end Iris
