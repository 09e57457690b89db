import Iris.Lib.PeriodicTask
import Iris.Process

/-!
# The age of the block list

The refresh thread begins an attempt at every tick of its interval and gives each one
`TIMEOUT`. Here it runs with a clock, and possibly some time later than it could.

* `ClockedNode`, `ClockedEvent`, `step`: the thread and its clock; **`exists_node_run`**,
  `exists_clock_run`: it runs as it does without a clock, and its clock is that of a periodic task;
* **`attempts_spaced`**: the servers are asked no more often than the interval allows;
* `AttemptDid`, `InStep`, **`inStep_step`**: the attempts are the jobs of that task;
  `exists_step_of_inStep`: its clock holds up nothing else;
* `OnTime`, **`block_list_age`**: how long ago the latest attempt began, and what it found.
-/

namespace Iris

open Lts

/-- `REFRESH_LIST_DURATION`, in milliseconds. -/
def REFRESH_LIST_DURATION : ℕ := 600000

/-- The `TIMEOUT` of an attempt, in milliseconds. -/
def TIMEOUT : ℕ := 10000

/-- The node and the clock of its refresh thread. -/
structure ClockedNode (ω : Type) where
  node : Node ω
  clock : PeriodicTask

/-- What can happen next. -/
inductive ClockedEvent
  | pass (milliseconds : ℕ)
  | node (e : NodeEvent)

/-- What an event is to the clock: `interval.tick()`, the end of an attempt, or its timeout. -/
def NodeEvent.clockEvent : NodeEvent → Option PeriodicTask.Event
  | .tick => some .start
  | .clusterNodes (.error _) | .accountData _ => some .finish
  | .elapsed => some .expire
  | _ => none

namespace ClockedNode

variable {ω κ : Type}

def init (workers : ω) : ClockedNode ω := ⟨Node.init workers, PeriodicTask.init⟩

/-- A step of the clock of the thread. -/
def clockStep (clock : PeriodicTask) (e : PeriodicTask.Event) : Option PeriodicTask :=
  PeriodicTask.step REFRESH_LIST_DURATION TIMEOUT clock e

/-- The clock after an event of the node. -/
def clockAfter (clock : PeriodicTask) (e : NodeEvent) : Option PeriodicTask :=
  match e.clockEvent with
  | none => some clock
  | some f => clockStep clock f

variable (cache : WorkersCache Submission ω κ) (key : Pubkey)

/-- One step. A tick is taken when it is due, and a timeout when the time is up. -/
def step (s : ClockedNode ω) : ClockedEvent → Option (ClockedNode ω)
  | .pass milliseconds =>
    (clockStep s.clock (.pass milliseconds)).map fun clock => { s with clock }
  | .node e =>
    (Node.step cache key s.node e).bind fun node =>
      (clockAfter s.clock e).map fun clock => ⟨node, clock⟩

/-- All that a step can do. -/
inductive Did (s : ClockedNode ω) : ClockedEvent → ClockedNode ω → Prop
  | passed (milliseconds : ℕ) (clock : PeriodicTask)
      (hclock : clockStep s.clock (.pass milliseconds) = some clock) :
      Did s (.pass milliseconds) { s with clock }
  | moved (e : NodeEvent) (node : Node ω) (clock : PeriodicTask)
      (hnode : Node.step cache key s.node e = some node)
      (hclock : clockAfter s.clock e = some clock) : Did s (.node e) ⟨node, clock⟩

theorem did_of_step {s s' : ClockedNode ω} {e : ClockedEvent} (h : step cache key s e = some s') :
    Did cache key s e s' := by
  cases e with
  | pass milliseconds =>
    simp only [step, Option.map_eq_some_iff] at h
    obtain ⟨clock, hclock, rfl⟩ := h
    exact .passed milliseconds clock hclock
  | node e =>
    obtain ⟨node, hnode, h⟩ := Option.bind_eq_some_iff.mp h
    obtain ⟨clock, hclock, rfl⟩ := Option.map_eq_some_iff.mp h
    exact .moved e node clock hnode hclock

/-! ## The thread and its clock -/

/-- **The thread** runs as it does without a clock. -/
theorem exists_node_run {workers : ω} {es : List ClockedEvent} {s : ClockedNode ω}
    (hrun : runFrom (step cache key) (init workers) es = some s) :
    ∃ fs, runFrom (Node.step cache key) (Node.init workers) fs = some s.node :=
  runFrom_simulate node (fun s e s' h => by
    cases did_of_step cache key h with
    | passed => exact ⟨[], rfl⟩
    | moved e node clock hnode => exact ⟨[e], runFrom_cons_eq_some.mpr ⟨_, hnode, rfl⟩⟩) hrun

theorem exists_clock_step {clock clock' : PeriodicTask} {e : NodeEvent}
    (h : clockAfter clock e = some clock') : ∃ fs, runFrom clockStep clock fs = some clock' := by
  unfold clockAfter at h
  split at h
  · exact ⟨[], h⟩
  · rename_i f hf
    exact ⟨[f], runFrom_cons_eq_some.mpr ⟨_, h, rfl⟩⟩

theorem exists_clock_run {workers : ω} {es : List ClockedEvent} {s : ClockedNode ω}
    (hrun : runFrom (step cache key) (init workers) es = some s) :
    ∃ fs, runFrom clockStep PeriodicTask.init fs = some s.clock :=
  runFrom_simulate clock (fun s e s' h => by
    cases did_of_step cache key h with
    | passed milliseconds clock hclock =>
      exact ⟨[_], runFrom_cons_eq_some.mpr ⟨_, hclock, rfl⟩⟩
    | moved e node clock hnode hclock => exact exists_clock_step hclock) hrun

/-- **Spacing.** The attempt in place `i` begins no earlier than `i` times the interval. -/
theorem attempts_spaced {workers : ω} {es : List ClockedEvent} {s : ClockedNode ω}
    (hrun : runFrom (step cache key) (init workers) es = some s) :
    ∀ i t, s.clock.jobs[i]? = some t → i * REFRESH_LIST_DURATION ≤ t ∧ t ≤ s.clock.now := by
  obtain ⟨fs, hfs⟩ := exists_clock_run cache key hrun
  exact PeriodicTask.spaced_run hfs

/-- An attempt finds a policy, and the next one begins 30 milliseconds late. -/
def lateRun : List ClockedEvent :=
  [.node .tick, .pass 100, .node (.clusterNodes (.ok [Node.zeroNode])), .pass 50,
    .node (.accountData (.ok Node.zeroPolicy)), .pass 599880, .node .tick]

theorem attempts_spaced_lateRun :
    ∃ s, runFrom (step WorkersCache.accepting Node.zeroKey) (init ()) lateRun = some s ∧
      s.clock.jobs[1]? = some 600030 ∧ 1 * REFRESH_LIST_DURATION ≤ 600030 :=
  ⟨_, rfl, rfl, (@attempts_spaced _ _ WorkersCache.accepting Node.zeroKey () lateRun _ rfl 1 600030
    rfl).1⟩

/-! ## Attempts -/

/-- An attempt is underway. -/
def Underway (phase : RefreshPhase) : Prop :=
  phase = .clusterNodes ∨ ∃ nodes, phase = .accountData nodes

theorem not_underway_finish (s : Node ω) (attempt : Attempt)
    (res : Outcome AnyhowError (List SocketAddr)) : ¬ Underway (s.finish attempt res).phase := by
  cases res <;> simp [Underway, Node.finish]

/-- What a step of the node does to the attempts. -/
inductive AttemptDid (s : Node ω) (e : NodeEvent) : Node ω → Prop
  | kept (s' : Node ω) (he : e.clockEvent = none)
      (hunderway : Underway s'.phase ↔ Underway s.phase) (hattempts : s'.attempts = s.attempts) :
      AttemptDid s e s'
  | began (he : e.clockEvent = some .start) (hidle : s.phase = .idle) :
      AttemptDid s e { s with phase := .clusterNodes }
  | ended (f : PeriodicTask.Event) (he : e.clockEvent = some f) (hf : f = .finish ∨ f = .expire)
      (hunderway : Underway s.phase) (attempt : Attempt)
      (res : Outcome AnyhowError (List SocketAddr)) : AttemptDid s e (s.finish attempt res)

theorem attemptDid_of_step {s s' : Node ω} {e : NodeEvent}
    (h : Node.step cache key s e = some s') : AttemptDid s e s' := by
  have hsystem : ∀ f, Node.systemStep cache s f = some s' → e.clockEvent = none →
      AttemptDid s e s' := by
    intro f hs' he
    obtain ⟨system, -, rfl⟩ := Option.map_eq_some_iff.mp hs'
    exact .kept _ he Iff.rfl rfl
  cases e with
  | submit w m outcome => exact hsystem _ h rfl
  | flush outcome => exact hsystem _ h rfl
  | send leaders => exact hsystem _ h rfl
  | cancel =>
    cases h
    exact .kept _ rfl Iff.rfl rfl
  | observeCancel =>
    simp only [Node.step] at h
    split at h
    · rename_i hidle
      split_ifs at h
      cases h
      exact .kept _ rfl (by simp [Underway, hidle]) rfl
    · cases h
  | tick =>
    simp only [Node.step] at h
    split at h
    · rename_i hidle
      cases h
      exact .began rfl hidle
    · cases h
  | clusterNodes reply =>
    simp only [Node.step] at h
    split at h
    · rename_i nodes hphase
      cases h
      exact .kept _ rfl (by simp [Underway, hphase]) rfl
    · rename_i hphase
      cases h
      exact .ended _ rfl (Or.inl rfl) (Or.inl hphase) _ _
    · cases h
  | accountData reply =>
    simp only [Node.step] at h
    split at h
    · rename_i nodes hphase
      cases h
      exact .ended _ rfl (Or.inl rfl) (Or.inr ⟨nodes, hphase⟩) _ _
    · cases h
  | elapsed =>
    simp only [Node.step] at h
    split at h
    · rename_i hphase
      cases h
      exact .ended _ rfl (Or.inr rfl) (Or.inl hphase) _ _
    · rename_i nodes hphase
      cases h
      exact .ended _ rfl (Or.inr rfl) (Or.inr ⟨nodes, hphase⟩) _ _
    · cases h

/-- The attempts are the jobs of the periodic task. -/
structure InStep (s : ClockedNode ω) : Prop where
  underway : Underway s.node.phase ↔ s.clock.underway ≠ none
  attempts : s.clock.begun.length = s.node.attempts.length

theorem inStep_init (workers : ω) : InStep (init workers) where
  underway := by simp [Underway, init, Node.init, PeriodicTask.init]
  attempts := rfl

/-- The clock when a job ends. -/
theorem clock_of_end {clock clock' : PeriodicTask} {f : PeriodicTask.Event}
    (hf : f = .finish ∨ f = .expire) (h : clockStep clock f = some clock') :
    ∃ began, clock.underway = some began ∧ clock' = clock.ended began := by
  cases PeriodicTask.did_of_step h with
  | passed | started => simp at hf
  | ended e he began hjob => exact ⟨began, hjob, rfl⟩

theorem inStep_step (s : ClockedNode ω) (e : ClockedEvent) (s' : ClockedNode ω) (hs : InStep s)
    (h : step cache key s e = some s') : InStep s' := by
  cases did_of_step cache key h with
  | passed milliseconds clock hclock =>
    cases hclock
    exact ⟨hs.underway, hs.attempts⟩
  | moved e node clock hnode hclock =>
    unfold clockAfter at hclock
    cases attemptDid_of_step cache key hnode with
    | kept node he hunderway hattempts =>
      rw [he] at hclock
      cases hclock
      exact ⟨hunderway.trans hs.underway, hs.attempts.trans (congrArg _ hattempts.symm)⟩
    | began he hidle =>
      rw [he] at hclock
      cases PeriodicTask.did_of_step hclock with
      | started => exact ⟨iff_of_true (Or.inl rfl) (Option.some_ne_none _), hs.attempts⟩
      | ended e he => simp at he
    | ended f he hf hunderway attempt res =>
      rw [he] at hclock
      obtain ⟨began, hjob, rfl⟩ := clock_of_end hf hclock
      refine ⟨iff_of_false (not_underway_finish _ attempt res) (not_not_intro rfl), ?_⟩
      show (s.clock.begun ++ [began]).length = (s.node.finish attempt res).attempts.length
      rw [Node.attempts_finish, List.length_append, List.length_append, hs.attempts]
      rfl

/-- **The clock holds up nothing** but ticks and timeouts. -/
theorem exists_step_of_inStep {s : ClockedNode ω} {e : NodeEvent} {node : Node ω} (hs : InStep s)
    (htick : e.clockEvent ≠ some .start) (helapsed : e.clockEvent ≠ some .expire)
    (h : Node.step cache key s.node e = some node) :
    ∃ s', step cache key s (.node e) = some s' := by
  have hclock : ∃ clock, clockAfter s.clock e = some clock := by
    unfold clockAfter
    cases attemptDid_of_step cache key h with
    | kept node he =>
      rw [he]
      exact ⟨s.clock, rfl⟩
    | began he => exact absurd he htick
    | ended f he hf hunderway =>
      obtain ⟨began, hjob⟩ := Option.ne_none_iff_exists'.mp (hs.underway.mp hunderway)
      rcases hf with rfl | rfl
      · rw [he]
        exact ⟨s.clock.ended began, congrArg (Option.map s.clock.ended) hjob⟩
      · exact absurd he helapsed
  obtain ⟨clock, hclock⟩ := hclock
  exact ⟨⟨node, clock⟩, by simp only [step, h, hclock, Option.bind_some, Option.map_some]⟩

/-! ## Age -/

/-- Time does not go on by more than `lateness` when a thread that is alive could be run. -/
def OnTime (lateness : ℕ) (s : ClockedNode ω) : ClockedEvent → Prop
  | .pass milliseconds =>
    ¬ Node.Ended s.node.phase →
      PeriodicTask.OnTime TIMEOUT lateness s.clock (.pass milliseconds)
  | .node _ => True

/-- The thread has ended, or has always been on time. -/
def Fresh (lateness : ℕ) (s : ClockedNode ω) : Prop :=
  Node.Ended s.node.phase ∨
    PeriodicTask.Fresh REFRESH_LIST_DURATION TIMEOUT lateness s.clock

theorem fresh_step {lateness : ℕ} (s : ClockedNode ω) (e : ClockedEvent) (s' : ClockedNode ω)
    (hs : Fresh lateness s) (htime : OnTime lateness s e) (h : step cache key s e = some s') :
    Fresh lateness s' := by
  by_cases hended : Node.Ended s.node.phase
  · refine Or.inl ?_
    cases did_of_step cache key h with
    | passed milliseconds clock => exact hended
    | moved e node clock hnode =>
      show Node.Ended node.phase
      rw [(Node.ended_step cache key hended hnode).1]
      exact hended
  · have hfresh := hs.resolve_left hended
    refine Or.inr ?_
    cases did_of_step cache key h with
    | passed milliseconds clock hclock =>
      exact PeriodicTask.fresh_step hfresh (htime hended) hclock
    | moved e node clock hnode hclock =>
      unfold clockAfter at hclock
      cases attemptDid_of_step cache key hnode with
      | kept node he =>
        rw [he] at hclock
        cases hclock
        exact hfresh
      | began he =>
        rw [he] at hclock
        exact PeriodicTask.fresh_step (e := .start) hfresh trivial hclock
      | ended f he hf =>
        rw [he] at hclock
        refine PeriodicTask.fresh_step hfresh ?_ hclock
        rcases hf with rfl | rfl <;> trivial

/-- The block list is the one of the latest good attempt. -/
theorem blocked_run {workers : ω} {es : List ClockedEvent} {s : ClockedNode ω}
    (hrun : runFrom (step cache key) (init workers) es = some s) (a : SocketAddr) :
    a ∈ s.node.blockedLeaders ↔ Node.BlockedByLatest s.node.attempts a := by
  obtain ⟨fs, hfs⟩ := exists_node_run cache key hrun
  have hkeep : ∀ t e t', (∀ a, a ∈ t.blockedLeaders ↔ Node.BlockedByLatest t.attempts a) →
      Node.step cache key t e = some t' →
      ∀ a, a ∈ t'.blockedLeaders ↔ Node.BlockedByLatest t'.attempts a :=
    fun t e t' ht h => Node.blocked_step cache key ht h
  exact runFrom_invariant hkeep (Node.refreshed_init workers).blocked hfs a

/-- **The age of the block list.** Suppose that the thread is never run more than `lateness`
milliseconds later than it could be, and that an attempt with this delay fits between two ticks.
As long as it is alive, the latest attempt that has ended began no longer ago than the interval, a
timeout and twice the delay. If this attempt found a deny policy, the block list is what it
found. -/
theorem block_list_age {workers : ω} {es : List ClockedEvent} {s : ClockedNode ω} {lateness : ℕ}
    (hlateness : TIMEOUT + lateness ≤ REFRESH_LIST_DURATION)
    (hrun : runFrom (step cache key) (init workers) es = some s)
    (htime : AllSteps (step cache key) (OnTime lateness) (init workers) es)
    (halive : ¬ Node.Ended s.node.phase) :
    (s.node.attempts = [] → s.clock.now ≤ TIMEOUT + 2 * lateness) ∧
    ∀ earlier attempt, s.node.attempts = earlier ++ [attempt] →
      (∃ began, s.clock.begun.getLast? = some began ∧
        s.clock.now ≤ began + REFRESH_LIST_DURATION + TIMEOUT + 2 * lateness) ∧
      ((∃ found, attempt.Yields found) → ∀ a, a ∈ s.node.blockedLeaders ↔
        ∃ nodes ids, attempt.Yields (nodes, ids) ∧
          ∃ node ∈ nodes, node.tpuQuic = some a ∧ ∃ id ∈ ids, node.pubkey = id.toText) := by
  have hstart : Fresh lateness (init workers) := Or.inr (PeriodicTask.fresh_init _ _ lateness)
  have hfresh := runFrom_invariant_of_allSteps (fresh_step cache key) hstart htime hrun
  have hnow := PeriodicTask.now_le_of_fresh (hfresh.resolve_left halive)
  have hlength := (runFrom_invariant (inStep_step cache key) (inStep_init workers) hrun).attempts
  refine ⟨fun hnone => ?_, fun earlier attempt hattempts => ⟨?_, fun hgood a => ?_⟩⟩
  · rw [hnone] at hlength
    rw [PeriodicTask.due, List.eq_nil_of_length_eq_zero hlength] at hnow
    simpa using hnow
  · rw [hattempts, List.length_append] at hlength
    have hne : s.clock.begun ≠ [] := fun hnil => by simp [hnil] at hlength
    refine ⟨_, List.getLast?_eq_some_getLast hne, ?_⟩
    rw [PeriodicTask.due, List.getLast?_eq_some_getLast hne] at hnow
    simp only at hnow
    omega
  · rw [blocked_run cache key hrun, Node.blockedByLatest_iff, hattempts]
    refine exists₂_congr fun nodes ids => and_congr_left' ?_
    rw [latest_concat]
    refine or_iff_left fun hold => ?_
    obtain ⟨found, hfound⟩ := hgood
    exact hold.1 found hfound

theorem onTime_lateRun :
    AllSteps (step WorkersCache.accepting Node.zeroKey) (OnTime 30) (init ()) lateRun := by
  have hfirst : 0 + 100 ≤ 0 + TIMEOUT + 30 := by decide
  have hsecond : 100 + 50 ≤ 0 + TIMEOUT + 30 := by decide
  have hidle : 150 + 599880 ≤ max REFRESH_LIST_DURATION 150 + 30 := by decide
  apply allSteps_cons_of_step trivial rfl
  apply allSteps_cons_of_step (fun _ => hfirst) rfl
  apply allSteps_cons_of_step trivial rfl
  apply allSteps_cons_of_step (fun _ => hsecond) rfl
  apply allSteps_cons_of_step trivial rfl
  apply allSteps_cons_of_step (fun _ => hidle) rfl
  exact allSteps_cons_of_step trivial rfl trivial

theorem block_list_age_lateRun :
    ∃ s began, runFrom (step WorkersCache.accepting Node.zeroKey) (init ()) lateRun = some s ∧
      s.node.blockedLeaders = {System.localAddr 8001} ∧ s.clock.begun.getLast? = some began ∧
      s.clock.now ≤ began + REFRESH_LIST_DURATION + TIMEOUT + 2 * 30 := by
  have halive : ¬ Node.Ended .clusterNodes := by simp [Node.Ended]
  obtain ⟨began, hbegan, hage⟩ := ((@block_list_age _ _ WorkersCache.accepting Node.zeroKey ()
    lateRun _ 30 (by decide) rfl onTime_lateRun halive).2 [] _ rfl).1
  exact ⟨_, began, rfl, rfl, hbegan, hage⟩

end ClockedNode

end Iris
