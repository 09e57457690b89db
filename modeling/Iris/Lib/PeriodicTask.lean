import Iris.Lib.Run
import Mathlib.Data.List.Basic
import Mathlib.Order.Lattice

/-!
# Periodic jobs

A task that begins a job at every tick of an interval and gives it up when it has taken too long.
A tick that comes while a job is underway is caught up on; the later ticks stay where they were.
The clock is part of the state, and the task may be run later than it could be.

* `PeriodicTask`, `Event`, `step`: the task and its clock; `Did`, `did_of_step`;
* **`spaced_run`**: each job begins at its own tick or later;
* `OnTime`, `due`, `Fresh`, **`now_le_of_fresh`**: if the task is never run too late, the last job
  that has ended began not long ago.
-/

namespace Lts

/-- The time, the next tick, the time at which the job underway began, the one since which there is
none, and the times at which the jobs that have ended began. -/
structure PeriodicTask where
  now : ℕ
  next : ℕ
  underway : Option ℕ
  since : ℕ
  begun : List ℕ
deriving DecidableEq, Repr

namespace PeriodicTask

/-- What can happen next. -/
inductive Event
  | pass (duration : ℕ)
  | start
  | finish
  | expire

/-- The first tick is there at once. -/
def init : PeriodicTask := ⟨0, 0, none, 0, []⟩

/-- The end of the job that began then. -/
def ended (s : PeriodicTask) (began : ℕ) : PeriodicTask :=
  { s with underway := none, since := s.now, begun := s.begun ++ [began] }

variable (period limit : ℕ)

/-- One step. -/
def step (s : PeriodicTask) : Event → Option PeriodicTask
  | .pass duration => some { s with now := s.now + duration }
  | .start =>
    if s.underway = none ∧ s.next ≤ s.now then
      some { s with underway := some s.now, next := s.next + period }
    else none
  | .finish => s.underway.map s.ended
  | .expire =>
    s.underway.bind fun began => if began + limit ≤ s.now then some (s.ended began) else none

/-- All that a step can do. -/
inductive Did (s : PeriodicTask) : Event → PeriodicTask → Prop
  | passed (duration : ℕ) : Did s (.pass duration) { s with now := s.now + duration }
  | started (hfree : s.underway = none) (htick : s.next ≤ s.now) :
      Did s .start { s with underway := some s.now, next := s.next + period }
  | ended (e : Event) (he : e = .finish ∨ e = .expire) (began : ℕ)
      (hjob : s.underway = some began) : Did s e (s.ended began)

variable {period limit} {s s' : PeriodicTask} {e : Event}

theorem did_of_step (h : step period limit s e = some s') : Did period s e s' := by
  cases e with
  | pass duration =>
    cases h
    exact .passed duration
  | start =>
    simp only [step] at h
    split_ifs at h with hstart
    cases h
    exact .started hstart.1 hstart.2
  | finish =>
    obtain ⟨began, hjob, rfl⟩ := Option.map_eq_some_iff.mp h
    exact .ended _ (Or.inl rfl) began hjob
  | expire =>
    obtain ⟨began, hjob, h⟩ := Option.bind_eq_some_iff.mp h
    split_ifs at h
    cases h
    exact .ended _ (Or.inr rfl) began hjob

/-! ## Spacing -/

/-- The times at which all jobs have begun. -/
def jobs (s : PeriodicTask) : List ℕ := s.begun ++ s.underway.toList

variable (period) in
/-- Every job has begun at its own tick or later. -/
structure Spaced (s : PeriodicTask) : Prop where
  next : s.next = s.jobs.length * period
  begun : ∀ i t, s.jobs[i]? = some t → i * period ≤ t ∧ t ≤ s.now

theorem spaced_step (s : PeriodicTask) (e : Event) (s' : PeriodicTask) (hs : Spaced period s)
    (h : step period limit s e = some s') : Spaced period s' := by
  cases did_of_step h with
  | passed duration =>
    refine ⟨hs.next, fun i t hi => ?_⟩
    obtain ⟨hle, hnow⟩ := hs.begun i t hi
    exact ⟨hle, Nat.le_add_right_of_le hnow⟩
  | started hfree htick =>
    have hjobs : jobs { s with underway := some s.now, next := s.next + period } =
        s.jobs ++ [s.now] := by
      rw [jobs, jobs, hfree, Option.toList_none, List.append_nil]
      rfl
    constructor
    · rw [hjobs, List.length_append, List.length_singleton, Nat.succ_mul, ← hs.next]
    · intro i t hi
      rw [hjobs] at hi
      by_cases hlt : i < s.jobs.length
      · rw [List.getElem?_append_left hlt] at hi
        exact hs.begun i t hi
      · -- the job that has just begun
        rw [List.getElem?_append_right (Nat.not_lt.mp hlt)] at hi
        obtain ⟨hzero, rfl⟩ := List.getElem?_eq_some_iff.mp hi
        rw [List.length_singleton, Nat.lt_one_iff] at hzero
        have hi : i = s.jobs.length := by omega
        subst hi
        simp only [hzero, List.getElem_singleton]
        exact ⟨hs.next ▸ htick, Nat.le_refl _⟩
  | ended e he began hjob =>
    have hjobs : (s.ended began).jobs = s.jobs := by
      rw [jobs, jobs, hjob]
      exact List.append_nil _
    exact ⟨hjobs ▸ hs.next, hjobs ▸ hs.begun⟩

theorem spaced_init : Spaced period init := ⟨(Nat.zero_mul _).symm, nofun⟩

/-- **Spacing.** However late or early the jobs end, each one begins at its own tick or later. -/
theorem spaced_run {es : List Event} (hrun : runFrom (step period limit) init es = some s) :
    ∀ i t, s.jobs[i]? = some t → i * period ≤ t ∧ t ≤ s.now :=
  (runFrom_invariant spaced_step spaced_init hrun).begun

/-! ## Freshness -/

variable (period limit) (lateness : ℕ)

/-- Time does not go on by more than `lateness` when the task could be run: when there is a tick and
no job is underway, or when the job underway has reached its limit. -/
def OnTime (s : PeriodicTask) : Event → Prop
  | .pass duration =>
    match s.underway with
    | none => s.now + duration ≤ max s.next s.since + lateness
    | some began => s.now + duration ≤ began + limit + lateness
  | _ => True

/-- When the job after the last one that has ended can begin, at the latest. -/
def due (s : PeriodicTask) : ℕ :=
  match s.begun.getLast? with
  | none => 0
  | some began => max (began + period) (began + limit + lateness)

/-- Where a task is that has always been on time. -/
structure Fresh (s : PeriodicTask) : Prop where
  free : s.underway = none →
    max s.next s.since ≤ s.due period limit lateness ∧ s.now ≤ max s.next s.since + lateness
  busy : ∀ began, s.underway = some began → began ≤ s.due period limit lateness + lateness ∧
    s.now ≤ began + limit + lateness ∧ s.next ≤ began + period

theorem fresh_init : Fresh period limit lateness init :=
  ⟨fun _ => ⟨Nat.le_refl _, Nat.zero_le _⟩, nofun⟩

variable {period limit lateness}

theorem fresh_step (hs : Fresh period limit lateness s) (htime : OnTime limit lateness s e)
    (h : step period limit s e = some s') : Fresh period limit lateness s' := by
  cases did_of_step h with
  | passed duration =>
    unfold OnTime at htime
    refine ⟨fun hfree => ⟨(hs.free hfree).1, ?_⟩, fun began hjob => ?_⟩
    · rw [show s.underway = none from hfree] at htime
      exact htime
    · rw [show s.underway = some began from hjob] at htime
      obtain ⟨hbegan, -, hnext⟩ := hs.busy began hjob
      exact ⟨hbegan, htime, hnext⟩
  | started hfree htick =>
    obtain ⟨hdue, hnow⟩ := hs.free hfree
    refine ⟨nofun, fun began hjob => ?_⟩
    cases hjob
    exact ⟨hnow.trans (Nat.add_le_add_right hdue _), by show s.now ≤ _; omega,
      Nat.add_le_add_right htick _⟩
  | ended e he began hjob =>
    obtain ⟨-, hnow, hnext⟩ := hs.busy began hjob
    have hdue : (s.ended began).due period limit lateness =
        max (began + period) (began + limit + lateness) := by
      unfold due ended
      simp only [List.getLast?_concat]
    refine ⟨fun _ => ⟨?_, ?_⟩, nofun⟩
    · rw [hdue]
      show max s.next s.now ≤ _
      omega
    · exact Nat.le_add_right_of_le (le_max_right s.next s.now)

/-- **Freshness.** If the task is never run too late, the job after the last one that has ended has
not been overdue for longer than it may take. -/
theorem now_le_of_fresh (hs : Fresh period limit lateness s) :
    s.now ≤ s.due period limit lateness + limit + 2 * lateness := by
  cases hjob : s.underway with
  | none =>
    obtain ⟨hdue, hnow⟩ := hs.free hjob
    omega
  | some began =>
    obtain ⟨hbegan, hnow, -⟩ := hs.busy began hjob
    omega

end PeriodicTask

end Lts
