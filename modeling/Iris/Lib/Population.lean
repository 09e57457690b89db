import Iris.Lib.Run

/-!
# Populations of machines

Machines that join a population one after the other and take steps in any order, each on its own.

* `PopulationEvent`, `Population.step`: a machine joins, or one of them takes a step;
* `joined`, `eventsOf`: those that have joined, as they were then, and what happened to one of them;
* **`member_run`**: a member is where its own events take it, whatever the others do;
* `length_of_run`: nobody leaves.
-/

namespace Lts

variable {μ α : Type*} (mstep : μ → α → Option μ)

/-- What can happen in a population. -/
inductive PopulationEvent (μ α : Type*)
  | join (m : μ)
  | act (i : ℕ) (a : α)

namespace Population

/-- One step. -/
def step (members : List μ) : PopulationEvent μ α → Option (List μ)
  | .join m => some (members ++ [m])
  | .act i a => members[i]?.bind fun m => (mstep m a).map fun m' => members.set i m'

/-- Those that have joined. -/
def joined (es : List (PopulationEvent μ α)) : List μ :=
  es.filterMap fun
    | .join m => some m
    | .act _ _ => none

/-- What happened to the member in place `i`. -/
def eventsOf (i : ℕ) (es : List (PopulationEvent μ α)) : List α :=
  es.filterMap fun
    | .join _ => none
    | .act j a => if j = i then some a else none

theorem joined_concat_join (es : List (PopulationEvent μ α)) (m : μ) :
    joined (es ++ [.join m]) = joined es ++ [m] := by
  rw [joined, List.filterMap_append]
  rfl

theorem joined_concat_act (es : List (PopulationEvent μ α)) (i : ℕ) (a : α) :
    joined (es ++ [.act i a]) = joined es := by
  rw [joined, List.filterMap_append]
  exact List.append_nil _

theorem eventsOf_concat_join (i : ℕ) (es : List (PopulationEvent μ α)) (m : μ) :
    eventsOf i (es ++ [.join m]) = eventsOf i es := by
  rw [eventsOf, List.filterMap_append]
  exact List.append_nil _

theorem eventsOf_concat_act (i j : ℕ) (es : List (PopulationEvent μ α)) (a : α) :
    eventsOf i (es ++ [.act j a]) = eventsOf i es ++ if j = i then [a] else [] := by
  rw [eventsOf, List.filterMap_append]
  by_cases hij : j = i <;> simp [eventsOf, hij]

/-- A run so far: nobody has left, each member is where its events took it, and nothing has
happened in a place that is not taken. -/
structure Tracks (es : List (PopulationEvent μ α)) (members : List μ) : Prop where
  length : members.length = (joined es).length
  member : ∀ (i : ℕ) (m₀ m : μ), (joined es)[i]? = some m₀ → members[i]? = some m →
    runFrom mstep m₀ (eventsOf i es) = some m
  vacant : ∀ i, members.length ≤ i → eventsOf i es = []

/-- **One step.** -/
theorem tracks_step (es : List (PopulationEvent μ α)) (members : List μ)
    (e : PopulationEvent μ α) (members' : List μ) (hs : Tracks mstep es members)
    (h : step mstep members e = some members') : Tracks mstep (es ++ [e]) members' := by
  obtain ⟨hlength, hmember, hvacant⟩ := hs
  cases e with
  | join m =>
    cases h
    refine ⟨?_, fun i m₀ m' hi hi' => ?_, fun i hi => ?_⟩
    · rw [joined_concat_join, List.length_append, List.length_append, hlength]
    · rw [eventsOf_concat_join]
      rw [joined_concat_join] at hi
      by_cases hlt : i < members.length
      · rw [List.getElem?_append_left hlt] at hi'
        rw [List.getElem?_append_left (hlength ▸ hlt)] at hi
        exact hmember i m₀ m' hi hi'
      · -- the one that has just joined
        rw [List.getElem?_append_right (Nat.not_lt.mp hlt)] at hi'
        rw [List.getElem?_append_right (hlength ▸ Nat.not_lt.mp hlt), ← hlength] at hi
        rw [hvacant i (Nat.not_lt.mp hlt), Option.some.inj (hi.symm.trans hi')]
        rfl
    · rw [eventsOf_concat_join]
      rw [List.length_append] at hi
      exact hvacant i (Nat.le_of_add_right_le hi)
  | act j a =>
    obtain ⟨m, hj, hact⟩ := Option.bind_eq_some_iff.mp h
    obtain ⟨m', hstep, rfl⟩ := Option.map_eq_some_iff.mp hact
    have hlt : j < members.length := (List.getElem?_eq_some_iff.mp hj).1
    refine ⟨?_, fun i m₀ m'' hi hi' => ?_, fun i hi => ?_⟩
    · rw [List.length_set, joined_concat_act, hlength]
    · rw [eventsOf_concat_act]
      rw [joined_concat_act] at hi
      by_cases hij : j = i
      · subst hij
        rw [List.getElem?_set_self hlt] at hi'
        cases hi'
        rw [if_pos rfl]
        exact runFrom_concat (hmember j m₀ m hi hj) hstep
      · rw [List.getElem?_set_ne hij] at hi'
        rw [if_neg hij, List.append_nil]
        exact hmember i m₀ m'' hi hi'
    · rw [List.length_set] at hi
      rw [eventsOf_concat_act, if_neg (by omega), List.append_nil]
      exact hvacant i hi

theorem tracks_run {es : List (PopulationEvent μ α)} {members : List μ}
    (hrun : runFrom (step mstep) [] es = some members) : Tracks mstep es members :=
  runFrom_history (tracks_step mstep) ⟨rfl, nofun, fun _ _ => rfl⟩ hrun

/-- **Each on its own.** Whatever the others do, a member is where its own events take it from
where it was when it joined. -/
theorem member_run {es : List (PopulationEvent μ α)} {members : List μ} {i : ℕ} {m₀ m : μ}
    (hrun : runFrom (step mstep) [] es = some members) (hjoined : (joined es)[i]? = some m₀)
    (hi : members[i]? = some m) : runFrom mstep m₀ (eventsOf i es) = some m :=
  (tracks_run mstep hrun).member i m₀ m hjoined hi

theorem length_of_run {es : List (PopulationEvent μ α)} {members : List μ}
    (hrun : runFrom (step mstep) [] es = some members) : members.length = (joined es).length :=
  (tracks_run mstep hrun).length

end Population

end Lts
