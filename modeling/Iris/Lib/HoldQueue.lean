import Mathlib.Data.List.Range
import Mathlib.Order.Interval.Finset.Nat

/-!
# Hold-back queues

In every round at most one item arrives, marked as one that must wait or one that need not, and a
gate is open or shut. While the gate is shut, items that must wait are held and the others leave
at once; an open gate lets out everything held, in order, and then the arrival of the round.

* `step`, `heldAfter`, `releasedIn`: the queue, round by round;
* **`heldAfter_eq`**, **`releasedIn_eq`**: the closed form of a run, by arrival round;
* **`released_append_held_perm`**: over a run nothing is lost and nothing is duplicated;
* **`length_kept`**: how many are held after a round;
* **`filter_released`**: the items that need not wait pass as if nothing else were there;
* **`filter_round`**: and each of the two kinds stays in order.
-/

open scoped List

namespace HoldQueue

variable {α : Type*}

/-- One round: what arrives, marked `true` when it must wait, and whether the gate is shut. -/
structure Round (α : Type*) where
  arrival : Option (α × Bool)
  shut : Bool

/-- One round of the queue: the items released and the items held after it. -/
def step (held : List α) : Round α → List α × List α
  | ⟨some (a, true), true⟩ => ([], held ++ [a])
  | ⟨some (a, false), true⟩ => ([a], held)
  | ⟨none, true⟩ => ([], held)
  | ⟨some (a, _), false⟩ => (held ++ [a], [])
  | ⟨none, false⟩ => (held, [])

/-- The items held after `n` rounds, from the empty queue. -/
def heldAfter (rs : ℕ → Round α) : ℕ → List α
  | 0 => []
  | n + 1 => (step (heldAfter rs n) (rs n)).2

/-- The items released in round `n`. -/
def releasedIn (rs : ℕ → Round α) (n : ℕ) : List α := (step (heldAfter rs n) (rs n)).1

/-! ## The closed form -/

/-- The arrival of round `i`, if it is still held after `n` rounds: it must wait, and the gate has
been shut from round `i` on. -/
def waiting (rs : ℕ → Round α) (n i : ℕ) : Option α :=
  match (rs i).arrival with
  | some (a, true) => if ∀ k ∈ Finset.Ico i n, (rs k).shut = true then some a else none
  | _ => none

/-- The arrival of round `i`, if round `n` releases it: either it must wait and `n` is the first
open round from `i` on, or it need not wait and has just arrived. -/
def leaving (rs : ℕ → Round α) (n i : ℕ) : Option α :=
  match (rs i).arrival with
  | some (a, true) =>
    if (rs n).shut = false ∧ ∀ k ∈ Finset.Ico i n, (rs k).shut = true then some a else none
  | some (a, false) => if i = n then some a else none
  | none => none

variable (rs : ℕ → Round α) {n i : ℕ}

theorem waiting_succ (hi : i ≤ n) :
    waiting rs (n + 1) i = if (rs n).shut = true then waiting rs n i else none := by
  have hall : (∀ k ∈ Finset.Ico i (n + 1), (rs k).shut = true) ↔
      (rs n).shut = true ∧ ∀ k ∈ Finset.Ico i n, (rs k).shut = true := by
    simp only [Finset.mem_Ico]
    constructor
    · exact fun h => ⟨h n ⟨hi, by omega⟩, fun k hk => h k ⟨hk.1, by omega⟩⟩
    · rintro ⟨hn, h⟩ k ⟨h1, h2⟩
      rcases Nat.lt_succ_iff_lt_or_eq.mp h2 with h2 | rfl
      · exact h k ⟨h1, h2⟩
      · exact hn
  rcases h : (rs i).arrival with _ | ⟨a, _ | _⟩
  · simp [waiting, h]
  · simp [waiting, h]
  · simp only [waiting, h, hall, ite_and]

theorem leaving_of_lt (hi : i < n) :
    leaving rs n i = if (rs n).shut = true then none else waiting rs n i := by
  rcases h : (rs i).arrival with _ | ⟨a, _ | _⟩
  · simp [leaving, waiting, h]
  · simp [leaving, waiting, h, hi.ne]
  · cases hs : (rs n).shut <;> simp [leaving, waiting, h, hs]

theorem filterMap_waiting_succ :
    (List.range n).filterMap (waiting rs (n + 1)) =
      if (rs n).shut = true then (List.range n).filterMap (waiting rs n) else [] := by
  have h : ∀ i ∈ List.range n,
      waiting rs (n + 1) i = if (rs n).shut = true then waiting rs n i else none := fun i hi =>
    waiting_succ rs (List.mem_range.mp hi).le
  rw [List.filterMap_congr h]
  split_ifs
  · rfl
  · exact List.filterMap_none _

theorem filterMap_leaving :
    (List.range n).filterMap (leaving rs n) =
      if (rs n).shut = true then [] else (List.range n).filterMap (waiting rs n) := by
  have h : ∀ i ∈ List.range n,
      leaving rs n i = if (rs n).shut = true then none else waiting rs n i := fun i hi =>
    leaving_of_lt rs (List.mem_range.mp hi)
  rw [List.filterMap_congr h]
  split_ifs
  · exact List.filterMap_none _
  · rfl

/-- **What is held.** After `n` rounds: the items that must wait and have met no open round. -/
theorem heldAfter_eq (n : ℕ) : heldAfter rs n = (List.range n).filterMap (waiting rs n) := by
  induction n with
  | zero => rfl
  | succ n ih =>
    rw [heldAfter, ih, List.range_succ, List.filterMap_append, filterMap_waiting_succ]
    have hn : ∀ k ∈ Finset.Ico n n, (rs k).shut = true := by simp
    rcases hr : rs n with ⟨_ | ⟨a, _ | _⟩, _ | _⟩ <;>
      simp [step, waiting, hr]

/-- **What is released.** In round `n`: the items that must wait and meet their first open round,
and an arrival that need not wait. -/
theorem releasedIn_eq (n : ℕ) :
    releasedIn rs n = (List.range (n + 1)).filterMap (leaving rs n) := by
  rw [releasedIn, heldAfter_eq, List.range_succ, List.filterMap_append, filterMap_leaving]
  rcases hr : rs n with ⟨_ | ⟨a, _ | _⟩, _ | _⟩ <;> simp [step, leaving, hr]

/-! ## One round -/

theorem step_perm (held : List α) (r : Round α) :
    (step held r).1 ++ (step held r).2 ~ held ++ (r.arrival.map Prod.fst).toList := by
  rcases r with ⟨_ | ⟨a, _ | _⟩, _ | _⟩ <;> simp only [step, Option.map_none, Option.map_some,
    Option.toList_none, Option.toList_some, List.append_nil, List.nil_append]
  all_goals try rfl
  -- an arrival that need not wait overtakes what is held
  exact List.perm_append_comm

theorem mem_step_iff {held : List α} {r : Round α} {a : α} :
    a ∈ (step held r).1 ∨ a ∈ (step held r).2 ↔ a ∈ held ∨ ∃ b, r.arrival = some (a, b) := by
  rw [← List.mem_append, (step_perm held r).mem_iff, List.mem_append]
  simp

theorem mem_of_mem_kept {held : List α} {r : Round α} {a : α} (h : a ∈ (step held r).2) :
    a ∈ held ∨ r.arrival = some (a, true) := by
  rcases r with ⟨_ | ⟨x, _ | _⟩, _ | _⟩ <;> simp_all [step]
  exact h.imp_right Eq.symm

/-- A shut gate lets out nothing but an arrival that need not wait. -/
theorem arrival_of_mem_released {held : List α} {r : Round α} (hr : r.shut = true) {a : α}
    (h : a ∈ (step held r).1) : r.arrival = some (a, false) := by
  rcases r with ⟨_ | ⟨x, _ | _⟩, _ | _⟩ <;> simp_all [step]

/-- An open gate leaves nothing behind. -/
theorem kept_of_open {held : List α} {r : Round α} (hr : r.shut = false) :
    (step held r).2 = [] := by
  rcases r with ⟨_ | ⟨x, _ | _⟩, _ | _⟩ <;> simp_all [step]

/-! ## How many are held -/

/-- The items, one at most, that the round adds to those held. -/
def Round.entering (r : Round α) : ℕ :=
  match r with
  | ⟨some (_, true), true⟩ => 1
  | _ => 0

/-- The number of held items that the round lets out. -/
def Round.letOut (r : Round α) (held : List α) : ℕ := if r.shut then 0 else held.length

/-- **The balance of a round.** -/
theorem length_kept (held : List α) (r : Round α) :
    (step held r).2.length + r.letOut held = held.length + r.entering := by
  rcases r with ⟨_ | ⟨a, _ | _⟩, _ | _⟩ <;> simp [step, Round.letOut, Round.entering]

/-! ## Items that need not wait -/

/-- The arrival of the round, if it need not wait. -/
def Round.passing (r : Round α) : Option α :=
  match r.arrival with
  | some (a, false) => some a
  | _ => none

/-- **Passing items are not disturbed.** If `p` tells the items that need not wait from the others,
a round releases of the former just its own arrival, whatever is held and whether or not the gate
is shut. -/
theorem filter_released {p : α → Bool} {held : List α} {r : Round α}
    (hheld : ∀ a ∈ held, p a = false) (harrival : ∀ a b, r.arrival = some (a, b) → p a = !b) :
    (step held r).1.filter p = r.passing.toList := by
  have hnone : held.filter p = [] := List.filter_eq_nil_iff.mpr (by simpa using hheld)
  rcases r with ⟨_ | ⟨a, _ | _⟩, _ | _⟩
  · exact hnone
  · rfl
  all_goals
    have ha := harrival a _ rfl
    simp [step, Round.passing, hnone, ha]

/-- **Order within a class.** Among the items that need not wait, and among those that must, a
round keeps the order: first what is released, then what is kept. -/
theorem filter_round {p q : α → Bool} {held : List α} {r : Round α}
    (hheld : ∀ a ∈ held, p a = false) (harrival : ∀ a b, r.arrival = some (a, b) → p a = !b)
    (hq : q = p ∨ q = fun a => !p a) :
    ((step held r).1 ++ (step held r).2).filter q =
      (held ++ (r.arrival.map Prod.fst).toList).filter q := by
  have hnone : held.filter p = [] := List.filter_eq_nil_iff.mpr (by simpa using hheld)
  rcases r with ⟨_ | ⟨a, _ | _⟩, _ | _⟩
  -- only an arrival that need not wait and finds the gate shut overtakes anything
  case some.false.true =>
    have ha : p a = true := harrival a false rfl
    rcases hq with rfl | rfl
    · simp [step, hnone, ha]
    · simp [step, ha]
  all_goals simp [step]

/-- What is held are items that must wait. -/
theorem marked_of_mem_kept {p : α → Bool} {held : List α} {r : Round α}
    (hheld : ∀ a ∈ held, p a = false) (harrival : ∀ a b, r.arrival = some (a, b) → p a = !b) :
    ∀ a ∈ (step held r).2, p a = false := by
  intro a ha
  rcases mem_of_mem_kept ha with ha | ha
  · exact hheld a ha
  · exact harrival a true ha

/-! ## Nothing lost, nothing duplicated -/

/-- **Conservation.** After `n` rounds the items released and the items held are the arrivals. -/
theorem released_append_held_perm (n : ℕ) :
    (List.range n).flatMap (releasedIn rs) ++ heldAfter rs n ~
      (List.range n).filterMap fun i => (rs i).arrival.map Prod.fst := by
  induction n with
  | zero => exact List.Perm.refl _
  | succ n ih =>
    rw [List.range_succ, List.flatMap_append, List.filterMap_append, List.append_assoc]
    have hlast : [n].filterMap (fun i => (rs i).arrival.map Prod.fst) =
        ((rs n).arrival.map Prod.fst).toList := by
      cases h : (rs n).arrival <;> simp [h]
    have hstep : [n].flatMap (releasedIn rs) ++ heldAfter rs (n + 1) ~
        heldAfter rs n ++ ((rs n).arrival.map Prod.fst).toList := by
      rw [List.flatMap_singleton]
      exact step_perm _ _
    rw [hlast]
    refine (hstep.append_left _).trans ?_
    rw [← List.append_assoc]
    exact ih.append_right _

end HoldQueue
