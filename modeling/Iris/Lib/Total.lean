import Mathlib.Algebra.Order.BigOperators.Group.List
import Mathlib.Algebra.Order.Ring.Nat
import Mathlib.Data.List.Induction

/-!
# Totals over a population

The members of a population change one at a time, and each contributes a number to a total.

* `total`, `total_concat`, `total_append`, **`total_set`**: a new member, several of them, and a
  member that changes;
* `total_add`, `total_le`, `total_congr`: totals of sums, and their comparison member by member;
* `countP_eq_total`, `total_eq_countP_range`: counting is a total, and the other way round;
* `exists_mem_set_iff`, `getElem?_set_of`, `getElem?_concat_of`, `any_getElem?_concat`: what holds
  of some member, of each in its place, or of the one in a place.
-/

variable {α : Type*}

/-- The sum of the contributions of the members. -/
def total (f : α → ℕ) (members : List α) : ℕ := (members.map f).sum

namespace Total

variable {f g : α → ℕ} {members : List α}

theorem total_concat (f : α → ℕ) (members : List α) (a : α) :
    total f (members ++ [a]) = total f members + f a := by
  simp [total]

theorem total_append (f : α → ℕ) (members members' : List α) :
    total f (members ++ members') = total f members + total f members' := by
  simp [total]

/-- **A member that changes.** -/
theorem total_set (f : α → ℕ) {i : ℕ} {a : α} (h : members[i]? = some a) (b : α) :
    total f (members.set i b) + f a = total f members + f b := by
  induction members generalizing i with
  | nil => cases h
  | cons c members ih =>
    cases i with
    | zero =>
      cases h
      simp only [total, List.set_cons_zero, List.map_cons, List.sum_cons]
      omega
    | succ i =>
      have hrest := ih (i := i) h
      simp only [total, List.set_cons_succ, List.map_cons, List.sum_cons] at hrest ⊢
      omega

theorem total_add (f g : α → ℕ) (members : List α) :
    total (fun a => f a + g a) members = total f members + total g members := by
  induction members with
  | nil => rfl
  | cons a members ih =>
    simp only [total, List.map_cons, List.sum_cons] at ih ⊢
    omega

theorem total_le (h : ∀ a ∈ members, f a ≤ g a) : total f members ≤ total g members :=
  List.sum_le_sum h

theorem total_congr (h : ∀ a ∈ members, f a = g a) : total f members = total g members := by
  rw [total, List.map_congr_left h]
  rfl

theorem countP_eq_total (p : α → Bool) (members : List α) :
    members.countP p = total (fun a => if p a then 1 else 0) members := by
  induction members with
  | nil => rfl
  | cons a members ih =>
    rw [List.countP_cons, ih, total, total, List.map_cons, List.sum_cons]
    omega

/-- A total of those that have a property, by their places. -/
theorem total_eq_countP_range {P : α → Prop} [DecidablePred P] {q : ℕ → Bool}
    (h : ∀ i a, members[i]? = some a → (q i = true ↔ P a)) :
    total (fun a => if P a then 1 else 0) members = (List.range members.length).countP q := by
  induction members using List.reverseRecOn with
  | nil => rfl
  | append_singleton members a ih =>
    have hlast := h members.length a (by simp)
    have hrest := ih fun i b hi => h i b (by
      rw [List.getElem?_append_left (List.getElem?_eq_some_iff.mp hi).1]
      exact hi)
    rw [total_concat, hrest, List.length_append, List.length_singleton, List.range_succ,
      List.countP_append, List.countP_singleton]
    simp only [hlast]

/-! ## Members and their places -/

/-- Some member has the property, after one of them has changed. -/
theorem exists_mem_set_iff {P : α → Prop} {Q : Prop} {i : ℕ} {a b : α} (h : members[i]? = some a)
    (hab : P b ↔ P a ∨ Q) : (∃ x ∈ members.set i b, P x) ↔ (∃ x ∈ members, P x) ∨ Q := by
  induction members generalizing i with
  | nil => cases h
  | cons c members ih =>
    cases i with
    | zero =>
      cases h
      simp only [List.set_cons_zero, List.mem_cons, exists_eq_or_imp, hab]
      exact or_right_comm
    | succ i =>
      have hrest := ih (i := i) h
      simp only [List.set_cons_succ, List.mem_cons, exists_eq_or_imp, hrest]
      exact or_assoc.symm

/-- What each member has in its place, it has after one of them has changed. -/
theorem getElem?_set_of {P : ℕ → α → Prop} (hmembers : ∀ j x, members[j]? = some x → P j x)
    {i : ℕ} {b : α} (hb : P i b) {j : ℕ} {x : α} (h : (members.set i b)[j]? = some x) : P j x := by
  rw [List.getElem?_set] at h
  split_ifs at h with hij hlt
  · cases h
    exact hij ▸ hb
  · exact hmembers j x h

/-- What each member has in its place, it has after one more has come. -/
theorem getElem?_concat_of {P : ℕ → α → Prop} (hmembers : ∀ j x, members[j]? = some x → P j x)
    {b : α} (hb : P members.length b) {j : ℕ} {x : α} (h : (members ++ [b])[j]? = some x) :
    P j x := by
  rw [List.getElem?_append] at h
  split_ifs at h with hlt
  · exact hmembers j x h
  · have hj : j - members.length = 0 := by
      by_contra hne
      rw [List.getElem?_singleton, if_neg hne] at h
      cases h
    have heq : j = members.length := by omega
    rw [hj] at h
    cases h
    exact heq ▸ hb

/-- Whether there is a member in a place that has the property, after one more has come. -/
theorem any_getElem?_concat (p : α → Bool) (members : List α) (a : α) (i : ℕ) :
    (members ++ [a])[i]?.any p = (members[i]?.any p || (p a && i == members.length)) := by
  by_cases hlt : i < members.length
  · rw [List.getElem?_append_left hlt, beq_eq_false_iff_ne.mpr (Nat.ne_of_lt hlt), Bool.and_false,
      Bool.or_false]
  · have hle := Nat.not_lt.mp hlt
    rw [List.getElem?_append_right hle, List.getElem?_eq_none hle, List.getElem?_singleton]
    by_cases heq : i = members.length
    · simp [heq]
    · have hne : i - members.length ≠ 0 := by omega
      simp [hne, heq]

end Total
