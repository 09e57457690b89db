import Mathlib.Data.List.Count
import Mathlib.Data.Option.Basic

/-!
# Taking turns

Numbers that are given the values of a list in turn.

* `turn`: the value of a number; `map_turn_mul`: whole rounds;
* **`count_turns`**: among the first numbers each value is given out as often as it is in the list,
  for every whole round, and at most once more for the last one.
-/

variable {α : Type*}

/-- The value that is given to number `i`. -/
def turn (values : List α) (i : ℕ) : Option α := values[i % values.length]?

namespace RoundRobin

theorem turn_add (values : List α) (rounds i : ℕ) :
    turn values (rounds * values.length + i) = turn values i := by
  rw [turn, turn, Nat.mul_comm, Nat.mul_add_mod]

theorem map_turn_length (values : List α) :
    (List.range values.length).map (turn values) = values.map some := by
  apply List.ext_getElem?
  intro i
  rw [List.getElem?_map, List.getElem?_map]
  by_cases hi : i < values.length
  · rw [List.getElem?_range hi, Option.map_some, turn, Nat.mod_eq_of_lt hi,
      List.getElem?_eq_getElem hi]
    rfl
  · have hle := Nat.not_lt.mp hi
    have hrange : (List.range values.length).length ≤ i := by rwa [List.length_range]
    rw [List.getElem?_eq_none hrange, List.getElem?_eq_none hle]
    rfl

/-- **Whole rounds.** -/
theorem map_turn_mul (values : List α) (rounds : ℕ) :
    (List.range (rounds * values.length)).map (turn values) =
      (List.replicate rounds (values.map some)).flatten := by
  induction rounds with
  | zero =>
    rw [Nat.zero_mul]
    rfl
  | succ rounds ih =>
    have hround : (List.range values.length).map
        (turn values ∘ fun i => rounds * values.length + i) = values.map some := by
      rw [← map_turn_length]
      exact congrArg (fun f => (List.range values.length).map f) (funext (turn_add values rounds))
    rw [Nat.succ_mul, List.range_add, List.map_append, List.map_map, hround, ih,
      List.replicate_succ', List.flatten_append, List.flatten_singleton]

variable [DecidableEq α]

theorem count_rounds (values : List α) (rounds : ℕ) (a : α) :
    ((List.range (rounds * values.length)).map (turn values)).count (some a) =
      rounds * values.count a := by
  rw [map_turn_mul, List.count_flatten, List.map_replicate, List.sum_replicate_nat,
    List.count_map_of_injective values some (Option.some_injective α)]

/-- More numbers, more turns. -/
theorem count_turns_mono (values : List α) (a : α) {m n : ℕ} (h : m ≤ n) :
    ((List.range m).map (turn values)).count (some a) ≤
      ((List.range n).map (turn values)).count (some a) :=
  ((List.range_sublist.mpr h).map (turn values)).count_le (some a)

/-- **Fair turns.** -/
theorem count_turns {values : List α} (hvalues : values ≠ []) (n : ℕ) (a : α) :
    n / values.length * values.count a ≤
      ((List.range n).map (turn values)).count (some a) ∧
    ((List.range n).map (turn values)).count (some a) ≤
      (n / values.length + 1) * values.count a := by
  have hpos : 0 < values.length := List.length_pos_iff.mpr hvalues
  rw [← count_rounds, ← count_rounds]
  refine ⟨count_turns_mono values a (Nat.div_mul_le_self n values.length), ?_⟩
  refine count_turns_mono values a (Nat.le_of_lt ?_)
  rw [Nat.mul_comm]
  exact Nat.lt_mul_div_succ n hpos

end RoundRobin
