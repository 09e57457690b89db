import Mathlib.Data.List.Basic
import Mathlib.Logic.Basic

/-!
# Bounded channels

A first-in first-out channel that holds at most `capacity` values. A sender is told whether its
value was accepted; nothing is accepted once the receiver has gone.

* `BoundedChannel`: the channel, which cannot hold more;
* `Reply`, `reply`, `offer`: the side of the sender; **`waiting_offer`**, `reply_eq_accepted_iff`,
  `reply_eq_full_iff`: when a value is accepted, and where it waits;
* `take`, `close`: the side of the receiver; **`take_eq_some_iff`**.
-/

/-- What becomes of an offer. -/
inductive Reply
  | accepted
  | full
  | closed
deriving DecidableEq, Repr

@[ext]
structure BoundedChannel (α : Type*) (capacity : ℕ) where
  waiting : List α
  closed : Bool
  bounded : waiting.length ≤ capacity

namespace BoundedChannel

variable {α : Type*} {capacity : ℕ}

def empty : BoundedChannel α capacity := ⟨[], false, Nat.zero_le _⟩

/-- The answer to an offer. -/
def reply (c : BoundedChannel α capacity) : Reply :=
  if c.closed then .closed else if c.waiting.length < capacity then .accepted else .full

/-- What waits after an offer. -/
def offered (c : BoundedChannel α capacity) (a : α) : List α :=
  if c.reply = .accepted then c.waiting ++ [a] else c.waiting

theorem reply_eq_accepted_iff {c : BoundedChannel α capacity} :
    c.reply = .accepted ↔ c.closed = false ∧ c.waiting.length < capacity := by
  unfold reply
  split_ifs with hclosed hlen <;> simp_all

/-- **A channel is full** when it holds as many values as it can. -/
theorem reply_eq_full_iff {c : BoundedChannel α capacity} :
    c.reply = .full ↔ c.closed = false ∧ c.waiting.length = capacity := by
  have hle := c.bounded
  unfold reply
  split_ifs with hclosed hlen
  · simp [hclosed]
  · simp only [false_iff, not_and]
    omega
  · simp only [true_iff]
    exact ⟨Bool.eq_false_iff.mpr hclosed, by omega⟩

theorem reply_eq_closed_iff {c : BoundedChannel α capacity} :
    c.reply = .closed ↔ c.closed = true := by
  unfold reply
  split_ifs with hclosed hlen <;> simp_all

theorem length_offered_le (c : BoundedChannel α capacity) (a : α) :
    (c.offered a).length ≤ capacity := by
  unfold offered
  split_ifs with haccepted
  · rw [List.length_append, List.length_singleton]
    exact (reply_eq_accepted_iff.mp haccepted).2
  · exact c.bounded

/-- A sender offers a value. -/
def offer (c : BoundedChannel α capacity) (a : α) : BoundedChannel α capacity :=
  ⟨c.offered a, c.closed, c.length_offered_le a⟩

/-- The receiver takes the value that has waited longest. -/
def take : BoundedChannel α capacity → Option (α × BoundedChannel α capacity)
  | ⟨a :: rest, false, hbounded⟩ => some (a, ⟨rest, false, Nat.le_of_succ_le hbounded⟩)
  | _ => none

/-- The receiver goes; what waits is not received any more. -/
def close (c : BoundedChannel α capacity) : BoundedChannel α capacity := { c with closed := true }

/-- **A value that is accepted** waits behind the others; another leaves no trace. -/
theorem waiting_offer (c : BoundedChannel α capacity) (a : α) :
    (c.offer a).waiting = c.waiting ++ if c.reply = .accepted then [a] else [] := by
  show c.offered a = _
  unfold offered
  split_ifs
  · rfl
  · exact (List.append_nil _).symm

/-- **What is taken** has waited longest. -/
theorem take_eq_some_iff {c c' : BoundedChannel α capacity} {a : α} :
    c.take = some (a, c') ↔ c.closed = false ∧ c'.closed = false ∧ c.waiting = a :: c'.waiting := by
  obtain ⟨waiting, closed, hbounded⟩ := c
  obtain ⟨waiting', closed', hbounded'⟩ := c'
  constructor
  · intro h
    unfold take at h
    split at h
    · rename_i heq
      cases heq
      cases h
      exact ⟨rfl, rfl, rfl⟩
    · cases h
  · rintro ⟨rfl, rfl, rfl⟩
    rfl

end BoundedChannel
