import Mathlib.Logic.Basic

/-!
# Results of code that can fail or panic

An `Outcome` is a value, an error, or a panic. Errors are passed on by `bind` and can be dressed
by `mapErr`; a panic can only be passed on.

* `Outcome`, its monad, `ofExcept`, `mapErr`;
* `bind_eq_ok`, `mapErr_eq_ok`: when a composed computation gives a value;
* **`bind_ne_panicked`**: and when it cannot panic.
-/

/-- A value, an error, or a panic. -/
inductive Outcome (ε α : Type)
  | ok (a : α)
  | err (e : ε)
  | panicked
deriving DecidableEq, Repr

namespace Outcome

variable {ε α β : Type}

instance : Monad (Outcome ε) where
  pure := ok
  bind x f := match x with
    | ok a => f a
    | err e => err e
    | panicked => panicked

def ofExcept : Except ε α → Outcome ε α
  | .ok a => ok a
  | .error e => err e

/-- Change the error. -/
def mapErr (f : ε → ε) : Outcome ε α → Outcome ε α
  | ok a => ok a
  | err e => err (f e)
  | panicked => panicked

@[simp] theorem pure_eq_ok (a : α) : (pure a : Outcome ε α) = ok a := rfl

@[simp] theorem ok_bind (a : α) (f : α → Outcome ε β) : (ok a >>= f) = f a := rfl

theorem bind_eq_ok {x : Outcome ε α} {f : α → Outcome ε β} {b : β} :
    (x >>= f) = ok b ↔ ∃ a, x = ok a ∧ f a = ok b := by
  cases x <;> simp

theorem mapErr_eq_ok {f : ε → ε} {x : Outcome ε α} {a : α} : mapErr f x = ok a ↔ x = ok a := by
  cases x <;> simp [mapErr]

theorem ofExcept_eq_ok {x : Except ε α} {a : α} : ofExcept x = ok a ↔ x = .ok a := by
  cases x <;> simp [ofExcept]

/-- **A composed computation does not panic** if its parts do not. -/
theorem bind_ne_panicked {x : Outcome ε α} {f : α → Outcome ε β} (hx : x ≠ panicked)
    (hf : ∀ a, x = ok a → f a ≠ panicked) : (x >>= f) ≠ panicked := by
  cases x with
  | ok a => exact hf a rfl
  | err e => simp
  | panicked => exact absurd rfl hx

theorem mapErr_ne_panicked {f : ε → ε} {x : Outcome ε α} (hx : x ≠ panicked) :
    mapErr f x ≠ panicked := by
  cases x <;> simp_all [mapErr]

theorem ofExcept_ne_panicked (x : Except ε α) : ofExcept x ≠ panicked := by
  cases x <;> simp [ofExcept]

end Outcome
