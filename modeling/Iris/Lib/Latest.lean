import Mathlib.Data.List.Induction
import Mathlib.Tactic.Common

/-!
# The latest entry of a log

A log is a list, the newest entry last. Some of its entries yield a value, as a relation `R` says.

* `Latest R log b`: the latest entry that yields anything yields `b`;
* **`latest_concat`**: how a new entry changes it; `exists_latest`: there is a latest value as
  soon as some entry yields one.
-/

variable {α β : Type*} {R : α → β → Prop}

variable (R) in
/-- The latest entry that yields something yields `b`. -/
def Latest (log : List α) (b : β) : Prop :=
  ∃ before a after, log = before ++ a :: after ∧ R a b ∧ ∀ x ∈ after, ∀ y, ¬ R x y

theorem not_latest_nil (b : β) : ¬ Latest R [] b := by
  rintro ⟨before, a, after, h, -⟩
  exact absurd h.symm (List.append_ne_nil_of_right_ne_nil _ (List.cons_ne_nil _ _))

theorem Latest.exists_mem {log : List α} {b : β} (h : Latest R log b) : ∃ a ∈ log, R a b := by
  obtain ⟨before, a, after, rfl, hab, -⟩ := h
  exact ⟨a, List.mem_append_right _ List.mem_cons_self, hab⟩

/-- **A new entry.** It takes over if it yields something, and changes nothing otherwise. -/
theorem latest_concat {log : List α} {a : α} {b : β} :
    Latest R (log ++ [a]) b ↔ R a b ∨ (∀ y, ¬ R a y) ∧ Latest R log b := by
  constructor
  · rintro ⟨before, c, after, h, hcb, hafter⟩
    rcases List.eq_nil_or_concat after with rfl | ⟨after, d, rfl⟩
    · obtain ⟨-, hac⟩ := List.append_inj' h rfl
      cases hac
      exact Or.inl hcb
    · rw [List.concat_eq_append, ← List.cons_append, ← List.append_assoc] at h
      obtain ⟨rfl, had⟩ := List.append_inj' h rfl
      cases had
      refine Or.inr ⟨hafter a (by simp), before, c, after, rfl, hcb, fun x hx => ?_⟩
      exact hafter x (by simp [hx])
  · rintro (hab | ⟨hnone, before, c, after, rfl, hcb, hafter⟩)
    · exact ⟨log, a, [], rfl, hab, by simp⟩
    · refine ⟨before, c, after ++ [a], by simp, hcb, fun x hx => ?_⟩
      rcases List.mem_append.mp hx with hx | hx
      · exact hafter x hx
      · rw [List.mem_singleton.mp hx]
        exact hnone

theorem exists_latest {log : List α} (h : ∃ a ∈ log, ∃ b, R a b) : ∃ b, Latest R log b := by
  induction log using List.reverseRecOn with
  | nil => obtain ⟨a, ha, -⟩ := h; cases ha
  | append_singleton log a ih =>
    by_cases hyields : ∃ b, R a b
    · obtain ⟨b, hab⟩ := hyields
      exact ⟨b, latest_concat.mpr (Or.inl hab)⟩
    · obtain ⟨c, hc, b, hcb⟩ := h
      have hmem : c ∈ log := by
        rcases List.mem_append.mp hc with hc | hc
        · exact hc
        · rw [List.mem_singleton.mp hc] at hcb
          exact absurd ⟨b, hcb⟩ hyields
      obtain ⟨b', hb'⟩ := ih ⟨c, hmem, b, hcb⟩
      exact ⟨b', latest_concat.mpr (Or.inr ⟨fun y hy => hyields ⟨y, hy⟩, hb'⟩)⟩
