import Mathlib.Data.List.Basic
import Mathlib.Logic.Basic

/-!
# Runs of a partial step function

A system is a partial step function `step : σ → ε → Option σ`: the event `e` is enabled in `s`
when `step s e` is defined. All nondeterminism is in the events.

* `runFrom`, `runFrom_append`, `runFrom_concat`: runs and how they compose;
* **`runFrom_invariant`**: an invariant of one step is an invariant of every run;
* **`runFrom_history`**: the same for a relation between the state and the events so far;
* `AllSteps`: every step of a run meets a condition on the state before it and on its event;
* **`good_iff_allSteps`**: where a step that breaks the condition spoils the state for good, the
  final state is good exactly when all steps met the condition;
* **`runFrom_simulate`**: the runs of one system seen as runs of another.
-/

namespace Lts

variable {σ ε : Type*} {step : σ → ε → Option σ}

variable (step) in
/-- The state after the events `es`, or `none` when one of them is not enabled in its turn. -/
def runFrom : σ → List ε → Option σ
  | s, [] => some s
  | s, e :: es => (step s e).bind fun s' => runFrom s' es

theorem runFrom_cons_eq_some {s s' : σ} {e : ε} {es : List ε} :
    runFrom step s (e :: es) = some s' ↔ ∃ t, step s e = some t ∧ runFrom step t es = some s' := by
  rw [runFrom, Option.bind_eq_some_iff]

theorem runFrom_append (s : σ) (es fs : List ε) :
    runFrom step s (es ++ fs) = (runFrom step s es).bind fun t => runFrom step t fs := by
  induction es generalizing s with
  | nil => rfl
  | cons e es ih =>
    rw [List.cons_append, runFrom, runFrom, Option.bind_assoc]
    exact congrArg _ (funext ih)

theorem runFrom_append_eq_some {s s' : σ} {es fs : List ε} :
    runFrom step s (es ++ fs) = some s' ↔
      ∃ t, runFrom step s es = some t ∧ runFrom step t fs = some s' := by
  rw [runFrom_append, Option.bind_eq_some_iff]

/-- One more step at the end of a run. -/
theorem runFrom_concat {s t t' : σ} {es : List ε} {e : ε} (h : runFrom step s es = some t)
    (he : step t e = some t') : runFrom step s (es ++ [e]) = some t' :=
  runFrom_append_eq_some.mpr ⟨t, h, runFrom_cons_eq_some.mpr ⟨t', he, rfl⟩⟩

/-- **What one step preserves, every run preserves.** -/
theorem runFrom_invariant {Inv : σ → Prop}
    (hstep : ∀ s e s', Inv s → step s e = some s' → Inv s') :
    ∀ {es : List ε} {s s' : σ}, Inv s → runFrom step s es = some s' → Inv s'
  | [], s, s', hs, h => by cases h; exact hs
  | e :: es, s, s', hs, h => by
    obtain ⟨t, ht, h⟩ := runFrom_cons_eq_some.mp h
    exact runFrom_invariant hstep (hstep s e t hs ht) h

/-- **A relation with the history.** What holds at the start and is preserved by one more event
holds of every run and its events. -/
theorem runFrom_history {R : List ε → σ → Prop}
    (hstep : ∀ es s e s', R es s → step s e = some s' → R (es ++ [e]) s') {s₀ s : σ}
    {es : List ε} (h₀ : R [] s₀) (hrun : runFrom step s₀ es = some s) : R es s := by
  have hgen : ∀ {fs es : List ε} {t : σ}, R es t → runFrom step t fs = some s → R (es ++ fs) s := by
    intro fs
    induction fs with
    | nil =>
      intro es t ht h
      cases h
      rwa [List.append_nil]
    | cons e fs ih =>
      intro es t ht h
      obtain ⟨u, hu, h⟩ := runFrom_cons_eq_some.mp h
      have hnext := ih (hstep es t e u ht hu) h
      rwa [List.append_assoc] at hnext
  exact hgen h₀ hrun

/-! ## Conditions on the steps of a run -/

variable (step) in
/-- Every step of the run meets `P` in the state before it. -/
def AllSteps (P : σ → ε → Prop) : σ → List ε → Prop
  | _, [] => True
  | s, e :: es => P s e ∧ ∀ t, step s e = some t → AllSteps P t es

theorem allSteps_of_forall_mem {P : ε → Prop} :
    ∀ {es : List ε} {s : σ}, (∀ e ∈ es, P e) → AllSteps step (fun _ e => P e) s es
  | [], _, _ => trivial
  | e :: _, _, h => ⟨h e List.mem_cons_self, fun _ _ =>
      allSteps_of_forall_mem fun f hf => h f (List.mem_cons_of_mem e hf)⟩

theorem allSteps_cons_of_step {P : σ → ε → Prop} {s t : σ} {e : ε} {es : List ε} (hP : P s e)
    (h : step s e = some t) (hes : AllSteps step P t es) : AllSteps step P s (e :: es) := by
  refine ⟨hP, fun u hu => ?_⟩
  rw [h] at hu
  cases hu
  exact hes

/-- An invariant that only steps meeting `P` preserve. -/
theorem runFrom_invariant_of_allSteps {P : σ → ε → Prop} {Inv : σ → Prop}
    (hstep : ∀ s e s', Inv s → P s e → step s e = some s' → Inv s') :
    ∀ {es : List ε} {s s' : σ}, Inv s → AllSteps step P s es → runFrom step s es = some s' → Inv s'
  | [], s, s', hs, _, h => by cases h; exact hs
  | e :: es, s, s', hs, hP, h => by
    obtain ⟨t, ht, h⟩ := runFrom_cons_eq_some.mp h
    exact runFrom_invariant_of_allSteps hstep (hstep s e t hs hP.1 ht) (hP.2 t ht) h

/-- **Goodness as a condition on the steps.** If steps meeting `P` keep a state good, a step not
meeting it makes the state bad, and a bad state stays bad, then the final state of a run is good
exactly when every step met `P`. -/
theorem good_iff_allSteps {P : σ → ε → Prop} {Inv Good : σ → Prop}
    (hinv : ∀ s e s', Inv s → step s e = some s' → Inv s')
    (hgood : ∀ s e s', Inv s → Good s → P s e → step s e = some s' → Good s')
    (hbad : ∀ s e s', Inv s → ¬ P s e → step s e = some s' → ¬ Good s')
    (hstay : ∀ s e s', Inv s → ¬ Good s → step s e = some s' → ¬ Good s') :
    ∀ {es : List ε} {s s' : σ}, Inv s → Good s → runFrom step s es = some s' →
      (Good s' ↔ AllSteps step P s es)
  | [], s, s', _, hg, h => by
    cases h
    exact iff_of_true hg trivial
  | e :: es, s, s', hs, hg, h => by
    obtain ⟨t, ht, h⟩ := runFrom_cons_eq_some.mp h
    have ht' := hinv s e t hs ht
    by_cases hP : P s e
    · rw [good_iff_allSteps hinv hgood hbad hstay ht' (hgood s e t hs hg hP ht) h]
      refine ⟨fun hes => ⟨hP, fun u hu => ?_⟩, fun hes => hes.2 t ht⟩
      rw [ht] at hu
      cases hu
      exact hes
    · have hkeep : ∀ u f u', (Inv u ∧ ¬ Good u) → step u f = some u' → Inv u' ∧ ¬ Good u' :=
        fun u f u' hu hf => ⟨hinv u f u' hu.1 hf, hstay u f u' hu.1 hu.2 hf⟩
      have hspoilt := runFrom_invariant hkeep ⟨ht', hbad s e t hs hP ht⟩ h
      exact iff_of_false hspoilt.2 fun hes => hP hes.1

/-! ## Simulations -/

/-- **Simulation of runs.** If every step of one system is, through `f`, a run of another, so is
every run. -/
theorem runFrom_simulate {σ' ε' : Type*} {step' : σ' → ε' → Option σ'} (f : σ → σ')
    (h : ∀ s e s', step s e = some s' → ∃ fs, runFrom step' (f s) fs = some (f s')) :
    ∀ {es : List ε} {s s' : σ}, runFrom step s es = some s' →
      ∃ fs, runFrom step' (f s) fs = some (f s')
  | [], s, s', hr => by cases hr; exact ⟨[], rfl⟩
  | e :: es, s, s', hr => by
    obtain ⟨t, ht, hr⟩ := runFrom_cons_eq_some.mp hr
    obtain ⟨fs, hfs⟩ := h s e t ht
    obtain ⟨gs, hgs⟩ := runFrom_simulate f h hr
    exact ⟨fs ++ gs, runFrom_append_eq_some.mpr ⟨f t, hfs, hgs⟩⟩

end Lts
