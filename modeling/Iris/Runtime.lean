import Iris.Lib.RoundRobin
import Iris.Lib.Run
import Iris.Lib.Total

/-!
# The threads of a runtime

`build_runtime` gives every thread a hook that takes a number from a counter the threads share, and
pins the thread to the CPU whose turn that number is. The threads run their hooks in any order, and
one may take its number long before it is pinned. New threads may start at any time.

* `TokioRtConfig`, `Runtime`, `build`, `step`: the threads and the counter; `Did`, `did_of_step`;
* `ThreadStart.given`: the CPU that a thread is given; `Dealt`, **`dealt_run`**: they are given out
  in turn;
* **`balanced`**: no hook panics, and no CPU is given more threads than its share.
-/

namespace Iris

/-- `TokioRtConfig`. -/
structure TokioRtConfig where
  num_threads : ℕ
  cpus : List ℕ
deriving DecidableEq, Repr

/-- Where a thread is in its hook. -/
inductive ThreadStart
  | starting
  | numbered (idx : ℕ)
  | running (affinity : Option ℕ)
  | panicked
deriving DecidableEq, Repr

/-- The threads and the counter of their hooks. -/
structure Runtime where
  counter : ℕ
  threads : List ThreadStart
deriving DecidableEq, Repr

/-- What can happen next. -/
inductive RuntimeEvent
  | spawn
  | fetchAdd (i : ℕ)
  | setForCurrent (i : ℕ)

namespace Runtime

/-- A thread that starts: it runs the hook, if there is one. -/
def onThreadStart (cpus : List ℕ) : ThreadStart :=
  if cpus.isEmpty then .running none else .starting

/-- `build_runtime`, where `worker_threads` refuses the number `0`. -/
def build (config : TokioRtConfig) : Option Runtime :=
  if config.num_threads = 0 then
    none
  else
    some ⟨0, List.replicate config.num_threads (onThreadStart config.cpus)⟩

/-- The thread after `cpus[idx % cpus.len()]`. -/
def pin (cpus : List ℕ) (idx : ℕ) : ThreadStart :=
  match turn cpus idx with
  | some cpu => .running (some cpu)
  | none => .panicked

/-- One step. The counter is one of 64 bits. -/
def step (cpus : List ℕ) (r : Runtime) : RuntimeEvent → Option Runtime
  | .spawn => some { r with threads := r.threads ++ [onThreadStart cpus] }
  | .fetchAdd i =>
    match r.threads[i]? with
    | some .starting =>
      some ⟨(r.counter + 1) % 2 ^ 64, r.threads.set i (.numbered r.counter)⟩
    | _ => none
  | .setForCurrent i =>
    match r.threads[i]? with
    | some (.numbered idx) => some { r with threads := r.threads.set i (pin cpus idx) }
    | _ => none

/-- All that a step can do. -/
inductive Did (cpus : List ℕ) (r : Runtime) : Runtime → Prop
  | spawned : Did cpus r { r with threads := r.threads ++ [onThreadStart cpus] }
  | numbered (i : ℕ) (hi : r.threads[i]? = some .starting) :
      Did cpus r ⟨(r.counter + 1) % 2 ^ 64, r.threads.set i (.numbered r.counter)⟩
  | pinned (i idx : ℕ) (hi : r.threads[i]? = some (.numbered idx)) :
      Did cpus r { r with threads := r.threads.set i (pin cpus idx) }

theorem did_of_step {cpus : List ℕ} {r r' : Runtime} {e : RuntimeEvent}
    (h : step cpus r e = some r') : Did cpus r r' := by
  cases e with
  | spawn =>
    cases h
    exact .spawned
  | fetchAdd i =>
    simp only [step] at h
    split at h
    · rename_i hi
      cases h
      exact .numbered i hi
    · cases h
  | setForCurrent i =>
    simp only [step] at h
    split at h
    · rename_i idx hi
      cases h
      exact .pinned i idx hi
    · cases h

end Runtime

/-! ## Turns -/

/-- The CPU that a thread has been given, once it has its number. -/
def ThreadStart.given (cpus : List ℕ) : ThreadStart → Option (Option ℕ)
  | .starting => none
  | .numbered idx => some (turn cpus idx)
  | .running affinity => some affinity
  | .panicked => some none

/-- The thread has run its hook, if there is one. -/
def ThreadStart.isRunning : ThreadStart → Bool
  | .running _ => true
  | _ => false

namespace Runtime

/-- The threads that have their number. -/
def numbered (cpus : List ℕ) (r : Runtime) : ℕ := r.threads.countP fun t => (t.given cpus).isSome

/-- The threads that have been given the CPU. -/
def given (cpus : List ℕ) (r : Runtime) (cpu : Option ℕ) : ℕ :=
  r.threads.countP fun t => t.given cpus = some cpu

/-- The threads that are pinned to the CPU. -/
def pinnedTo (r : Runtime) (cpu : ℕ) : ℕ := r.threads.count (.running (some cpu))

/-- The numbers are given out one after the other, and with them the CPUs. -/
structure Dealt (cpus : List ℕ) (r : Runtime) : Prop where
  counter : r.counter = r.numbered cpus % 2 ^ 64
  given : ∀ cpu, r.given cpus cpu =
    ((List.range (r.numbered cpus)).map fun i => turn cpus (i % 2 ^ 64)).count cpu
  running : ∀ t ∈ r.threads, t ≠ .panicked

variable {cpus : List ℕ} {r r' : Runtime}

theorem given_pin (cpus : List ℕ) (idx : ℕ) :
    (pin cpus idx).given cpus = some (turn cpus idx) := by
  rw [pin]
  split <;> rename_i h <;> rw [h] <;> rfl

theorem pin_ne_panicked (hcpus : cpus ≠ []) (idx : ℕ) : pin cpus idx ≠ .panicked := by
  have hlt : idx % cpus.length < cpus.length := Nat.mod_lt idx (List.length_pos_iff.mpr hcpus)
  rw [pin, turn, List.getElem?_eq_getElem hlt]
  simp

theorem onThreadStart_of_ne_nil (hcpus : cpus ≠ []) : onThreadStart cpus = .starting := by
  rw [onThreadStart, if_neg]
  rwa [List.isEmpty_iff]

/-- Counting the threads after one of them has changed. -/
theorem countP_set {i : ℕ} {t : ThreadStart} (p : ThreadStart → Bool) (hi : r.threads[i]? = some t)
    (t' : ThreadStart) : (r.threads.set i t').countP p + (if p t then 1 else 0) =
      r.threads.countP p + if p t' then 1 else 0 := by
  rw [Total.countP_eq_total, Total.countP_eq_total]
  exact Total.total_set _ hi t'

/-- **One step.** -/
theorem dealt_step (hcpus : cpus ≠ []) {e : RuntimeEvent} (hr : Dealt cpus r)
    (h : step cpus r e = some r') : Dealt cpus r' := by
  obtain ⟨hcounter, hgiven, hrunning⟩ := hr
  cases did_of_step h with
  | spawned =>
    rw [onThreadStart_of_ne_nil hcpus]
    have hnumbered : numbered cpus { r with threads := r.threads ++ [.starting] } =
        r.numbered cpus := List.countP_append
    refine ⟨hnumbered ▸ hcounter, fun cpu => ?_, fun t ht => ?_⟩
    · rw [hnumbered, ← hgiven cpu]
      exact List.countP_append
    · rcases List.mem_append.mp ht with ht | ht
      · exact hrunning t ht
      · rw [List.mem_singleton.mp ht]
        nofun
  | numbered i hi =>
    have hnumbered : numbered cpus ⟨(r.counter + 1) % 2 ^ 64, r.threads.set i (.numbered r.counter)⟩
        = r.numbered cpus + 1 :=
      countP_set (fun t => (t.given cpus).isSome) hi (.numbered r.counter)
    refine ⟨?_, fun cpu => ?_, fun t ht => ?_⟩
    · rw [hnumbered, hcounter, Nat.mod_add_mod]
    · have hset := countP_set (fun t => t.given cpus = some cpu) hi (.numbered r.counter)
      rw [hnumbered, List.range_succ, List.map_append, List.count_append, ← hgiven cpu,
        List.map_singleton, List.count_singleton, ← hcounter]
      simpa [ThreadStart.given, given] using hset
    · rcases List.mem_or_eq_of_mem_set ht with ht | rfl
      · exact hrunning t ht
      · nofun
  | pinned i idx hi =>
    -- the thread is pinned to the CPU that it has been given
    have hsame : ∀ p : Option (Option ℕ) → Bool,
        (r.threads.set i (pin cpus idx)).countP (fun t => p (t.given cpus)) =
          r.threads.countP fun t => p (t.given cpus) := by
      intro p
      have hset := countP_set (fun t => p (t.given cpus)) hi (pin cpus idx)
      rw [given_pin] at hset
      exact Nat.add_right_cancel hset
    have hnumbered : numbered cpus { r with threads := r.threads.set i (pin cpus idx) } =
        r.numbered cpus := hsame Option.isSome
    refine ⟨hnumbered ▸ hcounter, fun cpu => ?_, fun t ht => ?_⟩
    · rw [hnumbered, ← hgiven cpu]
      exact hsame fun g => g = some cpu
    · rcases List.mem_or_eq_of_mem_set ht with ht | rfl
      · exact hrunning t ht
      · exact pin_ne_panicked hcpus idx

/-- **Every run.** -/
theorem dealt_run {config : TokioRtConfig} {es : List RuntimeEvent} (hcpus : config.cpus ≠ [])
    {r₀ : Runtime} (hbuild : build config = some r₀)
    (hrun : Lts.runFrom (step config.cpus) r₀ es = some r) : Dealt config.cpus r := by
  refine Lts.runFrom_invariant (fun _ _ _ => dealt_step hcpus) ?_ hrun
  rw [build] at hbuild
  split_ifs at hbuild
  cases hbuild
  rw [onThreadStart_of_ne_nil hcpus]
  have hnone : ∀ p : ThreadStart → Bool, p .starting = false →
      (List.replicate config.num_threads ThreadStart.starting).countP p = 0 := by
    intro p hp
    rw [List.countP_replicate, if_neg (Bool.eq_false_iff.mp hp)]
  have hnumbered : numbered config.cpus ⟨0, List.replicate config.num_threads .starting⟩ = 0 :=
    hnone _ rfl
  refine ⟨?_, fun cpu => ?_, fun t ht => ?_⟩
  · rw [hnumbered, Nat.zero_mod]
  · rw [hnumbered]
    exact hnone _ rfl
  · rw [(List.mem_replicate.mp ht).2]
    nofun

/-! ## The shares of the CPUs -/

/-- Once every thread has run its hook, it is pinned to what it has been given. -/
theorem given_eq_pinnedTo (hall : ∀ t ∈ r.threads, t.isRunning = true) (cpu : ℕ) :
    r.given cpus (some cpu) = r.pinnedTo cpu := by
  refine List.countP_congr fun t ht => ?_
  have hrunning := hall t ht
  cases t with
  | running affinity => simp [ThreadStart.given]
  | _ => cases hrunning

theorem numbered_eq_length (hall : ∀ t ∈ r.threads, t.isRunning = true) :
    r.numbered cpus = r.threads.length := by
  refine List.countP_eq_length.mpr fun t ht => ?_
  have hrunning := hall t ht
  cases t with
  | running affinity => rfl
  | _ => cases hrunning

/-- **Balance.** However the hooks interleave and whenever threads start: when all of them have run,
each CPU has as many threads as it stands in the list for every full round of the list, and at most
once more for the last round. No hook panics. -/
theorem balanced {config : TokioRtConfig} {es : List RuntimeEvent} {r₀ r : Runtime}
    (hcpus : config.cpus ≠ []) (hbuild : build config = some r₀)
    (hrun : Lts.runFrom (step config.cpus) r₀ es = some r) :
    (∀ t ∈ r.threads, t ≠ .panicked) ∧
    ((∀ t ∈ r.threads, t.isRunning = true) → r.threads.length ≤ 2 ^ 64 → ∀ cpu,
      r.threads.length / config.cpus.length * config.cpus.count cpu ≤ r.pinnedTo cpu ∧
      r.pinnedTo cpu ≤ (r.threads.length / config.cpus.length + 1) * config.cpus.count cpu) := by
  have hdealt := dealt_run hcpus hbuild hrun
  refine ⟨hdealt.running, fun hall hmany cpu => ?_⟩
  have hgiven := hdealt.given (some cpu)
  rw [given_eq_pinnedTo hall, numbered_eq_length hall] at hgiven
  -- no number is given out twice
  have hturns : (List.range r.threads.length).map (fun i => turn config.cpus (i % 2 ^ 64)) =
      (List.range r.threads.length).map (turn config.cpus) := by
    refine List.map_congr_left fun i hi => ?_
    rw [Nat.mod_eq_of_lt (Nat.lt_of_lt_of_le (List.mem_range.mp hi) hmany)]
  rw [hturns] at hgiven
  rw [hgiven]
  exact RoundRobin.count_turns hcpus r.threads.length cpu

/-- Three threads, and two CPUs. -/
def twoCpus : TokioRtConfig := ⟨2, [4, 7]⟩

theorem balanced_twoCpus :
    let r : Runtime := ⟨3, [.running (some 7), .running (some 4), .running (some 4)]⟩
    Lts.runFrom (step twoCpus.cpus) ⟨0, [.starting, .starting]⟩
      [.fetchAdd 1, .spawn, .fetchAdd 0, .fetchAdd 2, .setForCurrent 2, .setForCurrent 0,
        .setForCurrent 1] = some r ∧
    3 / 2 * [4, 7].count 4 ≤ r.pinnedTo 4 ∧ r.pinnedTo 4 ≤ (3 / 2 + 1) * [4, 7].count 4 :=
  ⟨rfl, (@balanced twoCpus [.fetchAdd 1, .spawn, .fetchAdd 0, .fetchAdd 2, .setForCurrent 2,
    .setForCurrent 0, .setForCurrent 1] ⟨0, [.starting, .starting]⟩ _ (by decide) rfl rfl).2
    (by decide) (by decide) 4⟩

end Runtime

end Iris
