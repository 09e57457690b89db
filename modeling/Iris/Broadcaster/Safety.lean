import Iris.Broadcaster.System

/-!
# Protected submissions and blocked addresses

* `Call.Shielded`: in a blocked slot a call hands over its own unprotected payload or nothing;
* **`no_protected_to_blocked`**: every call of every run is shielded, so that no protected
  submission is handed to an address of the block list loaded by the call.
-/

namespace Iris

/-- If a leader is blocked, the call hands over nothing but its own payload, and that only if it
was submitted unprotected. -/
def Call.Shielded (c : Call) : Prop :=
  (∃ a ∈ c.leaders, a ∈ c.loaded) →
    ∀ h ∈ c.handed, ∃ sub : Submission, h.1 = Bytes.fromVec sub sub.wire ∧
      c.batch.alloc = some sub ∧ sub.mevProtect = false

namespace System

open Lts

variable {ω κ : Type} (cache : WorkersCache Submission ω κ)

theorem mem_handed_callFor {s : System ω} {leaders : List SocketAddr} {batch : Bytes Submission}
    {h : Bytes Submission × SocketAddr} :
    h ∈ (callFor cache s leaders batch).handed ↔
      h.1 ∈ (HoldQueue.step s.broadcaster.bufferedTransactions
        (sendRound s.broadcaster leaders batch)).1 ∧ h.2 ∈ leaders := by
  unfold callFor
  rw [handed_sendToWorkers, List.mem_flatMap]
  constructor
  · rintro ⟨t, ht, hmem⟩
    obtain ⟨a, ha, rfl⟩ := List.mem_map.mp hmem
    exact ⟨ht, ha⟩
  · rintro ⟨ht, ha⟩
    exact ⟨h.1, ht, List.mem_map.mpr ⟨h.2, ha, rfl⟩⟩

/-- **A blocked slot.** The call hands over its own unprotected payload or nothing. -/
theorem shielded_callFor {s : System ω} {batch : Bytes Submission} (hb : IsBatch batch)
    (leaders : List SocketAddr) : (callFor cache s leaders batch).Shielded := by
  intro hblocked h hmem
  have hshut : (sendRound s.broadcaster leaders batch).shut = true :=
    hasBlockedSendTarget_iff.mpr hblocked
  have hrel := ((mem_handed_callFor cache).mp hmem).1
  have harr := HoldQueue.arrival_of_mem_released hshut hrel
  obtain ⟨sub, hpay, hbody, hm⟩ := arrival_eq_some hb harr
  refine ⟨sub, hbody, ?_, hm⟩
  show batch.alloc = some sub
  rw [hpay]
  rfl

/-- Every call of the record is shielded and sends to its own leaders only. -/
structure CallsSafe (s : System ω) : Prop where
  tagged : WellTagged s
  shielded : ∀ c ∈ s.calls, c.Shielded
  leaders : ∀ c ∈ s.calls, ∀ h ∈ c.handed, h.2 ∈ c.leaders

theorem callsSafe_init (workers : ω) : CallsSafe (init workers) where
  tagged := wellTagged_init workers
  shielded := by intro c hc; cases hc
  leaders := by intro c hc; cases hc

theorem callsSafe_step (s : System ω) (e : Event) (s' : System ω) (hs : CallsSafe s)
    (h : step cache s e = some s') : CallsSafe s' := by
  have htag := wellTagged_step cache hs.tagged h
  by_cases he : ∃ leaders, e = .send leaders
  · obtain ⟨leaders, rfl⟩ := he
    obtain ⟨batch, rest, hc, rfl⟩ := step_send_eq_some cache h
    have hbatch : IsBatch batch := hs.tagged.batch batch (by rw [hc]; exact List.mem_cons_self)
    refine ⟨htag, fun c hmem => ?_, fun c hmem => ?_⟩
    all_goals rw [calls_afterSend, List.mem_append, List.mem_singleton] at hmem
    · rcases hmem with hmem | rfl
      · exact hs.shielded c hmem
      · exact shielded_callFor cache hbatch leaders
    · rcases hmem with hmem | rfl
      · exact hs.leaders c hmem
      · intro x hx
        exact ((mem_handed_callFor cache).mp hx).2
  · obtain ⟨hcalls, -⟩ := step_frame cache h fun leaders h' => he ⟨leaders, h'⟩
    exact ⟨htag, hcalls ▸ hs.shielded, hcalls ▸ hs.leaders⟩

theorem callsSafe_of_run {workers : ω} {es : List Event} {s : System ω}
    (hrun : runFrom (step cache) (init workers) es = some s) : CallsSafe s :=
  runFrom_invariant (callsSafe_step cache) (callsSafe_init workers) hrun

/-- A protected submission is not handed to an address of the block list loaded by the call. -/
theorem CallsSafe.not_mem_loaded {s : System ω} (hs : CallsSafe s) {c : Call} (hc : c ∈ s.calls)
    {h : Bytes Submission × SocketAddr} (hh : h ∈ c.handed) {sub : Submission}
    (hsub : h.1.alloc = some sub) (hm : sub.mevProtect = true) : h.2 ∉ c.loaded := by
  intro hblocked
  obtain ⟨sub', hbody, -, hm'⟩ := hs.shielded c hc ⟨h.2, hs.leaders c hc h hh, hblocked⟩ h hh
  rw [hbody] at hsub
  cases hsub
  rw [hm] at hm'
  cases hm'

/-- **MEV safety.** In every call of every run: if a leader is in the block list the call loaded,
each pair it hands over carries its own payload, submitted unprotected; and a submission that is
protected is never handed to an address of the block list loaded by the call. -/
theorem no_protected_to_blocked {workers : ω} {es : List Event} {s : System ω}
    (hrun : runFrom (step cache) (init workers) es = some s) :
    ∀ c ∈ s.calls,
      ((∃ a ∈ c.leaders, a ∈ c.loaded) →
        ∀ h ∈ c.handed, ∃ sub : Submission, h.1 = Bytes.fromVec sub sub.wire ∧
          c.batch.alloc = some sub ∧ sub.mevProtect = false) ∧
      ∀ h ∈ c.handed, ∀ sub : Submission, h.1.alloc = some sub → sub.mevProtect = true →
        h.2 ∉ c.loaded := by
  intro c hc
  have hs := callsSafe_of_run cache hrun
  exact ⟨hs.shielded c hc, fun h hh sub hsub hm => hs.not_mem_loaded hc hh hsub hm⟩

/-- An address to run examples with. -/
def localAddr (port : UInt16) : SocketAddr := ⟨.v4 0x7F000001#32, port⟩

/-- A protected and an unprotected submission meet a blocked leader; a flush then finds another. -/
def shieldedRun : List Event :=
  [.refresh {localAddr 8001}, .submit [1, 2] true .sent, .submit [3] false .sent, .flush .sent,
    .send [localAddr 8001], .send [localAddr 8001, localAddr 8002], .send [localAddr 8002]]

theorem no_protected_to_blocked_shieldedRun :
    ∃ s, runFrom (step WorkersCache.accepting) (init ()) shieldedRun = some s ∧
      s.calls.length = 3 ∧ ∀ c ∈ s.calls,
        ((∃ a ∈ c.leaders, a ∈ c.loaded) →
          ∀ h ∈ c.handed, ∃ sub : Submission, h.1 = Bytes.fromVec sub sub.wire ∧
            c.batch.alloc = some sub ∧ sub.mevProtect = false) ∧
        ∀ h ∈ c.handed, ∀ sub : Submission, h.1.alloc = some sub → sub.mevProtect = true →
          h.2 ∉ c.loaded := by
  have hlen : (runFrom (step WorkersCache.accepting) (init ()) shieldedRun).map
      (fun s => s.calls.length) = some 3 := by decide
  obtain ⟨s, hrun, hs⟩ := Option.map_eq_some_iff.mp hlen
  exact ⟨s, hrun, hs, no_protected_to_blocked WorkersCache.accepting hrun⟩

end System

end Iris
