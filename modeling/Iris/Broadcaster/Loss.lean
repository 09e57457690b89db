import Iris.Broadcaster.Safety

/-!
# Protected submissions that are released to nobody

A call with an empty leader list is unblocked, so it empties the buffer, and then has no address
to send to.

* `Held`, `Attempted`, `NeverLost`: no protected submission taken from the channel is lost;
* `ReachesSomeone`: the steps that lose nothing;
* `Accounted`: the invariant, a held submission has been taken and has not been sent;
* **`neverLost_iff`**: a run loses nothing exactly when all its steps are such;
* `protected_lost`: a run that loses a submission.
-/

namespace Iris

namespace System

open Lts

variable {ω κ : Type} (cache : WorkersCache Submission ω κ)

/-- The submission is in the buffer. -/
def Held (s : System ω) (sub : Submission) : Prop :=
  ∃ b ∈ s.broadcaster.bufferedTransactions, b.alloc = some sub

/-- The submission has been passed to `try_send_transaction_to_address`. -/
def Attempted (s : System ω) (sub : Submission) : Prop :=
  ∃ c ∈ s.calls, ∃ h ∈ c.handed, h.1.alloc = some sub

/-- Every protected submission taken from the channel is in the buffer or has been sent to some
address. -/
def NeverLost (s : System ω) : Prop :=
  ∀ sub ∈ taken s, sub.mevProtect = true → Held s sub ∨ Attempted s sub

/-- The batch is a protected payload. -/
def IsProtected (b : Bytes Submission) : Prop :=
  ∃ p, TpuClientPayload.decode b = some p ∧ p.isMevProtected = true

/-- A call has somebody to send to, or nothing protected to release. -/
def ReachesSomeone (s : System ω) : Event → Prop
  | .send leaders => leaders ≠ [] ∨ (s.broadcaster.bufferedTransactions = [] ∧
      ∀ b ∈ s.channel.head?, ¬ IsProtected b)
  | _ => True

theorem neverLost_init (workers : ω) : NeverLost (init workers) := by
  intro sub hsub
  cases hsub

/-! ## One call -/

section Call

variable {s : System ω} {leaders : List SocketAddr} {batch : Bytes Submission}
  {rest : List (Bytes Submission)} {sub : Submission}

variable (s leaders batch) in
/-- The round of the hold-back queue that the call is. -/
def roundOf : List (Bytes Submission) × List (Bytes Submission) :=
  HoldQueue.step s.broadcaster.bufferedTransactions (sendRound s.broadcaster leaders batch)

theorem mem_taken_afterSend :
    sub ∈ taken (afterSend cache s leaders batch rest) ↔ sub ∈ taken s ∨ batch.alloc = some sub := by
  rw [taken_afterSend, List.mem_append, List.mem_filterMap]
  simp

theorem held_afterSend : Held (afterSend cache s leaders batch rest) sub ↔
    ∃ b ∈ (roundOf s leaders batch).2, b.alloc = some sub := by
  unfold Held
  rw [buffered_afterSend]
  rfl

theorem attempted_afterSend : Attempted (afterSend cache s leaders batch rest) sub ↔
    Attempted s sub ∨ leaders ≠ [] ∧ ∃ b ∈ (roundOf s leaders batch).1, b.alloc = some sub := by
  unfold Attempted
  rw [calls_afterSend]
  simp only [List.mem_append, List.mem_singleton, or_and_right, exists_or, exists_eq_left]
  refine or_congr Iff.rfl ?_
  constructor
  · rintro ⟨h, hh, hsub⟩
    obtain ⟨hb, ha⟩ := (mem_handed_callFor cache).mp hh
    exact ⟨List.ne_nil_of_mem ha, h.1, hb, hsub⟩
  · rintro ⟨hne, b, hb, hsub⟩
    obtain ⟨a, ha⟩ := List.exists_mem_of_ne_nil leaders hne
    exact ⟨(b, a), (mem_handed_callFor cache).mpr ⟨hb, ha⟩, hsub⟩

/-- What comes out of a round went into it. -/
theorem held_or_arrived_of_mem {b : Bytes Submission} (hbatch : IsBatch batch)
    (hb : b ∈ (roundOf s leaders batch).1 ∨ b ∈ (roundOf s leaders batch).2)
    (hsub : b.alloc = some sub) : Held s sub ∨ batch.alloc = some sub := by
  rcases HoldQueue.mem_step_iff.mp hb with hb | ⟨m, harr⟩
  · exact Or.inl ⟨b, hb, hsub⟩
  · obtain ⟨sub', hpay, hbody, -⟩ := arrival_eq_some hbatch harr
    rw [hbody] at hsub
    cases hsub
    exact Or.inr (congrArg Bytes.alloc hpay)

variable (leaders) in
/-- What goes into a round comes out of it. -/
theorem mem_of_held_or_arrived (hbatch : IsBatch batch)
    (h : Held s sub ∨ batch.alloc = some sub) :
    (∃ b ∈ (roundOf s leaders batch).1, b.alloc = some sub) ∨
      ∃ b ∈ (roundOf s leaders batch).2, b.alloc = some sub := by
  have hin : ∃ b, (b ∈ s.broadcaster.bufferedTransactions ∨
      ∃ m, (sendRound s.broadcaster leaders batch).arrival = some (b, m)) ∧
        b.alloc = some sub := by
    rcases h with ⟨b, hb, hsub⟩ | hsub
    · exact ⟨b, Or.inl hb, hsub⟩
    · rcases hbatch with rfl | ⟨sub', hpay⟩
      · cases hsub
      · rw [hpay] at hsub
        cases hsub
        exact ⟨_, Or.inr ⟨_, arrival_of_isPayloadOf hpay _⟩, rfl⟩
  obtain ⟨b, hb, hsub⟩ := hin
  rcases HoldQueue.mem_step_iff.mpr hb with hb | hb
  · exact Or.inl ⟨b, hb, hsub⟩
  · exact Or.inr ⟨b, hb, hsub⟩

/-- A call without leaders leaves the buffer empty. -/
theorem not_held_afterSend_nil : ¬ Held (afterSend cache s [] batch rest) sub := by
  rw [held_afterSend]
  rintro ⟨b, hb, -⟩
  have hopen : (sendRound s.broadcaster [] batch).shut = false :=
    hasBlockedSendTarget_nil s.broadcaster.blockedLeaders
  rw [roundOf, HoldQueue.kept_of_open hopen] at hb
  cases hb

theorem isProtected_of_alloc (hbatch : IsBatch batch) (hsub : batch.alloc = some sub)
    (hm : sub.mevProtect = true) : IsProtected batch := by
  rcases hbatch with rfl | ⟨sub', hpay⟩
  · cases hsub
  · rw [hpay] at hsub
    cases hsub
    exact ⟨_, decode_of_isPayloadOf hpay, by rw [TpuClientPayload.isMevProtected_new, hm]⟩

theorem exists_of_isProtected (hbatch : IsBatch batch) (h : IsProtected batch) :
    ∃ sub : Submission, batch.alloc = some sub ∧ sub.mevProtect = true := by
  obtain ⟨p, hp, hm⟩ := h
  rcases hbatch with rfl | ⟨sub, hpay⟩
  · cases hp
  · rw [decode_of_isPayloadOf hpay] at hp
    cases hp
    exact ⟨sub, congrArg Bytes.alloc hpay, by rwa [TpuClientPayload.isMevProtected_new] at hm⟩

end Call

/-! ## The invariant -/

/-- A submission held or sent has been taken from the channel, and one held has not been sent. -/
structure Accounted (s : System ω) : Prop where
  tagged : WellTagged s
  held_taken : ∀ sub, Held s sub → sub ∈ taken s
  attempted_taken : ∀ sub, Attempted s sub → sub ∈ taken s
  held_not_attempted : ∀ sub, Held s sub → ¬ Attempted s sub

theorem accounted_init (workers : ω) : Accounted (init workers) where
  tagged := wellTagged_init workers
  held_taken := by rintro sub ⟨b, hb, -⟩; cases hb
  attempted_taken := by rintro sub ⟨c, hc, -⟩; cases hc
  held_not_attempted := by rintro sub ⟨b, hb, -⟩; cases hb

/-- A submission at the head of the channel has not been taken before. -/
theorem not_mem_taken_of_head {s : System ω} (hs : WellTagged s) {batch : Bytes Submission}
    {rest : List (Bytes Submission)} (hc : s.channel = batch :: rest) {sub : Submission}
    (hsub : batch.alloc = some sub) : sub ∉ taken s := by
  intro htaken
  have hqueued : sub ∈ queued s :=
    List.mem_filterMap.mpr ⟨batch, by rw [hc]; exact List.mem_cons_self, hsub⟩
  exact (List.nodup_append.mp hs.nodup).2.2 sub htaken sub hqueued rfl

/-- What a call keeps has not been sent: it was held before or has just been taken, and only an
unprotected payload leaves a blocked slot. -/
theorem held_not_attempted_afterSend {s : System ω} (hs : Accounted s) {batch : Bytes Submission}
    {rest : List (Bytes Submission)} (hc : s.channel = batch :: rest)
    {leaders : List SocketAddr} {sub : Submission}
    (hheld : Held (afterSend cache s leaders batch rest) sub) :
    ¬ Attempted (afterSend cache s leaders batch rest) sub := by
  have hbatch : IsBatch batch := hs.tagged.batch batch (by rw [hc]; exact List.mem_cons_self)
  obtain ⟨b, hb, hsub⟩ := (held_afterSend cache).mp hheld
  intro hatt
  rcases (attempted_afterSend cache).mp hatt with hatt | ⟨-, b', hb', hsub'⟩
  · rcases held_or_arrived_of_mem hbatch (Or.inr hb) hsub with hh | hh
    · exact hs.held_not_attempted sub hh hatt
    · exact not_mem_taken_of_head hs.tagged hc hh (hs.attempted_taken sub hatt)
  · cases hshut : (sendRound s.broadcaster leaders batch).shut with
    | false =>
      rw [roundOf, HoldQueue.kept_of_open hshut] at hb
      cases hb
    | true =>
      have harr' := HoldQueue.arrival_of_mem_released hshut hb'
      rcases HoldQueue.mem_of_mem_kept hb with hb | harr
      · obtain ⟨sub₁, hpay, hbody, -⟩ := arrival_eq_some hbatch harr'
        rw [hbody] at hsub'
        cases hsub'
        exact not_mem_taken_of_head hs.tagged hc (congrArg Bytes.alloc hpay)
          (hs.held_taken _ ⟨b, hb, hsub⟩)
      · rw [harr] at harr'
        cases harr'

theorem accounted_afterSend {s : System ω} (hs : Accounted s) {batch : Bytes Submission}
    {rest : List (Bytes Submission)} (hc : s.channel = batch :: rest) (leaders : List SocketAddr) :
    Accounted (afterSend cache s leaders batch rest) := by
  have hbatch : IsBatch batch := hs.tagged.batch batch (by rw [hc]; exact List.mem_cons_self)
  have htaken : ∀ sub, Held s sub ∨ batch.alloc = some sub →
      sub ∈ taken (afterSend cache s leaders batch rest) := fun sub hsub =>
    (mem_taken_afterSend cache).mpr (hsub.imp_left (hs.held_taken sub))
  refine ⟨wellTagged_afterSend cache hs.tagged hc leaders, fun sub hheld => ?_,
    fun sub hatt => ?_, fun sub => held_not_attempted_afterSend cache hs hc⟩
  · obtain ⟨b, hb, hsub⟩ := (held_afterSend cache).mp hheld
    exact htaken sub (held_or_arrived_of_mem hbatch (Or.inr hb) hsub)
  · rcases (attempted_afterSend cache).mp hatt with hatt | ⟨-, b, hb, hsub⟩
    · exact (mem_taken_afterSend cache).mpr (Or.inl (hs.attempted_taken sub hatt))
    · exact htaken sub (held_or_arrived_of_mem hbatch (Or.inl hb) hsub)

theorem accounted_step (s : System ω) (e : Event) (s' : System ω) (hs : Accounted s)
    (h : step cache s e = some s') : Accounted s' := by
  by_cases he : ∃ leaders, e = .send leaders
  · obtain ⟨leaders, rfl⟩ := he
    obtain ⟨batch, rest, hc, rfl⟩ := step_send_eq_some cache h
    exact accounted_afterSend cache hs hc leaders
  · obtain ⟨hcalls, hbuf⟩ := step_frame cache h fun leaders h' => he ⟨leaders, h'⟩
    have htaken : taken s' = taken s := by unfold taken; rw [hcalls]
    have hheld : ∀ sub, Held s' sub ↔ Held s sub := by intro sub; unfold Held; rw [hbuf]
    have hatt : ∀ sub, Attempted s' sub ↔ Attempted s sub := by
      intro sub; unfold Attempted; rw [hcalls]
    refine ⟨wellTagged_step cache hs.tagged h, fun sub hh => ?_, fun sub ha => ?_,
      fun sub hh ha => ?_⟩
    · rw [htaken]
      exact hs.held_taken sub ((hheld sub).mp hh)
    · rw [htaken]
      exact hs.attempted_taken sub ((hatt sub).mp ha)
    · exact hs.held_not_attempted sub ((hheld sub).mp hh) ((hatt sub).mp ha)

/-! ## Which steps lose something -/

/-- Steps other than calls lose nothing and recover nothing. -/
theorem neverLost_frame {s s' : System ω} {e : Event} (h : step cache s e = some s')
    (he : ∀ leaders, e ≠ .send leaders) : NeverLost s' ↔ NeverLost s := by
  obtain ⟨hcalls, hbuf⟩ := step_frame cache h he
  unfold NeverLost taken Held Attempted
  rw [hcalls, hbuf]

theorem neverLost_step (s : System ω) (e : Event) (s' : System ω) (hs : Accounted s)
    (hg : NeverLost s) (hP : ReachesSomeone s e) (h : step cache s e = some s') :
    NeverLost s' := by
  by_cases he : ∃ leaders, e = .send leaders
  · obtain ⟨leaders, rfl⟩ := he
    obtain ⟨batch, rest, hc, rfl⟩ := step_send_eq_some cache h
    have hbatch : IsBatch batch := hs.tagged.batch batch (by rw [hc]; exact List.mem_cons_self)
    intro sub hsub hm
    have hcases : (Held s sub ∨ batch.alloc = some sub) ∨ Attempted s sub := by
      rcases (mem_taken_afterSend cache).mp hsub with hsub | hsub
      · exact (hg sub hsub hm).imp_left Or.inl
      · exact Or.inl (Or.inr hsub)
    rcases hcases with hin | hatt
    · rcases mem_of_held_or_arrived leaders hbatch hin with hrel | hkept
      · right
        refine (attempted_afterSend cache).mpr (Or.inr ⟨?_, hrel⟩)
        rcases hP with hne | ⟨hbuf, hhead⟩
        · exact hne
        · -- nothing protected was there to be released
          exfalso
          rcases hin with ⟨b, hb, -⟩ | hsub
          · rw [hbuf] at hb
            cases hb
          · exact hhead batch (by rw [hc]; rfl) (isProtected_of_alloc hbatch hsub hm)
      · exact Or.inl ((held_afterSend cache).mpr hkept)
    · exact Or.inr ((attempted_afterSend cache).mpr (Or.inl hatt))
  · exact (neverLost_frame cache h fun leaders h' => he ⟨leaders, h'⟩).mpr hg

/-- What a call without leaders loses: a submission it finds in the buffer, or the one it takes. -/
theorem exists_lost {s : System ω} (hs : Accounted s) {batch : Bytes Submission}
    {rest : List (Bytes Submission)} (hc : s.channel = batch :: rest)
    (h : s.broadcaster.bufferedTransactions ≠ [] ∨ IsProtected batch) :
    ∃ sub, (Held s sub ∨ batch.alloc = some sub) ∧ sub.mevProtect = true ∧ ¬ Attempted s sub := by
  rcases h with hbuf | hprot
  · obtain ⟨b, hb⟩ := List.exists_mem_of_ne_nil _ hbuf
    obtain ⟨sub, hbody, hm⟩ := hs.tagged.held b hb
    have hheld : Held s sub := ⟨b, hb, congrArg Bytes.alloc hbody⟩
    exact ⟨sub, Or.inl hheld, hm, hs.held_not_attempted sub hheld⟩
  · have hbatch : IsBatch batch := hs.tagged.batch batch (by rw [hc]; exact List.mem_cons_self)
    obtain ⟨sub, hsub, hm⟩ := exists_of_isProtected hbatch hprot
    refine ⟨sub, Or.inr hsub, hm, fun hatt => ?_⟩
    exact not_mem_taken_of_head hs.tagged hc hsub (hs.attempted_taken sub hatt)

theorem not_neverLost_step (s : System ω) (e : Event) (s' : System ω) (hs : Accounted s)
    (hP : ¬ ReachesSomeone s e) (h : step cache s e = some s') : ¬ NeverLost s' := by
  cases e with
  | send leaders =>
    obtain ⟨batch, rest, hc, rfl⟩ := step_send_eq_some cache h
    unfold ReachesSomeone at hP
    rw [not_or, not_not, not_and_or, hc] at hP
    obtain ⟨rfl, hsome⟩ := hP
    obtain ⟨sub, hin, hm, hatt⟩ := exists_lost hs hc (by simpa using hsome)
    intro hg
    have htaken : sub ∈ taken (afterSend cache s [] batch rest) :=
      (mem_taken_afterSend cache).mpr (hin.imp_left (hs.held_taken sub))
    rcases hg sub htaken hm with hheld | hatt'
    · exact not_held_afterSend_nil cache hheld
    · rcases (attempted_afterSend cache).mp hatt' with hatt' | ⟨hne, -⟩
      · exact hatt hatt'
      · exact hne rfl
  | submit w m outcome => exact absurd trivial hP
  | flush outcome => exact absurd trivial hP
  | refresh blocked => exact absurd trivial hP

/-- What is lost stays lost. -/
theorem not_neverLost_stays (s : System ω) (e : Event) (s' : System ω) (hs : Accounted s)
    (hg : ¬ NeverLost s) (h : step cache s e = some s') : ¬ NeverLost s' := by
  by_cases he : ∃ leaders, e = .send leaders
  · obtain ⟨leaders, rfl⟩ := he
    obtain ⟨batch, rest, hc, rfl⟩ := step_send_eq_some cache h
    have hbatch : IsBatch batch := hs.tagged.batch batch (by rw [hc]; exact List.mem_cons_self)
    unfold NeverLost at hg
    push Not at hg
    obtain ⟨sub, hsub, hm, hnheld, hnatt⟩ := hg
    have hgone : ¬ (Held s sub ∨ batch.alloc = some sub) := by
      rintro (hh | hh)
      · exact hnheld hh
      · exact not_mem_taken_of_head hs.tagged hc hh hsub
    intro hg'
    rcases hg' sub ((mem_taken_afterSend cache).mpr (Or.inl hsub)) hm with hheld | hatt
    · obtain ⟨b, hb, hbs⟩ := (held_afterSend cache).mp hheld
      exact hgone (held_or_arrived_of_mem hbatch (Or.inr hb) hbs)
    · rcases (attempted_afterSend cache).mp hatt with hatt | ⟨-, b, hb, hbs⟩
      · exact hnatt hatt
      · exact hgone (held_or_arrived_of_mem hbatch (Or.inl hb) hbs)
  · rwa [neverLost_frame cache h fun leaders h' => he ⟨leaders, h'⟩]

/-- **When nothing is lost.** A run loses no protected submission exactly when each of its calls
has a leader to send to, or finds the buffer empty and takes no protected payload. -/
theorem neverLost_iff {workers : ω} {es : List Event} {s : System ω}
    (hrun : runFrom (step cache) (init workers) es = some s) :
    NeverLost s ↔ AllSteps (step cache) ReachesSomeone (init workers) es :=
  good_iff_allSteps (accounted_step cache) (neverLost_step cache) (not_neverLost_step cache)
    (not_neverLost_stays cache) (accounted_init workers) (neverLost_init workers) hrun

/-- A protected submission is held back at a blocked leader, and then the leaders are unknown. -/
def lossyRun : List Event :=
  [.refresh {localAddr 8001}, .submit [1, 2, 3] true .sent, .send [localAddr 8001], .flush .sent,
    .send []]

theorem neverLost_iff_lossyRun :
    ∃ s, runFrom (step WorkersCache.accepting) (init ()) lossyRun = some s ∧
      (NeverLost s ↔
        AllSteps (step WorkersCache.accepting) ReachesSomeone (init ()) lossyRun) := by
  have hsome : (runFrom (step WorkersCache.accepting) (init ()) lossyRun).isSome = true := by decide
  obtain ⟨s, hrun⟩ := Option.isSome_iff_exists.mp hsome
  exact ⟨s, hrun, neverLost_iff WorkersCache.accepting hrun⟩

/-- **A protected submission is lost**: released to an empty leader list. -/
theorem protected_lost :
    ¬ ∀ s, runFrom (step WorkersCache.accepting) (init ()) lossyRun = some s → NeverLost s := by
  intro hall
  have hmap : (runFrom (step WorkersCache.accepting) (init ()) lossyRun).map (fun s =>
      (taken s, s.broadcaster.bufferedTransactions, s.calls.flatMap Call.handed)) =
        some ([⟨0, [1, 2, 3], true⟩], [], []) := by decide
  obtain ⟨s, hrun, hs⟩ := Option.map_eq_some_iff.mp hmap
  simp only [Prod.mk.injEq] at hs
  obtain ⟨htaken, hbuf, hhanded⟩ := hs
  have hlost := hall s hrun ⟨0, [1, 2, 3], true⟩ (by rw [htaken]; exact List.mem_singleton_self _)
    rfl
  rcases hlost with ⟨b, hb, -⟩ | ⟨c, hc, h, hh, -⟩
  · rw [hbuf] at hb
    cases hb
  · have hmem : h ∈ s.calls.flatMap Call.handed := List.mem_flatMap.mpr ⟨c, hc, hh⟩
    rw [hhanded] at hmem
    cases hmem

end System

end Iris
