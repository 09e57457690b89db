import Iris.Broadcaster.Safety
import Iris.Leaders
import Iris.Lib.Latest

/-!
# The refresh thread

Every ten minutes the thread asks for the cluster nodes, then for the policy account, and stores
the block list they give. An attempt that fails or takes too long is abandoned.

* `Attempt`, `RefreshPhase`, `Node`, `NodeEvent`, `step`: the system together with its refresh
  thread, and with a record of the attempts;
* `Did`, **`did_of_step`**: all that a step can do;
* `simulates`: a run of the node is a run of the system;
* `Refreshed`, **`refreshed_of_run`**: the block list is the one of the latest attempt that read a
  deny policy, and the thread is alive until it is cancelled.
-/

namespace Iris

/-- An attempt to refresh the block list: the replies it got before it ended. -/
structure Attempt where
  clusterNodes : Option (Except AnyhowError (List RpcContactInfo))
  accountData : Option (Except AnyhowError Octets)
deriving DecidableEq

/-- The attempt got a node list and an account with a deny policy. -/
def Attempt.Yields (attempt : Attempt) (found : List RpcContactInfo × List Pubkey) : Prop :=
  attempt.clusterNodes = some (.ok found.1) ∧
    ∃ data, attempt.accountData = some (.ok data) ∧ DenyPolicy data found.2

/-- Where the refresh thread waits. -/
inductive RefreshPhase
  | idle
  | clusterNodes
  | accountData (clusterNodes : List RpcContactInfo)
  | exited
  | panicked
deriving DecidableEq

/-- The system and its refresh thread. -/
structure Node (ω : Type) where
  system : System ω
  phase : RefreshPhase
  cancelled : Bool
  attempts : List Attempt

/-- What can happen next. -/
inductive NodeEvent
  | submit (wireTransaction : Octets) (mevProtect : Bool) (outcome : TrySend)
  | flush (outcome : TrySend)
  | send (leaders : List SocketAddr)
  | cancel
  | observeCancel
  | tick
  | clusterNodes (reply : Except AnyhowError (List RpcContactInfo))
  | accountData (reply : Except AnyhowError Octets)
  | elapsed

namespace Node

variable {ω κ : Type}

/-- The state `MevProtectedBroadcaster::run` starts from. -/
def init (workers : ω) : Node ω := ⟨System.init workers, .idle, false, []⟩

/-- The end of an attempt: `blocked_addrs.store(..)`, or a warning. -/
def finish (s : Node ω) (attempt : Attempt) (res : Outcome AnyhowError (List SocketAddr)) : Node ω :=
  let s := { s with attempts := s.attempts ++ [attempt] }
  match res with
  | .ok blockedLeaders =>
    let broadcaster := { s.system.broadcaster with blockedLeaders := blockedLeaders.toFinset }
    { s with system := { s.system with broadcaster }, phase := .idle }
  | .err _ => { s with phase := .idle }
  | .panicked => { s with phase := .panicked }

variable (cache : WorkersCache Submission ω κ) (key : Pubkey)

/-- A step of the rest of the system. -/
def systemStep (s : Node ω) (e : Event) : Option (Node ω) :=
  (System.step cache s.system e).map fun system => { s with system }

/-- One step. The thread looks at the cancellation token between attempts only. -/
def step (s : Node ω) : NodeEvent → Option (Node ω)
  | .submit w m outcome => systemStep cache s (.submit w m outcome)
  | .flush outcome => systemStep cache s (.flush outcome)
  | .send leaders => systemStep cache s (.send leaders)
  | .cancel => some { s with cancelled := true }
  | .observeCancel =>
    match s.phase with
    | .idle => if s.cancelled then some { s with phase := .exited } else none
    | _ => none
  | .tick =>
    match s.phase with
    | .idle => some { s with phase := .clusterNodes }
    | _ => none
  | .clusterNodes reply =>
    match s.phase, reply with
    | .clusterNodes, .ok nodes => some { s with phase := .accountData nodes }
    | .clusterNodes, .error e => some (s.finish ⟨some reply, none⟩ (.err e))
    | _, _ => none
  | .accountData reply =>
    match s.phase with
    | .accountData nodes =>
      some (s.finish ⟨some (.ok nodes), some reply⟩ (getBlockedIps key (.ok nodes) reply))
    | _ => none
  | .elapsed =>
    match s.phase with
    | .clusterNodes => some (s.finish ⟨none, none⟩ (.err ["deadline has elapsed"]))
    | .accountData nodes =>
      some (s.finish ⟨some (.ok nodes), none⟩ (.err ["deadline has elapsed"]))
    | _ => none

/-- The block list in force. -/
def blockedLeaders (s : Node ω) : Finset SocketAddr := s.system.broadcaster.blockedLeaders

/-! ## What a step does -/

theorem blockedLeaders_finish_ok (s : Node ω) (attempt : Attempt) (addrs : List SocketAddr) :
    (s.finish attempt (.ok addrs)).blockedLeaders = addrs.toFinset := rfl

theorem blockedLeaders_finish {s : Node ω} {attempt : Attempt}
    {res : Outcome AnyhowError (List SocketAddr)} (h : ∀ addrs, res ≠ .ok addrs) :
    (s.finish attempt res).blockedLeaders = s.blockedLeaders := by
  cases res with
  | ok addrs => exact absurd rfl (h addrs)
  | err e => rfl
  | panicked => rfl

theorem attempts_finish (s : Node ω) (attempt : Attempt)
    (res : Outcome AnyhowError (List SocketAddr)) :
    (s.finish attempt res).attempts = s.attempts ++ [attempt] := by
  cases res <;> rfl

theorem phase_finish {s : Node ω} {attempt : Attempt} {res : Outcome AnyhowError (List SocketAddr)}
    (h : res ≠ .panicked) : (s.finish attempt res).phase = .idle := by
  cases res with
  | ok addrs => rfl
  | err e => rfl
  | panicked => exact absurd rfl h

/-- The result of an attempt: an address list exactly if a deny policy was read. -/
def IsResult (attempt : Attempt) (res : Outcome AnyhowError (List SocketAddr)) : Prop :=
  ∀ addrs, res = .ok addrs ↔ ∃ found, attempt.Yields found ∧
    addrs = tpuQuicsAddrs found.1 (found.2.map Pubkey.toText)

theorem isResult_getBlockedIps (nodes : List RpcContactInfo)
    (reply : Except AnyhowError Octets) :
    IsResult ⟨some (.ok nodes), some reply⟩ (getBlockedIps key (.ok nodes) reply) := by
  intro addrs
  rw [getBlockedIps_eq_ok]
  constructor
  · rintro ⟨ns, data, ids, hns, rfl, hpolicy, rfl⟩
    cases hns
    exact ⟨(nodes, ids), ⟨rfl, data, rfl, hpolicy⟩, rfl⟩
  · rintro ⟨⟨ns, ids⟩, ⟨hns, data, hdata, hpolicy⟩, rfl⟩
    cases hns
    cases hdata
    exact ⟨ns, data, ids, rfl, rfl, hpolicy, rfl⟩

/-- Without both replies there is no list. -/
theorem isResult_err (clusterNodes : Option (Except AnyhowError (List RpcContactInfo)))
    (e : AnyhowError) : IsResult ⟨clusterNodes, none⟩ (.err e) := by
  intro addrs
  constructor
  · intro h
    cases h
  · rintro ⟨found, ⟨-, data, hdata, -⟩, -⟩
    cases hdata

/-- What a step can do: a step of the rest of the system, a move of the thread within or between
attempts, or the end of an attempt. -/
inductive Did (s : Node ω) (e : NodeEvent) : Node ω → Prop
  | system (f : Event) (system : System ω) (hf : ∀ blocked, f ≠ .refresh blocked)
      (hsystem : System.step cache s.system f = some system) : Did s e { s with system }
  | move (phase : RefreshPhase) (cancelled : Bool) (hpanicked : phase = .panicked → s.phase = phase)
      (hexited : phase = .exited → s.phase = phase ∨ s.cancelled = true)
      (hasked : ∀ ns, phase = .accountData ns → s.phase = phase ∨ e = .clusterNodes (.ok ns))
      (hcancelled : s.cancelled = true → cancelled = true) : Did s e { s with phase, cancelled }
  | finish (attempt : Attempt) (res : Outcome AnyhowError (List SocketAddr))
      (hres : IsResult attempt res) (hpanicked : res = .panicked → e = .accountData (.ok []))
      (hnodes : ∀ ns, attempt.clusterNodes = some (.ok ns) → s.phase = .accountData ns)
      (hdata : ∀ d, attempt.accountData = some (.ok d) → e = .accountData (.ok d)) :
      Did s e (s.finish attempt res)

/-- **Every step does one of these.** -/
theorem did_of_step {s s' : Node ω} {e : NodeEvent} (h : step cache key s e = some s') :
    Did cache s e s' := by
  have hsystem : ∀ f, (∀ blocked, f ≠ Event.refresh blocked) → systemStep cache s f = some s' →
      Did cache s e s' := by
    intro f hf hs
    obtain ⟨system, hsys, rfl⟩ := Option.map_eq_some_iff.mp hs
    exact .system f system hf hsys
  cases e with
  | submit w m outcome => exact hsystem _ (by simp) h
  | flush outcome => exact hsystem _ (by simp) h
  | send leaders => exact hsystem _ (by simp) h
  | cancel =>
    cases h
    exact .move s.phase true (fun _ => rfl) (fun _ => Or.inl rfl) (fun _ _ => Or.inl rfl) fun _ => rfl
  | observeCancel =>
    simp only [step] at h
    split at h
    · split_ifs at h with hc
      cases h
      exact .move .exited s.cancelled (by simp) (fun _ => Or.inr hc) (by simp) id
    · cases h
  | tick =>
    simp only [step] at h
    split at h
    · cases h
      exact .move .clusterNodes s.cancelled (by simp) (by simp) (by simp) id
    · cases h
  | clusterNodes reply =>
    simp only [step] at h
    split at h
    · cases h
      exact .move (.accountData _) s.cancelled (by simp) (by simp) (by simp) id
    · cases h
      exact .finish _ _ (isResult_err _ _) (by simp) (by simp) (by simp)
    · cases h
  | accountData reply =>
    simp only [step] at h
    split at h
    · rename_i ns hphase
      cases h
      refine .finish _ _ (isResult_getBlockedIps key ns reply) ?_ (by simp [hphase]) (by simp)
      intro hpanic
      by_contra hne
      exact getBlockedIps_ne_panicked key _ (fun hreply => hne (by rw [hreply])) hpanic
    · cases h
  | elapsed =>
    simp only [step] at h
    split at h
    · cases h
      exact .finish _ _ (isResult_err _ _) (by simp) (by simp) (by simp)
    · rename_i ns hphase
      cases h
      exact .finish _ _ (isResult_err _ _) (by simp) (by simp [hphase]) (by simp)
    · cases h

/-- **A run of the node is a run of the system.** -/
theorem simulates {workers : ω} {es : List NodeEvent} {s : Node ω}
    (hrun : Lts.runFrom (step cache key) (init workers) es = some s) :
    ∃ fs, Lts.runFrom (System.step cache) (System.init workers) fs = some s.system := by
  refine Lts.runFrom_simulate system (fun s e s' h => ?_) hrun
  cases did_of_step cache key h with
  | system f system hf hsys => exact ⟨[f], Lts.runFrom_cons_eq_some.mpr ⟨_, hsys, rfl⟩⟩
  | move phase cancelled => exact ⟨[], rfl⟩
  | finish attempt res =>
    cases res with
    | ok addrs => exact ⟨[.refresh addrs.toFinset], rfl⟩
    | err e => exact ⟨[], rfl⟩
    | panicked => exact ⟨[], rfl⟩

/-! ## The block list in force -/

/-- The addresses that the latest good attempt blocks. -/
def BlockedByLatest (attempts : List Attempt) (a : SocketAddr) : Prop :=
  ∃ found, Latest Attempt.Yields attempts found ∧
    a ∈ blockList found.1 (found.2.map Pubkey.toText)

/-- The block list is that of the latest good attempt, and the thread is alive until it is
cancelled. -/
structure Refreshed (s : Node ω) : Prop where
  blocked : ∀ a, a ∈ s.blockedLeaders ↔ BlockedByLatest s.attempts a
  alive : s.phase ≠ .panicked
  exited : s.phase = .exited → s.cancelled = true

theorem refreshed_init (workers : ω) : Refreshed (init workers) where
  blocked := by
    intro a
    refine iff_of_false (Finset.notMem_empty a) ?_
    rintro ⟨found, hlatest, -⟩
    exact not_latest_nil found hlatest
  alive := by simp [init]
  exited := by simp [init]

/-- **The end of an attempt**: the list it read, or the list there was. -/
theorem blocked_finish {s : Node ω} {attempt : Attempt}
    {res : Outcome AnyhowError (List SocketAddr)} (hres : IsResult attempt res)
    (hs : ∀ a, a ∈ s.blockedLeaders ↔ BlockedByLatest s.attempts a) (a : SocketAddr) :
    a ∈ (s.finish attempt res).blockedLeaders ↔
      BlockedByLatest (s.finish attempt res).attempts a := by
  rw [attempts_finish]
  unfold BlockedByLatest
  simp only [latest_concat]
  by_cases hok : ∃ addrs, res = .ok addrs
  · obtain ⟨addrs, rfl⟩ := hok
    obtain ⟨found, hfound, haddrs⟩ := (hres addrs).mp rfl
    rw [blockedLeaders_finish_ok]
    constructor
    · intro ha
      rw [haddrs] at ha
      exact ⟨found, Or.inl hfound, ha⟩
    · rintro ⟨other, hother | ⟨hnone, -⟩, ha⟩
      · have hsame := (hres _).mpr ⟨other, hother, rfl⟩
        cases hsame
        exact ha
      · exact absurd hfound (hnone found)
  · have hnone : ∀ found, ¬ attempt.Yields found := fun found hfound =>
      hok ⟨_, (hres _).mpr ⟨found, hfound, rfl⟩⟩
    rw [blockedLeaders_finish fun addrs haddrs => hok ⟨addrs, haddrs⟩, hs]
    refine exists_congr fun found => and_congr_left' ?_
    simp [hnone]

theorem refreshed_step (s : Node ω) (e : NodeEvent) (s' : Node ω) (hs : Refreshed s)
    (he : e ≠ .accountData (.ok [])) (h : step cache key s e = some s') : Refreshed s' := by
  cases did_of_step cache key h with
  | system f system hf hsys =>
    have hblocked : system.broadcaster.blockedLeaders = s.blockedLeaders :=
      System.blockedLeaders_step cache hsys hf
    refine ⟨fun a => ?_, hs.alive, hs.exited⟩
    rw [blockedLeaders, hblocked]
    exact hs.blocked a
  | move phase cancelled hpanicked hexited hasked hcancelled =>
    refine ⟨hs.blocked, fun hp => hs.alive ((hpanicked hp).trans hp), fun hp => hcancelled ?_⟩
    rcases hexited hp with hphase | hc
    · exact hs.exited (hphase.trans hp)
    · exact hc
  | finish attempt res hres hpanicked =>
    have hidle : (s.finish attempt res).phase = .idle := phase_finish fun hp => he (hpanicked hp)
    refine ⟨blocked_finish hres hs.blocked, ?_, ?_⟩
    · rw [hidle]
      simp
    · rw [hidle]
      simp

/-- The replies hold no empty account. -/
def NonemptyData (es : List NodeEvent) : Prop := ∀ e ∈ es, e ≠ .accountData (.ok [])

theorem refreshed_of_run {workers : ω} {es : List NodeEvent} {s : Node ω} (hdata : NonemptyData es)
    (hrun : Lts.runFrom (step cache key) (init workers) es = some s) : Refreshed s :=
  Lts.runFrom_invariant_of_allSteps (refreshed_step cache key) (refreshed_init workers)
    (Lts.allSteps_of_forall_mem hdata) hrun

theorem blockedByLatest_iff {attempts : List Attempt} {a : SocketAddr} :
    BlockedByLatest attempts a ↔ ∃ nodes ids, Latest Attempt.Yields attempts (nodes, ids) ∧
      ∃ node ∈ nodes, node.tpuQuic = some a ∧ ∃ id ∈ ids, node.pubkey = id.toText := by
  unfold BlockedByLatest
  simp only [Prod.exists, mem_blockList, List.mem_map]
  refine exists₂_congr fun nodes ids => and_congr_right' (exists_congr fun node => ?_)
  rw [and_comm (a := ∃ id ∈ ids, id.toText = node.pubkey)]
  simp only [eq_comm]

/-- The call that a `send` event makes loads the block list in force. -/
theorem call_of_send {s s' : Node ω} {leaders : List SocketAddr}
    (h : step cache key s (.send leaders) = some s') :
    ∃ c, s'.system.calls = s.system.calls ++ [c] ∧ c.leaders = leaders ∧
      c.loaded = s.blockedLeaders := by
  obtain ⟨system, hsys, rfl⟩ := Option.map_eq_some_iff.mp h
  obtain ⟨batch, rest, -, rfl⟩ := System.step_send_eq_some cache hsys
  exact ⟨System.callFor cache s.system leaders batch, rfl, rfl, rfl⟩

/-- A step that ends an attempt takes the thread back to its loop. -/
theorem finished_of_step {s s' : Node ω} {e : NodeEvent} (he : e ≠ .accountData (.ok []))
    (h : step cache key s e = some s') {attempt : Attempt}
    (hattempt : s'.attempts = s.attempts ++ [attempt]) :
    s'.phase = .idle ∧
      ((∀ found, ¬ attempt.Yields found) → s'.blockedLeaders = s.blockedLeaders) := by
  have hne : s.attempts ≠ s.attempts ++ [attempt] := by simp
  cases did_of_step cache key h with
  | system f system => exact absurd hattempt hne
  | move phase cancelled => exact absurd hattempt hne
  | finish attempt' res hres hpanicked =>
    rw [attempts_finish, List.append_cancel_left_eq, List.singleton_inj] at hattempt
    subst hattempt
    refine ⟨phase_finish fun hp => he (hpanicked hp), fun hnone => ?_⟩
    apply blockedLeaders_finish
    intro addrs haddrs
    obtain ⟨found, hfound, -⟩ := (hres addrs).mp haddrs
    exact hnone found hfound

/-- **The last good list wins.** Every call loads the addresses that the latest good attempt
blocks. An attempt that is not good leaves the list as it was; after every attempt the thread is
back in its loop, where the next one can start, and it leaves the loop on cancellation only. -/
theorem last_good_list_wins {workers : ω} {es : List NodeEvent} {s : Node ω}
    (hdata : NonemptyData es) (hrun : Lts.runFrom (step cache key) (init workers) es = some s) :
    (∀ leaders s', step cache key s (.send leaders) = some s' →
      ∃ c, s'.system.calls = s.system.calls ++ [c] ∧ c.leaders = leaders ∧
        ∀ a, a ∈ c.loaded ↔ ∃ nodes ids, Latest Attempt.Yields s.attempts (nodes, ids) ∧
          ∃ node ∈ nodes, node.tpuQuic = some a ∧ ∃ id ∈ ids, node.pubkey = id.toText) ∧
    (∀ e s' attempt, e ≠ .accountData (.ok []) → step cache key s e = some s' →
      s'.attempts = s.attempts ++ [attempt] →
        s'.phase = .idle ∧
          ((∀ found, ¬ attempt.Yields found) → s'.blockedLeaders = s.blockedLeaders)) ∧
    (s.phase = .idle → ∃ s', step cache key s .tick = some s') ∧
    s.phase ≠ .panicked ∧ (s.phase = .exited → s.cancelled = true) := by
  have hs := refreshed_of_run cache key hdata hrun
  refine ⟨fun leaders s' h => ?_, fun e s' attempt he h => finished_of_step cache key he h,
    fun hidle => ?_, hs.alive, hs.exited⟩
  · obtain ⟨c, hcalls, hleaders, hloaded⟩ := call_of_send cache key h
    refine ⟨c, hcalls, hleaders, fun a => ?_⟩
    rw [hloaded, hs.blocked, blockedByLatest_iff]
  · simp only [step, hidle]
    exact ⟨_, rfl⟩

/-- The identity of 32 zero bytes. -/
def zeroKey : Pubkey := ⟨List.replicate 32 0, List.length_replicate⟩

/-- A policy that denies `zeroKey`. -/
def zeroPolicy : Octets := [0, 0, 0, 1, 0, 0, 0] ++ zeroKey.val

theorem denyPolicy_zeroPolicy : DenyPolicy zeroPolicy [zeroKey] :=
  .policy ⟨0, 0, 0, ⟨[1, 0, 0, 0], rfl⟩⟩ zeroKey.val rfl

/-- A node with the identity `zeroKey`. -/
def zeroNode : RpcContactInfo := ⟨List.replicate 32 49, none, some (System.localAddr 8001)⟩

/-- A refresh succeeds between two that fail, and then a protected submission comes. -/
def refreshedRun : List NodeEvent :=
  [.tick, .elapsed, .tick, .clusterNodes (.ok [zeroNode]), .accountData (.ok zeroPolicy), .tick,
    .clusterNodes (.error []), .submit [1] true .sent]

theorem last_good_list_wins_refreshedRun :
    ∃ s s', Lts.runFrom (step WorkersCache.accepting zeroKey) (init ()) refreshedRun = some s ∧
      step WorkersCache.accepting zeroKey s (.send [System.localAddr 8001]) = some s' ∧
      ∃ c, s'.system.calls = s.system.calls ++ [c] ∧ System.localAddr 8001 ∈ c.loaded := by
  have hmap : (Lts.runFrom (step WorkersCache.accepting zeroKey) (init ()) refreshedRun).map
      (fun s => (s.attempts, (step WorkersCache.accepting zeroKey s
        (.send [System.localAddr 8001])).isSome)) =
      some ([⟨none, none⟩, ⟨some (.ok [zeroNode]), some (.ok zeroPolicy)⟩,
        ⟨some (.error []), none⟩], true) := by decide
  obtain ⟨s, hrun, hs⟩ := Option.map_eq_some_iff.mp hmap
  obtain ⟨hattempts, hsome⟩ := Prod.mk.inj hs
  obtain ⟨s', hsend⟩ := Option.isSome_iff_exists.mp hsome
  have hdata : NonemptyData refreshedRun := by simp [NonemptyData, refreshedRun, zeroPolicy]
  obtain ⟨c, hcalls, -, hloaded⟩ :=
    (last_good_list_wins WorkersCache.accepting zeroKey hdata hrun).1 _ s' hsend
  refine ⟨s, s', hrun, hsend, c, hcalls, (hloaded _).mpr ⟨[zeroNode], [zeroKey], ?_, zeroNode,
    by simp, rfl, zeroKey, by simp, by decide⟩⟩
  rw [hattempts]
  refine ⟨[⟨none, none⟩], _, [⟨some (.error []), none⟩], rfl,
    ⟨rfl, zeroPolicy, rfl, denyPolicy_zeroPolicy⟩, ?_⟩
  simp [Attempt.Yields]

end Node

end Iris
