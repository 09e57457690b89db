import Iris.Refresh

/-!
# Protection against a fixed policy

The policy account and the cluster nodes do not change, but requests may fail.

* `FixedReplies`, `ReachesListed`: the replies of such a run, and the calls to be ruled out;
* `Settled`, `settled_of_run`: what the attempts of such a run have read;
* **`shielded_once_refreshed`**: after one good attempt no call hands a protected submission to a
  listed node;
* `unshielded_at_startup`: before it, one can.
-/

namespace Iris

/-- Each reply is an error, or the given node list or account. -/
def FixedReplies (nodes : List RpcContactInfo) (data : Octets) (es : List NodeEvent) : Prop :=
  ∀ e ∈ es, (∀ ns, e = .clusterNodes (.ok ns) → ns = nodes) ∧
    ∀ d, e = .accountData (.ok d) → d = data

/-- The call hands a protected submission to the QUIC address of a listed node. -/
def Call.ReachesListed (nodes : List RpcContactInfo) (ids : List Pubkey) (c : Call) : Prop :=
  ∃ h ∈ c.handed, ∃ sub : Submission, h.1.alloc = some sub ∧ sub.mevProtect = true ∧
    ∃ node ∈ nodes, (∃ id ∈ ids, node.pubkey = id.toText) ∧ node.tpuQuic = some h.2

/-- An account holds the identities of one policy. -/
theorem DenyPolicy.unique {data : Octets} {ids ids' : List Pubkey} (h : DenyPolicy data ids)
    (h' : DenyPolicy data ids') : ids = ids' := by
  have hok := strategyAndIdentities_eq_ok.mpr ⟨0, h, rfl⟩
  rw [strategyAndIdentities_eq_ok.mpr ⟨0, h', rfl⟩] at hok
  cases hok
  rfl

namespace Node

variable {ω κ : Type} (cache : WorkersCache Submission ω κ) (key : Pubkey)
  {nodes : List RpcContactInfo} {data : Octets} {ids : List Pubkey}

variable (nodes data) in
/-- The replies got so far are the fixed ones. -/
structure Settled (s : Node ω) : Prop where
  phase : ∀ ns, s.phase = .accountData ns → ns = nodes
  clusterNodes : ∀ a ∈ s.attempts, ∀ ns, a.clusterNodes = some (.ok ns) → ns = nodes
  accountData : ∀ a ∈ s.attempts, ∀ d, a.accountData = some (.ok d) → d = data

theorem settled_init (workers : ω) : Settled nodes data (init workers) where
  phase := by intro ns h; cases h
  clusterNodes := by intro a h; cases h
  accountData := by intro a h; cases h

theorem settled_step (s : Node ω) (e : NodeEvent) (s' : Node ω) (hs : Settled nodes data s)
    (he : (∀ ns, e = .clusterNodes (.ok ns) → ns = nodes) ∧
      ∀ d, e = .accountData (.ok d) → d = data)
    (h : step cache key s e = some s') : Settled nodes data s' := by
  cases did_of_step cache key h with
  | system f system => exact ⟨hs.phase, hs.clusterNodes, hs.accountData⟩
  | move phase cancelled hpanicked hexited hasked =>
    refine ⟨fun ns hns => ?_, hs.clusterNodes, hs.accountData⟩
    rcases hasked ns hns with hphase | hasked
    · exact hs.phase ns (hphase.trans hns)
    · exact he.1 ns hasked
  | finish attempt res hres hpanicked hnodes hdata =>
    have hmem : ∀ {a}, a ∈ (s.finish attempt res).attempts → a ∈ s.attempts ∨ a = attempt := by
      intro a ha
      rwa [attempts_finish, List.mem_append, List.mem_singleton] at ha
    refine ⟨fun ns hns => ?_, fun a ha ns hns => ?_, fun a ha d hd => ?_⟩
    · cases res <;> cases hns
    · rcases hmem ha with ha | rfl
      · exact hs.clusterNodes a ha ns hns
      · exact hs.phase ns (hnodes ns hns)
    · rcases hmem ha with ha | rfl
      · exact hs.accountData a ha d hd
      · exact he.2 d (hdata d hd)

theorem settled_of_run {workers : ω} {es : List NodeEvent} {s : Node ω}
    (hfixed : FixedReplies nodes data es)
    (hrun : Lts.runFrom (step cache key) (init workers) es = some s) : Settled nodes data s :=
  Lts.runFrom_invariant_of_allSteps (settled_step cache key) (settled_init workers)
    (Lts.allSteps_of_forall_mem hfixed) hrun

/-- A deny policy is not empty data. -/
theorem nonemptyData_of_fixedReplies {es : List NodeEvent} (hpolicy : DenyPolicy data ids)
    (hfixed : FixedReplies nodes data es) : NonemptyData es := by
  intro e he hempty
  have hnil := (hfixed e he).2 [] hempty
  rw [← hnil] at hpolicy
  cases hpolicy

/-- After a good attempt the listed nodes are blocked. -/
theorem mem_blockedLeaders_of_listed {s : Node ω} (hs : Refreshed s) (hset : Settled nodes data s)
    (hpolicy : DenyPolicy data ids) (hgood : ∃ attempt ∈ s.attempts, ∃ found, attempt.Yields found)
    {node : RpcContactInfo} (hnode : node ∈ nodes) (hlisted : ∃ id ∈ ids, node.pubkey = id.toText)
    {a : SocketAddr} (ha : node.tpuQuic = some a) : a ∈ s.blockedLeaders := by
  obtain ⟨⟨ns, is⟩, hlatest⟩ := exists_latest hgood
  obtain ⟨attempt, hattempt, hns, d, hd, his⟩ := hlatest.exists_mem
  have hnodes : ns = nodes := hset.clusterNodes attempt hattempt ns hns
  have hdata : d = data := hset.accountData attempt hattempt d hd
  rw [hdata] at his
  have hids : is = ids := his.unique hpolicy
  rw [hs.blocked, blockedByLatest_iff]
  rw [hnodes, hids] at hlatest
  exact ⟨nodes, ids, hlatest, node, hnode, ha, hlisted⟩

/-- **Protection after one good attempt.** No later call hands a protected submission to the QUIC
address of a node that the policy lists. -/
theorem shielded_once_refreshed {workers : ω} {es : List NodeEvent} {s s' : Node ω}
    {leaders : List SocketAddr} (hpolicy : DenyPolicy data ids) (hfixed : FixedReplies nodes data es)
    (hrun : Lts.runFrom (step cache key) (init workers) es = some s)
    (hgood : ∃ attempt ∈ s.attempts, ∃ found, attempt.Yields found)
    (hsend : step cache key s (.send leaders) = some s') :
    ∃ c, s'.system.calls = s.system.calls ++ [c] ∧ ¬ c.ReachesListed nodes ids := by
  have hs := refreshed_of_run cache key (nonemptyData_of_fixedReplies hpolicy hfixed) hrun
  have hset := settled_of_run cache key hfixed hrun
  obtain ⟨c, hcalls, -, hloaded⟩ := call_of_send cache key hsend
  refine ⟨c, hcalls, ?_⟩
  rintro ⟨h, hh, sub, hsub, hm, node, hnode, hlisted, ha⟩
  obtain ⟨fs, hfs⟩ := simulates cache key (Lts.runFrom_concat hrun hsend)
  have hsafe := System.callsSafe_of_run cache hfs
  have hc : c ∈ s'.system.calls := by rw [hcalls]; simp
  apply hsafe.not_mem_loaded hc hh hsub hm
  rw [hloaded]
  exact mem_blockedLeaders_of_listed hs hset hpolicy hgood hnode hlisted ha

/-- A refresh succeeds, and then a protected submission waits in the channel. -/
def settledRun : List NodeEvent :=
  [.tick, .clusterNodes (.ok [zeroNode]), .accountData (.ok zeroPolicy), .submit [1] true .sent]

theorem shielded_once_refreshed_settledRun :
    ∃ s s', Lts.runFrom (step WorkersCache.accepting zeroKey) (init ()) settledRun = some s ∧
      step WorkersCache.accepting zeroKey s (.send [System.localAddr 8001]) = some s' ∧
      ∃ c, s'.system.calls = s.system.calls ++ [c] ∧ ¬ c.ReachesListed [zeroNode] [zeroKey] := by
  have hmap : (Lts.runFrom (step WorkersCache.accepting zeroKey) (init ()) settledRun).map
      (fun s => (s.attempts, (step WorkersCache.accepting zeroKey s
        (.send [System.localAddr 8001])).isSome)) =
          some ([⟨some (.ok [zeroNode]), some (.ok zeroPolicy)⟩], true) := by decide
  obtain ⟨s, hrun, hs⟩ := Option.map_eq_some_iff.mp hmap
  obtain ⟨hattempts, hsome⟩ := Prod.mk.inj hs
  obtain ⟨s', hsend⟩ := Option.isSome_iff_exists.mp hsome
  have hfixed : FixedReplies [zeroNode] zeroPolicy settledRun := by
    simp [FixedReplies, settledRun]
  have hgood : ∃ attempt ∈ s.attempts, ∃ found, attempt.Yields found := by
    rw [hattempts]
    exact ⟨_, List.mem_singleton_self _, ([zeroNode], [zeroKey]), rfl, zeroPolicy, rfl,
      denyPolicy_zeroPolicy⟩
  exact ⟨s, s', hrun, hsend, shielded_once_refreshed WorkersCache.accepting zeroKey
    denyPolicy_zeroPolicy hfixed hrun hgood hsend⟩

/-- The first refresh fails, and a protected submission meets a listed node. -/
def startupRun : List NodeEvent :=
  [.tick, .elapsed, .submit [1] true .sent, .send [System.localAddr 8001]]

/-- **No protection before the first good attempt.** -/
theorem unshielded_at_startup :
    ¬ ∀ (nodes : List RpcContactInfo) (data : Octets) (ids : List Pubkey) (es : List NodeEvent)
      (s : Node Unit), DenyPolicy data ids → FixedReplies nodes data es →
        Lts.runFrom (step WorkersCache.accepting zeroKey) (init ()) es = some s →
          ∀ c ∈ s.system.calls, ¬ c.ReachesListed nodes ids := by
  intro hall
  have hmap : (Lts.runFrom (step WorkersCache.accepting zeroKey) (init ()) startupRun).map
      (fun s => s.system.calls.map Call.handed) =
        some [[(⟨some ⟨0, [1], true⟩, [1]⟩, System.localAddr 8001)]] := by decide
  obtain ⟨s, hrun, hs⟩ := Option.map_eq_some_iff.mp hmap
  have hfixed : FixedReplies [zeroNode] zeroPolicy startupRun := by simp [FixedReplies, startupRun]
  obtain ⟨c, hc, hhanded⟩ : ∃ c ∈ s.system.calls, c.handed =
      [(⟨some ⟨0, [1], true⟩, [1]⟩, System.localAddr 8001)] := by
    have hmem := List.mem_singleton_self [((⟨some ⟨0, [1], true⟩, [1]⟩ : Bytes Submission),
      System.localAddr 8001)]
    rw [← hs] at hmem
    exact List.mem_map.mp hmem
  apply hall [zeroNode] zeroPolicy [zeroKey] startupRun s denyPolicy_zeroPolicy hfixed hrun c hc
  refine ⟨_, by rw [hhanded]; exact List.mem_singleton_self _, ⟨0, [1], true⟩, rfl, rfl, zeroNode,
    by simp, ⟨zeroKey, by simp, ?_⟩, rfl⟩
  decide

end Node

end Iris
