import Iris.Delivery
import Iris.Refresh

/-!
# The process

The servers, the channel and the broadcaster together with the refresh thread, which reads the
policy account while transactions come and go.

* `Process`, `ProcessEvent`, `step`: the system;
* `exists_relay_run`: its transactions go the way they go in a `Relay`;
* `Current`, **`current_run`**: its block list is the one of the latest good attempt, whatever the
  replies;
* **`client_to_worker`**: what a call hands over, from the client's input and the policy account to
  the worker;
* **`frozen_once_ended`**: when the thread has ended, the block list stays as it is.
-/

namespace Iris

namespace Node

variable {ω κ : Type} (cache : WorkersCache Submission ω κ) (key : Pubkey)

/-- The block list is the one of the latest good attempt. -/
theorem blocked_step {s s' : Node ω} {e : NodeEvent}
    (hs : ∀ a, a ∈ s.blockedLeaders ↔ BlockedByLatest s.attempts a)
    (h : step cache key s e = some s') (a : SocketAddr) :
    a ∈ s'.blockedLeaders ↔ BlockedByLatest s'.attempts a := by
  cases did_of_step cache key h with
  | system f system hf hsys =>
    have hblocked : system.broadcaster.blockedLeaders = s.blockedLeaders :=
      System.blockedLeaders_step cache hsys hf
    rw [blockedLeaders, hblocked]
    exact hs a
  | move phase cancelled => exact hs a
  | finish attempt res hres => exact blocked_finish hres hs a

/-- The thread has ended: it was cancelled, or it has panicked. -/
def Ended (phase : RefreshPhase) : Prop := phase = .exited ∨ phase = .panicked

/-- A thread that has ended does nothing. -/
theorem ended_step {s s' : Node ω} {e : NodeEvent} (hs : Ended s.phase)
    (h : step cache key s e = some s') :
    s'.phase = s.phase ∧ s'.blockedLeaders = s.blockedLeaders := by
  have hsystem : ∀ f, (∀ blocked, f ≠ Event.refresh blocked) → systemStep cache s f = some s' →
      s'.phase = s.phase ∧ s'.blockedLeaders = s.blockedLeaders := by
    intro f hf hs'
    obtain ⟨system, hsys, rfl⟩ := Option.map_eq_some_iff.mp hs'
    exact ⟨rfl, System.blockedLeaders_step cache hsys hf⟩
  cases e with
  | submit w m outcome => exact hsystem _ (by simp) h
  | flush outcome => exact hsystem _ (by simp) h
  | send leaders => exact hsystem _ (by simp) h
  | cancel =>
    cases h
    exact ⟨rfl, rfl⟩
  | _ => rcases hs with hphase | hphase <;> simp [step, hphase] at h

/-- Only one event sets the token. -/
theorem cancelled_step {s s' : Node ω} {e : NodeEvent} (he : e ≠ .cancel)
    (h : step cache key s e = some s') : s'.cancelled = s.cancelled := by
  have hsystem : ∀ f, systemStep cache s f = some s' → s'.cancelled = s.cancelled := by
    intro f hs'
    obtain ⟨system, -, rfl⟩ := Option.map_eq_some_iff.mp hs'
    rfl
  have hfinish : ∀ (attempt : Attempt) res, (s.finish attempt res).cancelled = s.cancelled := by
    intro attempt res
    cases res <;> rfl
  cases e with
  | submit w m outcome => exact hsystem _ h
  | flush outcome => exact hsystem _ h
  | send leaders => exact hsystem _ h
  | cancel => exact absurd rfl he
  | observeCancel =>
    simp only [step] at h
    split at h
    · split_ifs at h
      cases h
      rfl
    · cases h
  | tick =>
    simp only [step] at h
    split at h
    · cases h
      rfl
    · cases h
  | clusterNodes reply =>
    simp only [step] at h
    split at h
    · cases h
      rfl
    · cases h
      exact hfinish _ _
    · cases h
  | accountData reply =>
    simp only [step] at h
    split at h
    · cases h
      exact hfinish _ _
    · cases h
  | elapsed =>
    simp only [step] at h
    split at h
    · cases h
      exact hfinish _ _
    · cases h
      exact hfinish _ _
    · cases h

/-- The thread exits only when the token is set. -/
theorem exited_step {s s' : Node ω} {e : NodeEvent} (hs : s.phase = .exited → s.cancelled = true)
    (h : step cache key s e = some s') (hexited : s'.phase = .exited) : s.cancelled = true := by
  cases did_of_step cache key h with
  | system f system hf hsys => exact hs hexited
  | move phase cancelled hpanicked hexits =>
    exact (hexits hexited).elim (fun hphase => hs (hphase.trans hexited)) id
  | finish attempt res hres =>
    cases res <;> cases hexited

end Node

variable {ε ω κ : Type}

/-- The servers, the channel and the broadcaster, the refresh thread and its token, and a record of
the attempts. -/
structure Process (ε ω : Type) where
  relay : Relay ε ω
  phase : RefreshPhase
  cancelled : Bool
  attempts : List Attempt

/-- What can happen next. -/
inductive ProcessEvent (ε : Type)
  | arrive (input : IngressInput ε)
  | run (i : ℕ) (outcome : TrySend)
  | flush (outcome : TrySend)
  | send (leaders : List SocketAddr)
  | cancel
  | observeCancel
  | tick
  | clusterNodes (reply : Except AnyhowError (List RpcContactInfo))
  | accountData (reply : Except AnyhowError Octets)
  | elapsed

namespace Process

open Lts

def init (workers : ω) : Process ε ω := ⟨Relay.init workers, .idle, false, []⟩

/-- The block list in force. -/
def blockedLeaders (s : Process ε ω) : Finset SocketAddr :=
  s.relay.service.broadcaster.blockedLeaders

/-- The thread with the block list it shares, and nothing else of the system. -/
def thread (s : Process ε ω) : Node Unit where
  system := { System.init () with broadcaster := ⟨s.blockedLeaders, []⟩ }
  phase := s.phase
  cancelled := s.cancelled
  attempts := s.attempts

/-- The state after the thread has made a step. -/
def withThread (s : Process ε ω) (t : Node Unit) : Process ε ω where
  relay := { s.relay with
    service := { s.relay.service with
      broadcaster := { s.relay.service.broadcaster with blockedLeaders := t.blockedLeaders } } }
  phase := t.phase
  cancelled := t.cancelled
  attempts := t.attempts

variable (cache : WorkersCache Submission ω κ) (wincode : Wincode) (env : RpcEnv ε) (key : Pubkey)

/-- A step of the servers, the channel or the broadcaster. -/
def relayStep (s : Process ε ω) (e : RelayEvent ε) : Option (Process ε ω) :=
  (Relay.step cache wincode env s.relay e).map fun relay => { s with relay }

/-- A step of the refresh thread. -/
def threadStep (s : Process ε ω) (e : NodeEvent) : Option (Process ε ω) :=
  (Node.step WorkersCache.accepting key s.thread e).map s.withThread

/-- One step. -/
def step (s : Process ε ω) : ProcessEvent ε → Option (Process ε ω)
  | .arrive input => relayStep cache wincode env s (.arrive input)
  | .run i outcome => relayStep cache wincode env s (.run i outcome)
  | .flush outcome => relayStep cache wincode env s (.flush outcome)
  | .send leaders => relayStep cache wincode env s (.send leaders)
  | .cancel => threadStep key s .cancel
  | .observeCancel => threadStep key s .observeCancel
  | .tick => threadStep key s .tick
  | .clusterNodes reply => threadStep key s (.clusterNodes reply)
  | .accountData reply => threadStep key s (.accountData reply)
  | .elapsed => threadStep key s .elapsed

/-- All that a step can do. -/
inductive Did (s : Process ε ω) (e : ProcessEvent ε) : Process ε ω → Prop
  | relay (f : RelayEvent ε) (hf : ∀ blocked, f ≠ .refresh blocked)
      (harrive : ∀ input, f = .arrive input → e = .arrive input) (relay : Relay ε ω)
      (hstep : Relay.step cache wincode env s.relay f = some relay) : Did s e { s with relay }
  | thread (f : NodeEvent) (hcancel : f = .cancel → e = .cancel) (t : Node Unit)
      (hstep : Node.step WorkersCache.accepting key s.thread f = some t) :
      Did s e (s.withThread t)

theorem did_of_step {s s' : Process ε ω} {e : ProcessEvent ε}
    (h : step cache wincode env key s e = some s') : Did cache wincode env key s e s' := by
  have hrelay : ∀ f, (∀ blocked, f ≠ RelayEvent.refresh blocked) →
      (∀ input, f = .arrive input → e = .arrive input) →
        relayStep cache wincode env s f = some s' → Did cache wincode env key s e s' := by
    intro f hf harrive hs
    obtain ⟨relay, hstep, rfl⟩ := Option.map_eq_some_iff.mp hs
    exact .relay f hf harrive relay hstep
  have hthread : ∀ f, (f = NodeEvent.cancel → e = .cancel) → threadStep key s f = some s' →
      Did cache wincode env key s e s' := by
    intro f hcancel hs
    obtain ⟨t, hstep, rfl⟩ := Option.map_eq_some_iff.mp hs
    exact .thread f hcancel t hstep
  cases e with
  | arrive input => exact hrelay _ (by simp) (by simp) h
  | run i outcome => exact hrelay _ (by simp) (by simp) h
  | flush outcome => exact hrelay _ (by simp) (by simp) h
  | send leaders => exact hrelay _ (by simp) (by simp) h
  | cancel => exact hthread _ (by simp) h
  | observeCancel => exact hthread _ (by simp) h
  | tick => exact hthread _ (by simp) h
  | clusterNodes reply => exact hthread _ (by simp) h
  | accountData reply => exact hthread _ (by simp) h
  | elapsed => exact hthread _ (by simp) h

/-- **The transactions of the process** go the way they go in a `Relay`: a step of the thread is a
refresh with the list there is afterwards. -/
theorem exists_relay_run {workers : ω} {es : List (ProcessEvent ε)} {s : Process ε ω}
    (hrun : runFrom (step cache wincode env key) (init workers) es = some s) :
    ∃ fs, runFrom (Relay.step cache wincode env) (Relay.init workers) fs = some s.relay :=
  runFrom_simulate relay (fun s e s' h => by
    cases did_of_step cache wincode env key h with
    | relay f hf harrive relay hstep => exact ⟨[f], runFrom_cons_eq_some.mpr ⟨_, hstep, rfl⟩⟩
    | thread f hcancel t hstep => exact ⟨[.refresh t.blockedLeaders], rfl⟩) hrun

/-! ## The block list -/

theorem blockedLeaders_service_step {s s' : Service ε Submission}
    {f : ServiceEvent ε Submission} (hf : ∀ blocked, f ≠ .refresh blocked)
    (h : Service.step wincode env s f = some s') :
    s'.broadcaster.blockedLeaders = s.broadcaster.blockedLeaders := by
  cases Service.did_of_step wincode env h with
  | refreshed blocked => exact absurd rfl (hf blocked)
  | _ => rfl

/-- Only the thread replaces the block list. -/
theorem blockedLeaders_relay_step {s s' : Relay ε ω} {e : RelayEvent ε}
    (he : ∀ blocked, e ≠ .refresh blocked) (h : Relay.step cache wincode env s e = some s') :
    s'.service.broadcaster.blockedLeaders = s.service.broadcaster.blockedLeaders := by
  cases e with
  | refresh blocked => exact absurd rfl (he blocked)
  | arrive input =>
    obtain ⟨service, hstep, rfl⟩ := Relay.exists_of_serviceStep wincode env h
    exact blockedLeaders_service_step wincode env (by simp) hstep
  | run i outcome =>
    obtain ⟨t, ht, rfl⟩ := Option.map_eq_some_iff.mp h
    obtain ⟨service, hstep, rfl⟩ := Relay.exists_of_serviceStep wincode env ht
    exact blockedLeaders_service_step wincode env (by simp) hstep
  | flush outcome =>
    obtain ⟨service, hstep, rfl⟩ := Relay.exists_of_serviceStep wincode env h
    exact blockedLeaders_service_step wincode env (by simp) hstep
  | send leaders =>
    cases Relay.did_of_step cache wincode env h with
    | service f service hsend => exact absurd rfl (hsend leaders)
    | sent leaders batch rest hchannel =>
      rw [Relay.service_afterSend]
      rfl

/-- The block list is the one of the latest good attempt. -/
def Current (s : Process ε ω) : Prop :=
  ∀ a, a ∈ s.blockedLeaders ↔ Node.BlockedByLatest s.attempts a

theorem current_step (s : Process ε ω) (e : ProcessEvent ε) (s' : Process ε ω) (hs : Current s)
    (h : step cache wincode env key s e = some s') : Current s' := by
  cases did_of_step cache wincode env key h with
  | relay f hf harrive relay hstep =>
    have hkept := blockedLeaders_relay_step cache wincode env hf hstep
    intro a
    rw [blockedLeaders, hkept]
    exact hs a
  | thread f hcancel t hstep =>
    have hthread : ∀ a, a ∈ s.thread.blockedLeaders ↔ Node.BlockedByLatest s.thread.attempts a := hs
    exact Node.blocked_step _ key hthread hstep

/-- **Whatever the replies**, an empty account included. -/
theorem current_run {workers : ω} {es : List (ProcessEvent ε)} {s : Process ε ω}
    (hrun : runFrom (step cache wincode env key) (init workers) es = some s) : Current s := by
  have hinit : Current (init workers : Process ε ω) := (Node.refreshed_init ()).blocked
  exact runFrom_invariant (current_step cache wincode env key) hinit hrun

/-! ## Calls -/

/-- The call of a `send` event. -/
theorem handoff_of_send {s s' : Process ε ω} {leaders : List SocketAddr}
    (h : step cache wincode env key s (.send leaders) = some s') :
    ∃ c, s'.relay.handoffs = s.relay.handoffs ++ [c] ∧ c.leaders = leaders ∧
      c.loaded = s.blockedLeaders ∧ s'.relay.service.handlers = s.relay.service.handlers := by
  obtain ⟨relay, hstep, rfl⟩ := Option.map_eq_some_iff.mp h
  cases Relay.did_of_step cache wincode env hstep with
  | service f service hsend => exact absurd rfl (hsend leaders)
  | sent leaders batch rest hchannel =>
    exact ⟨Relay.handoffFor cache s.relay leaders batch, rfl, rfl, rfl, rfl⟩

/-- **From the client and the policy to the worker.** A call hands each transaction that it
releases to each of its leaders, and nothing else. The transaction is, byte for byte, what a client
has submitted to one of the handlers; and if the client asked for protection, no leader of the call
is the QUIC address of a node whose identity is in the deny policy of the latest attempt that could
read one. -/
theorem client_to_worker {workers : ω} {es : List (ProcessEvent ε)} {s s' : Process ε ω}
    {leaders : List SocketAddr}
    (hrun : runFrom (step cache wincode env key) (init workers) es = some s)
    (hsend : step cache wincode env key s (.send leaders) = some s') :
    ∃ c, s'.relay.handoffs = s.relay.handoffs ++ [c] ∧
      (c.handed = c.ready.flatMap fun t => leaders.map fun a => (t, a)) ∧
      ∀ b ∈ c.ready, ∃ i h w m, s.relay.service.handlers[i]? = some h ∧
        h.input.Submits wincode env w m ∧ b = Bytes.fromVec ⟨i, w, m⟩ w ∧
        (m = true → ∀ a ∈ leaders, ¬ ∃ nodes ids, Latest Attempt.Yields s.attempts (nodes, ids) ∧
          ∃ node ∈ nodes, node.tpuQuic = some a ∧ ∃ id ∈ ids, node.pubkey = id.toText) := by
  obtain ⟨c, hhandoffs, rfl, hloaded, hhandlers⟩ := handoff_of_send cache wincode env key hsend
  obtain ⟨fs, hrelay⟩ := exists_relay_run cache wincode env key (runFrom_concat hrun hsend)
  have hc : c ∈ s'.relay.handoffs := by
    rw [hhandoffs]
    exact List.mem_append_right _ (List.mem_singleton_self c)
  have hsound := Relay.sound_run cache wincode env hrelay c hc
  refine ⟨c, hhandoffs, hsound.handed, fun b hb => ?_⟩
  obtain ⟨i, h, w, m, hi, hsubmits, -, rfl⟩ :=
    Relay.exists_handler_of_ready cache wincode env hrelay hc hb
  rw [hhandlers] at hi
  refine ⟨i, h, w, m, hi, hsubmits, rfl, fun hm a ha hlisted => ?_⟩
  have hblocked : a ∈ s.blockedLeaders :=
    (current_run cache wincode env key hrun a).mpr (Node.blockedByLatest_iff.mpr hlisted)
  rw [← hloaded] at hblocked
  exact hsound.shielded _ hb hm a ha hblocked

/-- A refresh with a policy that denies a node, and then a protected packet that waits in the
channel. -/
def packetRun : List (ProcessEvent TransactionBinaryEncoding) :=
  [.tick, .clusterNodes (.ok [Node.zeroNode]), .accountData (.ok Node.zeroPolicy),
    .arrive (.quic (.finished (TransactionPacket.layout ⟨[7], true, none⟩))), .run 0 .sent,
    .run 0 .sent, .run 0 .sent, .run 0 .sent]

theorem client_to_worker_packetRun :
    ∃ s s', runFrom (step WorkersCache.accepting Wincode.standard sampleEnv Node.zeroKey) (init ())
        packetRun = some s ∧
      step WorkersCache.accepting Wincode.standard sampleEnv Node.zeroKey s
        (.send [System.localAddr 8002]) = some s' ∧
      ∃ c, s'.relay.handoffs = s.relay.handoffs ++ [c] ∧
        c.handed = c.ready.flatMap fun t => [System.localAddr 8002].map fun a => (t, a) := by
  have hmap : (runFrom (step WorkersCache.accepting Wincode.standard sampleEnv Node.zeroKey)
      (init ()) packetRun).map (fun s => (step WorkersCache.accepting Wincode.standard sampleEnv
        Node.zeroKey s (.send [System.localAddr 8002])).isSome) = some true := by decide
  obtain ⟨s, hrun, hsome⟩ := Option.map_eq_some_iff.mp hmap
  obtain ⟨s', hsend⟩ := Option.isSome_iff_exists.mp hsome
  obtain ⟨c, hhandoffs, hhanded, -⟩ := client_to_worker WorkersCache.accepting Wincode.standard
    sampleEnv Node.zeroKey hrun hsend
  exact ⟨s, s', hrun, hsend, c, hhandoffs, hhanded⟩

/-! ## The end of the thread -/

/-- What happens from a state on where the thread has ended. -/
structure Frozen (s s' : Process ε ω) : Prop where
  phase : s'.phase = s.phase
  blocked : s'.blockedLeaders = s.blockedLeaders
  handoffs : ∃ more, s'.relay.handoffs = s.relay.handoffs ++ more ∧
    ∀ c ∈ more, c.loaded = s.blockedLeaders

theorem frozen_self (s : Process ε ω) : Frozen s s :=
  ⟨rfl, rfl, [], (List.append_nil _).symm, nofun⟩

theorem Frozen.trans {s t u : Process ε ω} (hst : Frozen s t) (htu : Frozen t u) : Frozen s u where
  phase := htu.phase.trans hst.phase
  blocked := htu.blocked.trans hst.blocked
  handoffs := by
    obtain ⟨more, hmore, hloaded⟩ := hst.handoffs
    obtain ⟨more', hmore', hloaded'⟩ := htu.handoffs
    refine ⟨more ++ more', by rw [hmore', hmore, List.append_assoc], fun c hc => ?_⟩
    rcases List.mem_append.mp hc with hc | hc
    · exact hloaded c hc
    · exact (hloaded' c hc).trans hst.blocked

theorem frozen_step {s s' : Process ε ω} {e : ProcessEvent ε} (hs : Node.Ended s.phase)
    (h : step cache wincode env key s e = some s') : Frozen s s' := by
  cases did_of_step cache wincode env key h with
  | relay f hf harrive relay hstep =>
    refine ⟨rfl, blockedLeaders_relay_step cache wincode env hf hstep, ?_⟩
    cases Relay.did_of_step cache wincode env hstep with
    | service | accepted => exact ⟨[], (List.append_nil _).symm, nofun⟩
    | sent leaders batch rest hchannel =>
      refine ⟨[Relay.handoffFor cache s.relay leaders batch], rfl, fun c hc => ?_⟩
      rw [List.mem_singleton.mp hc]
      rfl
  | thread f hcancel t hstep =>
    obtain ⟨hphase, hblocked⟩ := Node.ended_step WorkersCache.accepting key hs hstep
    exact ⟨hphase, hblocked, [], (List.append_nil _).symm, nofun⟩

/-- **When the thread has ended**, because it was cancelled or because it has panicked, the block
list stays as it is: whatever happens from then on, every call loads the same list. -/
theorem frozen_once_ended {es : List (ProcessEvent ε)} {s s' : Process ε ω}
    (hs : s.phase = .exited ∨ s.phase = .panicked)
    (hrun : runFrom (step cache wincode env key) s es = some s') :
    s'.blockedLeaders = s.blockedLeaders ∧
      ∃ more, s'.relay.handoffs = s.relay.handoffs ++ more ∧
        ∀ c ∈ more, c.loaded = s.blockedLeaders := by
  have hstep : ∀ t e t', Frozen s t → step cache wincode env key t e = some t' → Frozen s t' := by
    intro t e t' ht h
    have hended : Node.Ended t.phase := ht.phase.symm ▸ hs
    exact ht.trans (frozen_step cache wincode env key hended h)
  have hfrozen := runFrom_invariant hstep (frozen_self s) hrun
  exact ⟨hfrozen.blocked, hfrozen.handoffs⟩

/-- An account without data ends the thread; then a call for the packet that waits. -/
def panickedRun : List (ProcessEvent TransactionBinaryEncoding) :=
  packetRun ++ [.tick, .clusterNodes (.ok []), .accountData (.ok [])]

theorem frozen_once_ended_panickedRun :
    ∃ s s', runFrom (step WorkersCache.accepting Wincode.standard sampleEnv Node.zeroKey) (init ())
        panickedRun = some s ∧ s.phase = .panicked ∧
      runFrom (step WorkersCache.accepting Wincode.standard sampleEnv Node.zeroKey) s
        [.send [System.localAddr 8001]] = some s' ∧ s'.blockedLeaders = s.blockedLeaders := by
  have hmap : (runFrom (step WorkersCache.accepting Wincode.standard sampleEnv Node.zeroKey)
      (init ()) panickedRun).map (fun s => (s.phase, (runFrom (step WorkersCache.accepting
        Wincode.standard sampleEnv Node.zeroKey) s [.send [System.localAddr 8001]]).isSome)) =
          some (.panicked, true) := by decide
  obtain ⟨s, hrun, hs⟩ := Option.map_eq_some_iff.mp hmap
  obtain ⟨hphase, hsome⟩ := Prod.mk.inj hs
  obtain ⟨s', hrun'⟩ := Option.isSome_iff_exists.mp hsome
  exact ⟨s, s', hrun, hphase, hrun', (frozen_once_ended WorkersCache.accepting Wincode.standard
    sampleEnv Node.zeroKey (Or.inr hphase) hrun').1⟩

end Process

end Iris
