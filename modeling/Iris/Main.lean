import Iris.Process
import Iris.QuicConnections
import Iris.SlotFeed

/-!
# The program

`run` starts the threads, waits for the one of the JSON-RPC server, then sets the token and waits
for the one of the QUIC server. The threads and the tasks go on in any order, and the one of the
subscription may abort the program.

The model begins when `run` has spawned them all: it leaves out the early ends of `run`, by an
`expect` or by the `?` of `spawn_new`. It takes the token to be set by `run` alone, although the
node address service, which is not part of the repository, holds it too.

* `Main`, `MainEvent`, `step`: the parts of the program together; `Did`, **`did_of_step`**;
* `exists_process_run`, `exists_quic_run`, `exists_feed_run`, **`parts_run`**: its parts run as they
  do by themselves;
* `Ordered`, **`ordered_step`**: what is set, ended and returned, and in which order;
* **`up_until_rpc_ends`**: nothing winds down before the JSON-RPC server does;
* **`quiet_after_return`**: when `run` has returned, nothing arrives.
-/

namespace Iris

variable {ε ω κ : Type}

/-- Where a thread is that binds an address first. -/
inductive ServerThread
  | starting
  | serving
  | finished
  | panicked
deriving DecidableEq, Repr

/-- Where `run` is. -/
inductive MainPhase
  | joiningRpc
  | joiningQuic
  | returned
  | panicked
deriving DecidableEq, Repr

/-- `run`, the thread of the JSON-RPC server, the one of the QUIC server if there is one, with the
relay and the token, the refresh thread, and the subscription with its channel. -/
structure Main (ε ω : Type) where
  phase : MainPhase
  rpc : ServerThread
  quic : Option ServerThread
  server : QuicServer ε ω
  refresh : RefreshPhase
  attempts : List Attempt
  feed : SlotFeed

/-- What can happen next. -/
inductive MainEvent (ε : Type)
  | bindRpc (bound : Bool)
  | json (txn : Text) (params : Option (RpcSendTransactionConfig ε)) (mevProtect : Option Bool)
  | rpcStopped
  | rpcCancelled
  | joinRpc
  | bindQuic (bound : Bool)
  | quic (e : QuicEvent ε)
  | joinQuic
  | process (e : ProcessEvent ε)
  | feed (e : SlotFeedEvent)

/-- The event is one of the thread of the server itself. -/
def QuicEvent.isOwn : QuicEvent ε → Bool
  | .relay _ | .cancel => false
  | _ => true

/-- The event is one of the handlers, the flush task, the scheduler or the refresh thread. -/
def ProcessEvent.isOwn : ProcessEvent ε → Bool
  | .arrive _ | .cancel => false
  | _ => true

/-- The event is not the setting of the token. -/
def SlotFeedEvent.isOwn : SlotFeedEvent → Bool
  | .task .cancel => false
  | _ => true

namespace Main

open Lts

/-- The start of `run`; `quic` says whether the QUIC server is configured. -/
def init (workers : ω) (quic : Bool) : Main ε ω where
  phase := .joiningRpc
  rpc := .starting
  quic := if quic then some .starting else none
  server := QuicServer.init workers
  refresh := .idle
  attempts := []
  feed := SlotFeed.init

/-- The relay and the refresh thread. -/
def toProcess (s : Main ε ω) : Process ε ω :=
  ⟨s.server.relay, s.refresh, s.server.cancelled, s.attempts⟩

def withProcess (s : Main ε ω) (p : Process ε ω) : Main ε ω :=
  { s with
    server := { s.server with relay := p.relay, cancelled := p.cancelled }
    refresh := p.phase
    attempts := p.attempts }

/-- `cancel.cancel()`. -/
def cancel (s : Main ε ω) : Main ε ω :=
  { s with
    server := { s.server with cancelled := true }
    feed := { s.feed with task := { s.feed.task with cancelled := true } } }

/-- The state of a thread after it has tried to bind its address. -/
def afterBind (bound : Bool) : ServerThread := if bound then .serving else .panicked

variable (cache : WorkersCache Submission ω κ) (wincode : Wincode) (env : RpcEnv ε) (key : Pubkey)

def processStep (s : Main ε ω) (e : ProcessEvent ε) : Option (Main ε ω) :=
  (Process.step cache wincode env key s.toProcess e).map s.withProcess

/-- What happens in a program that has not been aborted. -/
def act (s : Main ε ω) : MainEvent ε → Option (Main ε ω)
  | .bindRpc bound => if s.rpc = .starting then some { s with rpc := afterBind bound } else none
  | .json txn params mevProtect =>
    if s.rpc = .serving then
      processStep cache wincode env key s (.arrive (.json txn params mevProtect))
    else none
  | .rpcStopped => if s.rpc = .serving then some { s with rpc := .finished } else none
  | .rpcCancelled =>
    if s.rpc = .serving ∧ s.server.cancelled then some { s with rpc := .finished } else none
  | .joinRpc =>
    match s.phase, s.rpc with
    | .joiningRpc, .finished => some { s.cancel with phase := .joiningQuic }
    | .joiningRpc, .panicked => some { s with phase := .panicked }
    | _, _ => none
  | .bindQuic bound =>
    if s.quic = some .starting then some { s with quic := some (afterBind bound) } else none
  | .quic e =>
    if s.quic = some .serving ∧ e.isOwn then
      (QuicServer.step cache wincode env s.server e).map fun server => { s with server }
    else none
  | .joinQuic =>
    match s.phase, s.quic, s.server.phase with
    | .joiningQuic, none, _ => some { s with phase := .returned }
    | .joiningQuic, some .serving, .ended => some { s with phase := .returned }
    | .joiningQuic, some .panicked, _ => some { s with phase := .panicked }
    | _, _, _ => none
  | .process e => if e.isOwn then processStep cache wincode env key s e else none
  | .feed e => if e.isOwn then (SlotFeed.step s.feed e).map fun feed => { s with feed } else none

/-- One step. -/
def step (s : Main ε ω) (e : MainEvent ε) : Option (Main ε ω) :=
  if s.feed.aborted then none else act cache wincode env key s e

/-- All that a step can do. -/
inductive Did (s : Main ε ω) : Main ε ω → Prop
  | boundRpc (bound : Bool) (hrpc : s.rpc = .starting) : Did s { s with rpc := afterBind bound }
  | processed (e : ProcessEvent ε) (he : e ≠ .cancel)
      (hrpc : ∀ input, e = .arrive input → s.rpc = .serving ∧ input.isQuic = false)
      (p : Process ε ω) (hstep : Process.step cache wincode env key s.toProcess e = some p) :
      Did s (s.withProcess p)
  | rpcEnded (hrpc : s.rpc = .serving) : Did s { s with rpc := .finished }
  | joinedRpc (hphase : s.phase = .joiningRpc) (hrpc : s.rpc = .finished) :
      Did s { s.cancel with phase := .joiningQuic }
  | failedRpc (hphase : s.phase = .joiningRpc) (hrpc : s.rpc = .panicked) :
      Did s { s with phase := .panicked }
  | boundQuic (bound : Bool) (hquic : s.quic = some .starting) :
      Did s { s with quic := some (afterBind bound) }
  | served (e : QuicEvent ε) (hquic : s.quic = some .serving) (he : e.isOwn = true)
      (server : QuicServer ε ω)
      (hstep : QuicServer.step cache wincode env s.server e = some server) : Did s { s with server }
  | returned (hphase : s.phase = .joiningQuic)
      (hquic : s.quic = none ∨ s.quic = some .serving ∧ s.server.phase = .ended) :
      Did s { s with phase := .returned }
  | failedQuic (hphase : s.phase = .joiningQuic) (hquic : s.quic = some .panicked) :
      Did s { s with phase := .panicked }
  | fed (e : SlotFeedEvent) (he : e.isOwn = true) (feed : SlotFeed)
      (hstep : SlotFeed.step s.feed e = some feed) : Did s { s with feed }

theorem did_of_act {s s' : Main ε ω} {e : MainEvent ε}
    (h : act cache wincode env key s e = some s') : Did cache wincode env key s s' := by
  cases e with
  | bindRpc bound =>
    simp only [act] at h
    split_ifs at h with hrpc
    cases h
    exact .boundRpc bound hrpc
  | json txn params mevProtect =>
    simp only [act] at h
    split_ifs at h with hrpc
    obtain ⟨p, hstep, rfl⟩ := Option.map_eq_some_iff.mp h
    refine .processed _ (by simp) (fun input hinput => ?_) p hstep
    cases hinput
    exact ⟨hrpc, rfl⟩
  | rpcStopped =>
    simp only [act] at h
    split_ifs at h with hrpc
    cases h
    exact .rpcEnded hrpc
  | rpcCancelled =>
    simp only [act] at h
    split_ifs at h with hrpc
    cases h
    exact .rpcEnded hrpc.1
  | joinRpc =>
    simp only [act] at h
    split at h
    · cases h; exact .joinedRpc ‹_› ‹_›
    · cases h; exact .failedRpc ‹_› ‹_›
    · cases h
  | bindQuic bound =>
    simp only [act] at h
    split_ifs at h with hquic
    cases h
    exact .boundQuic bound hquic
  | quic e =>
    simp only [act] at h
    split_ifs at h with hquic
    obtain ⟨server, hstep, rfl⟩ := Option.map_eq_some_iff.mp h
    exact .served e hquic.1 hquic.2 server hstep
  | joinQuic =>
    simp only [act] at h
    split at h
    · cases h; exact .returned ‹_› (Or.inl ‹_›)
    · cases h; exact .returned ‹_› (Or.inr ⟨‹_›, ‹_›⟩)
    · cases h; exact .failedQuic ‹_› ‹_›
    · cases h
  | process e =>
    simp only [act] at h
    split_ifs at h with he
    obtain ⟨p, hstep, rfl⟩ := Option.map_eq_some_iff.mp h
    refine .processed e (fun hcancel => by rw [hcancel] at he; cases he) (fun input hinput => ?_) p
      hstep
    rw [hinput] at he
    cases he
  | feed e =>
    simp only [act] at h
    split_ifs at h with he
    obtain ⟨feed, hstep, rfl⟩ := Option.map_eq_some_iff.mp h
    exact .fed e he feed hstep

theorem did_of_step {s s' : Main ε ω} {e : MainEvent ε}
    (h : step cache wincode env key s e = some s') :
    s.feed.aborted = false ∧ Did cache wincode env key s s' := by
  unfold step at h
  split_ifs at h with haborted
  exact ⟨Bool.eq_false_iff.mpr haborted, did_of_act cache wincode env key h⟩

/-! ## The parts -/

/-- What the thread of the QUIC server does to the rest of the process: it starts handlers. -/
theorem process_of_served {s : Main ε ω} {e : QuicEvent ε} {server : QuicServer ε ω}
    (he : e.isOwn = true) (h : QuicServer.step cache wincode env s.server e = some server) :
    ∃ fs, runFrom (Process.step cache wincode env key) s.toProcess fs =
      some { s with server }.toProcess := by
  cases QuicServer.did_of_step cache wincode env h with
  | read hphase j i stream relay hj hstep =>
    have hrelay : Relay.step cache wincode env s.toProcess.relay (.arrive (.quic stream)) =
        some relay := hstep
    refine ⟨[.arrive (.quic stream)], runFrom_cons_eq_some.mpr ⟨_, ?_, rfl⟩⟩
    rw [Process.step, Process.relayStep, hrelay]
    rfl
  | relayed f hf relay hstep => cases he
  | cancelled => cases he
  | _ => exact ⟨[], rfl⟩

/-- **The process in it.** The servers, the relay and the refresh thread run as a `Process`. -/
theorem exists_process_run {workers : ω} {quic : Bool} {es : List (MainEvent ε)} {s : Main ε ω}
    (hrun : runFrom (step cache wincode env key) (init workers quic) es = some s) :
    ∃ fs, runFrom (Process.step cache wincode env key) (Process.init workers) fs =
      some s.toProcess :=
  runFrom_simulate toProcess (fun s e s' h => by
    cases (did_of_step cache wincode env key h).2 with
    | processed e he hrpc p hstep => exact ⟨[e], runFrom_cons_eq_some.mpr ⟨p, hstep, rfl⟩⟩
    | joinedRpc hphase hrpc => exact ⟨[.cancel], rfl⟩
    | served e hquic he server hstep => exact process_of_served cache wincode env key he hstep
    | _ => exact ⟨[], rfl⟩) hrun

/-- What the rest of the process does to the QUIC server: it moves the relay. -/
theorem quic_of_processed {s : Main ε ω} {e : ProcessEvent ε} {p : Process ε ω}
    (he : e ≠ .cancel) (hjson : ∀ input, e = .arrive input → input.isQuic = false)
    (h : Process.step cache wincode env key s.toProcess e = some p) :
    ∃ f : RelayEvent ε, f.isStream = false ∧
      Relay.step cache wincode env s.server.relay f = some p.relay ∧
      (s.withProcess p).server = { s.server with relay := p.relay } := by
  cases Process.did_of_step cache wincode env key h with
  | relay f hf harrive relay hstep =>
    refine ⟨f, ?_, hstep, rfl⟩
    cases f with
    | arrive input => exact hjson input (harrive input rfl)
    | _ => rfl
  | thread f hcancel t hstep =>
    refine ⟨.refresh t.blockedLeaders, rfl, rfl, ?_⟩
    have hcancelled : t.cancelled = s.server.cancelled :=
      Node.cancelled_step WorkersCache.accepting key (fun hf => he (hcancel hf)) hstep
    show QuicServer.mk s.server.phase t.cancelled _ _ _ _ = _
    rw [hcancelled]

/-- **The QUIC server in it.** -/
theorem exists_quic_run {workers : ω} {quic : Bool} {es : List (MainEvent ε)} {s : Main ε ω}
    (hrun : runFrom (step cache wincode env key) (init workers quic) es = some s) :
    ∃ fs, runFrom (QuicServer.step cache wincode env) (QuicServer.init workers) fs =
      some s.server :=
  runFrom_simulate server (fun s e s' h => by
    cases (did_of_step cache wincode env key h).2 with
    | processed e he hrpc p hstep =>
      obtain ⟨f, hf, hrelay, hserver⟩ := quic_of_processed cache wincode env key he
        (fun input hinput => (hrpc input hinput).2) hstep
      refine ⟨[.relay f], runFrom_cons_eq_some.mpr ⟨_, ?_, rfl⟩⟩
      rw [hserver, QuicServer.step, hf, hrelay]
      rfl
    | joinedRpc hphase hrpc => exact ⟨[.cancel], rfl⟩
    | served e hquic he server hstep => exact ⟨[e], runFrom_cons_eq_some.mpr ⟨_, hstep, rfl⟩⟩
    | _ => exact ⟨[], rfl⟩) hrun

/-- **The subscription in it.** -/
theorem exists_feed_run {workers : ω} {quic : Bool} {es : List (MainEvent ε)} {s : Main ε ω}
    (hrun : runFrom (step cache wincode env key) (init workers quic) es = some s) :
    ∃ fs, runFrom SlotFeed.step SlotFeed.init fs = some s.feed :=
  runFrom_simulate feed (fun s e s' h => by
    obtain ⟨halive, hdid⟩ := did_of_step cache wincode env key h
    cases hdid with
    | joinedRpc hphase hrpc =>
      refine ⟨[.task .cancel], runFrom_cons_eq_some.mpr ⟨_, ?_, rfl⟩⟩
      rw [SlotFeed.step, halive]
      rfl
    | fed e he feed hstep => exact ⟨[e], runFrom_cons_eq_some.mpr ⟨_, hstep, rfl⟩⟩
    | _ => exact ⟨[], rfl⟩) hrun

/-- **The parts.** In every run of the program the relay of its servers with the refresh thread, the
QUIC server, the subscription, and the handlers with their channel are each where a run of their
own takes them. -/
theorem parts_run {workers : ω} {quic : Bool} {es : List (MainEvent ε)} {s : Main ε ω}
    (hrun : runFrom (step cache wincode env key) (init workers quic) es = some s) :
    (∃ fs, runFrom (Process.step cache wincode env key) (Process.init workers) fs =
      some s.toProcess) ∧
    (∃ fs, runFrom (QuicServer.step cache wincode env) (QuicServer.init workers) fs =
      some s.server) ∧
    (∃ fs, runFrom SlotFeed.step SlotFeed.init fs = some s.feed) ∧
    ∃ fs, runFrom (Service.step wincode env) Service.init fs = some s.server.relay.service := by
  obtain ⟨fs, hprocess⟩ := exists_process_run cache wincode env key hrun
  obtain ⟨gs, hrelay⟩ := Process.exists_relay_run cache wincode env key hprocess
  exact ⟨⟨fs, hprocess⟩, exists_quic_run cache wincode env key hrun,
    exists_feed_run cache wincode env key hrun, Relay.runFrom_service cache wincode env hrelay⟩

/-- Both servers are up, and a request, a stream and a refresh are underway. -/
def upRun : List (MainEvent TransactionBinaryEncoding) :=
  [.bindRpc true, .bindQuic true, .json [] none none, .quic (.incoming (some (.ok ()))),
    .quic (.connection 0 (.established (.ok ()))), .quic (.connection 0 (.acceptUni (.ok ()))),
    .process .tick, .feed (.task (.connect (.ok ()))), .quic (.read 0 (.finished [])),
    .process (.run 1 .sent)]

theorem parts_run_upRun :
    ∃ s fs, runFrom (step WorkersCache.accepting Wincode.standard sampleEnv Node.zeroKey)
        (init () true) upRun = some s ∧ s.server.relay.service.handlers.length = 2 ∧
      runFrom (Service.step Wincode.standard sampleEnv) Service.init fs =
        some s.server.relay.service := by
  obtain ⟨-, -, -, fs, hfs⟩ := @parts_run _ _ _ WorkersCache.accepting Wincode.standard sampleEnv
    Node.zeroKey () true upRun _ rfl
  exact ⟨_, fs, rfl, rfl, hfs⟩

/-! ## The order of the end -/

/-- What is set, ended and returned: the token is set by `run` alone, after the JSON-RPC server has
ended, and `run` returns when the QUIC server has ended, if there is one. -/
structure Ordered (s : Main ε ω) : Prop where
  token : s.server.cancelled = true → s.rpc = .finished
  set : s.phase = .joiningQuic ∨ s.phase = .returned → s.server.cancelled = true
  feed : s.feed.task.cancelled = s.server.cancelled
  looping : s.server.phase = .looping ∨ s.server.cancelled = true
  refresh : s.refresh = .exited → s.server.cancelled = true
  returned : s.phase = .returned →
    s.quic = none ∨ s.quic = some .serving ∧ s.server.phase = .ended

theorem ordered_init (workers : ω) (quic : Bool) : Ordered (init workers quic : Main ε ω) where
  token := nofun
  set := nofun
  feed := rfl
  looping := Or.inl rfl
  refresh := nofun
  returned := nofun

theorem cancelled_of_fed {s s' : SlotFeed} {e : SlotFeedEvent} (he : e.isOwn = true)
    (h : SlotFeed.step s e = some s') : s'.task.cancelled = s.task.cancelled := by
  cases (SlotFeed.did_of_step h).2 with
  | task f task hallows hstep =>
    have hf : f ≠ .cancel := fun hcancel => by rw [hcancel] at he; cases he
    exact Subscription.cancelled_step hf hstep
  | received | stopped => rfl

theorem cancelled_of_served {s s' : QuicServer ε ω} {e : QuicEvent ε} (he : e.isOwn = true)
    (h : QuicServer.step cache wincode env s e = some s') : s'.cancelled = s.cancelled := by
  cases QuicServer.did_of_step cache wincode env h with
  | cancelled => cases he
  | _ => rfl

/-- A server that has ended does nothing of its own. -/
theorem not_served_of_ended {s s' : QuicServer ε ω} {e : QuicEvent ε} (he : e.isOwn = true)
    (hended : s.phase = .ended) (h : QuicServer.step cache wincode env s e = some s') : False := by
  cases QuicServer.did_of_step cache wincode env h with
  | closed hphase => simp [hended] at hphase
  | connected hphase => simp [hended] at hphase
  | refused hphase => simp [hended] at hphase
  | returned hphase => simp [hended] at hphase
  | ended hphase => simp [hended] at hphase
  | moved hphase => exact hphase hended
  | read hphase => exact hphase hended
  | relayed f => cases he
  | cancelled => cases he

/-- The refresh thread exits only when the token is set. -/
theorem exited_of_processed {s : Process ε ω} {e : ProcessEvent ε} {s' : Process ε ω}
    (hs : s.phase = .exited → s.cancelled = true) (he : e ≠ .cancel)
    (h : Process.step cache wincode env key s e = some s') :
    s'.cancelled = s.cancelled ∧ (s'.phase = .exited → s.cancelled = true) := by
  cases Process.did_of_step cache wincode env key h with
  | relay f hf harrive relay hstep => exact ⟨rfl, hs⟩
  | thread f hcancel t hstep =>
    refine ⟨Node.cancelled_step _ key (fun hf => he (hcancel hf)) hstep, fun hexited => ?_⟩
    exact Node.exited_step WorkersCache.accepting key hs hstep hexited

/-- **One step.** -/
theorem ordered_step (s : Main ε ω) (e : MainEvent ε) (s' : Main ε ω) (hs : Ordered s)
    (h : step cache wincode env key s e = some s') : Ordered s' := by
  obtain ⟨-, hdid⟩ := did_of_step cache wincode env key h
  cases hdid with
  | boundRpc bound hrpc =>
    have hnot : s.rpc ≠ .finished := by simp [hrpc]
    exact ⟨fun hset => absurd (hs.token hset) hnot, hs.set, hs.feed, hs.looping, hs.refresh,
      hs.returned⟩
  | processed e he hrpc p hstep =>
    obtain ⟨hcancelled, hexited⟩ := exited_of_processed cache wincode env key hs.refresh he hstep
    have hsame : p.cancelled = s.server.cancelled := hcancelled
    refine ⟨fun hset => hs.token (hsame ▸ hset), fun hphase => hsame.trans (hs.set hphase),
      hs.feed.trans hsame.symm, ?_, fun hexit => hsame.trans (hexited hexit), hs.returned⟩
    exact hs.looping.imp_right hsame.trans
  | rpcEnded hrpc =>
    exact ⟨fun _ => rfl, hs.set, hs.feed, hs.looping, hs.refresh, hs.returned⟩
  | joinedRpc hphase hrpc =>
    exact ⟨fun _ => hrpc, fun _ => rfl, rfl, Or.inr rfl, fun _ => rfl, nofun⟩
  | failedRpc hphase hrpc => exact ⟨hs.token, nofun, hs.feed, hs.looping, hs.refresh, nofun⟩
  | boundQuic bound hquic =>
    refine ⟨hs.token, hs.set, hs.feed, hs.looping, hs.refresh, fun hreturned => ?_⟩
    rcases hs.returned hreturned with hnone | ⟨hserving, -⟩
    · rw [hquic] at hnone; cases hnone
    · rw [hquic] at hserving; cases hserving
  | served e hquic he server hstep =>
    have hsame := cancelled_of_served cache wincode env he hstep
    have hlooping := QuicServer.cancelled_step cache wincode env _ _ _ hs.looping hstep
    refine ⟨fun hset => hs.token (hsame ▸ hset), fun hphase => hsame.trans (hs.set hphase),
      hs.feed.trans hsame.symm, hlooping, fun hexit => hsame.trans (hs.refresh hexit),
      fun hreturned => ?_⟩
    rcases hs.returned hreturned with hnone | ⟨-, hended⟩
    · rw [hquic] at hnone; cases hnone
    · exact (not_served_of_ended cache wincode env he hended hstep).elim
  | returned hphase hquic =>
    exact ⟨hs.token, fun _ => hs.set (Or.inl hphase), hs.feed, hs.looping, hs.refresh,
      fun _ => hquic⟩
  | failedQuic hphase hquic => exact ⟨hs.token, nofun, hs.feed, hs.looping, hs.refresh, nofun⟩
  | fed e he feed hstep =>
    exact ⟨hs.token, hs.set, (cancelled_of_fed he hstep).trans hs.feed, hs.looping, hs.refresh,
      hs.returned⟩

theorem ordered_run {workers : ω} {quic : Bool} {es : List (MainEvent ε)} {s : Main ε ω}
    (hrun : runFrom (step cache wincode env key) (init workers quic) es = some s) : Ordered s :=
  runFrom_invariant (ordered_step cache wincode env key) (ordered_init workers quic) hrun

/-- **Nothing winds down before the JSON-RPC server.** As long as its thread has not finished, the
token is not set, `run` waits for it or has panicked, the loop of the QUIC server has not returned,
the refresh thread has not exited, and the subscription has not begun to wind down. -/
theorem up_until_rpc_ends {workers : ω} {quic : Bool} {es : List (MainEvent ε)} {s : Main ε ω}
    (hrun : runFrom (step cache wincode env key) (init workers quic) es = some s)
    (hrpc : s.rpc ≠ .finished) :
    s.server.cancelled = false ∧ (s.phase = .joiningRpc ∨ s.phase = .panicked) ∧
      s.server.phase = .looping ∧ s.refresh ≠ .exited ∧
      s.feed.task.phase ≠ .unsubscribing ∧ s.feed.task.phase ≠ .shuttingDown ∧
      ∀ c, s.feed.task.phase ≠ .returned (.ok ()) c := by
  have hs := ordered_run cache wincode env key hrun
  have hclear : ¬ s.server.cancelled = true := fun hset => hrpc (hs.token hset)
  obtain ⟨fs, hfeed⟩ := exists_feed_run cache wincode env key hrun
  have hwound := runFrom_invariant Subscription.wound_step Subscription.wound_init
    (SlotFeed.task_run hfeed)
  have htask : ¬ s.feed.task.cancelled = true := by rw [hs.feed]; exact hclear
  refine ⟨Bool.eq_false_iff.mpr hclear, ?_, hs.looping.resolve_right hclear,
    fun hexited => hclear (hs.refresh hexited), fun hp => htask (hwound.winding (Or.inl hp)),
    fun hp => htask (hwound.winding (Or.inr hp)), fun c hp => htask (hwound.finished c hp).2⟩
  cases hphase : s.phase with
  | joiningRpc => exact Or.inl rfl
  | panicked => exact Or.inr rfl
  | joiningQuic => exact absurd (hs.set (Or.inl hphase)) hclear
  | returned => exact absurd (hs.set (Or.inr hphase)) hclear

theorem up_until_rpc_ends_upRun :
    ∃ s, runFrom (step WorkersCache.accepting Wincode.standard sampleEnv Node.zeroKey)
        (init () true) upRun = some s ∧ s.rpc = .serving ∧ s.server.phase = .looping :=
  ⟨_, rfl, rfl, (@up_until_rpc_ends _ _ _ WorkersCache.accepting Wincode.standard sampleEnv
    Node.zeroKey () true upRun _ rfl (by decide)).2.2.1⟩

/-- Both servers have ended, and the arrivals are those of `s`. -/
structure Quiet (s t : Main ε ω) : Prop where
  rpc : t.rpc = .finished
  phase : t.phase = .returned
  quic : t.quic = none ∨ t.quic = some .serving ∧ t.server.phase = .ended
  arrivals : t.server.relay.service.handlers.map Handler.input =
    s.server.relay.service.handlers.map Handler.input

/-- Without an arrival the handlers are those there were. -/
theorem inputs_of_processed {s s' : Process ε ω} {e : ProcessEvent ε}
    (he : ∀ input, e ≠ .arrive input) (h : Process.step cache wincode env key s e = some s') :
    s'.relay.service.handlers.map Handler.input = s.relay.service.handlers.map Handler.input := by
  cases Process.did_of_step cache wincode env key h with
  | thread f hcancel t hstep => rfl
  | relay f hf harrive relay hstep =>
    have harrival : f.arrival = none := by
      cases f with
      | arrive input => exact absurd (harrive input rfl) (he input)
      | _ => rfl
    show relay.service.handlers.map _ = _
    rw [Relay.inputs_step cache wincode env hstep, harrival]
    exact List.append_nil _

theorem quiet_step {s : Main ε ω} (t : Main ε ω) (e : MainEvent ε) (t' : Main ε ω)
    (ht : Quiet s t) (h : step cache wincode env key t e = some t') : Quiet s t' := by
  obtain ⟨hrpc, hphase, hquic, harrivals⟩ := ht
  cases (did_of_step cache wincode env key h).2 with
  | boundRpc bound hstarting => rw [hrpc] at hstarting; cases hstarting
  | rpcEnded hserving => rw [hrpc] at hserving; cases hserving
  | joinedRpc hjoining => rw [hphase] at hjoining; cases hjoining
  | failedRpc hjoining => rw [hphase] at hjoining; cases hjoining
  | failedQuic hjoining => rw [hphase] at hjoining; cases hjoining
  | returned hjoining => rw [hphase] at hjoining; cases hjoining
  | boundQuic bound hstarting =>
    rcases hquic with hnone | ⟨hserving, -⟩
    · rw [hnone] at hstarting; cases hstarting
    · rw [hserving] at hstarting; cases hstarting
  | served f hserving he server hstep =>
    rcases hquic with hnone | ⟨-, hended⟩
    · rw [hnone] at hserving; cases hserving
    · exact (not_served_of_ended cache wincode env he hended hstep).elim
  | processed f he hjson p hstep =>
    refine ⟨hrpc, hphase, hquic, ?_⟩
    have hnone : ∀ input, f ≠ .arrive input := by
      intro input hinput
      have hserving := (hjson input hinput).1
      rw [hrpc] at hserving
      cases hserving
    exact (inputs_of_processed cache wincode env key hnone hstep).trans harrivals
  | fed f he feed hstep => exact ⟨hrpc, hphase, hquic, harrivals⟩

/-- **When `run` has returned**, the token is set, both servers have ended, and nothing arrives any
more, whatever the tasks that are left still do. -/
theorem quiet_after_return {workers : ω} {quic : Bool} {es₁ es₂ : List (MainEvent ε)}
    {s s' : Main ε ω}
    (hrun₁ : runFrom (step cache wincode env key) (init workers quic) es₁ = some s)
    (hreturned : s.phase = .returned)
    (hrun₂ : runFrom (step cache wincode env key) s es₂ = some s') :
    s.server.cancelled = true ∧ s.rpc = .finished ∧
      (s.quic = none ∨ s.quic = some .serving ∧ s.server.phase = .ended) ∧
      s'.server.relay.service.handlers.map Handler.input =
        s.server.relay.service.handlers.map Handler.input := by
  have hs := ordered_run cache wincode env key hrun₁
  have hset := hs.set (Or.inr hreturned)
  have hself : Quiet s s := ⟨hs.token hset, hreturned, hs.returned hreturned, rfl⟩
  have hquiet := runFrom_invariant (quiet_step cache wincode env key) hself hrun₂
  exact ⟨hset, hs.token hset, hs.returned hreturned, hquiet.arrivals⟩

/-- The JSON-RPC server stops by itself, and the rest follows. -/
def downRun : List (MainEvent TransactionBinaryEncoding) :=
  upRun ++ [.rpcStopped, .joinRpc, .quic .observeCancel, .quic .dropRuntime, .joinQuic]

theorem quiet_after_return_downRun :
    ∃ s s', runFrom (step WorkersCache.accepting Wincode.standard sampleEnv Node.zeroKey)
        (init () true) downRun = some s ∧ s.phase = .returned ∧
      runFrom (step WorkersCache.accepting Wincode.standard sampleEnv Node.zeroKey) s
        [.process (.run 0 .sent)] = some s' ∧
      s'.server.relay.service.handlers.map Handler.input =
        s.server.relay.service.handlers.map Handler.input :=
  ⟨_, _, rfl, rfl, rfl, (@quiet_after_return _ _ _ WorkersCache.accepting Wincode.standard
    sampleEnv Node.zeroKey () true downRun [.process (.run 0 .sent)] _ _ rfl rfl rfl).2.2.2⟩

end Main

end Iris
