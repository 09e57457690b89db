import Iris.Broadcaster.System
import Iris.Service

/-!
# From the servers to the workers

The handlers, the channel and the broadcaster, together with the `send_to_workers` calls that take
the batches off the channel. A transaction is allocated at a mark that says which input it comes
from, and with which bytes and flag that input submits it.

* `IngressInput.Submits`, **`mem_payloads_iff`**: what an input submits;
* `Relay`, `RelayEvent`, `step`: the system, with a record of the payloads that the channel has
  accepted and of the calls;
* `Did`, **`did_of_step`**: all that a step can do;
* **`runFrom_service`**: its runs are runs of `Service`.
-/

namespace Iris

variable {ε τ ω κ : Type}

/-! ## What an input submits -/

/-- The input is accepted by its server, and stands for these bytes with this flag. -/
inductive IngressInput.Submits (wincode : Wincode) (env : RpcEnv ε) :
    IngressInput ε → Octets → Bool → Prop
  | json {txn : Text} {params : Option (RpcSendTransactionConfig ε)} {mevProtect : Option Bool}
      {w signature : Octets} (haccepted : Accepted env txn params w signature) :
      Submits wincode env (.json txn params mevProtect) w (mevProtect.getD false)
  | quic {stream : UniStream} {data : Octets} {packet : TransactionPacket}
      (hread : stream.readToEnd QUIC_MAX_SIZE = some data)
      (hpacket : wincode.deserialize data = some packet) :
      Submits wincode env (.quic stream) packet.wireTransaction packet.mevProtect

section Submits

variable (wincode : Wincode) (env : RpcEnv ε)

/-- A request that is accepted is forwarded and answered with its first signature. -/
theorem sendTransaction_of_accepted {txn : Text} {params : Option (RpcSendTransactionConfig ε)}
    {w signature : Octets} (h : Accepted env txn params w signature) (a : τ)
    (mevProtect : Option Bool) :
    sendTransaction env a txn params mevProtect =
      ([.recordJsonRpcReceived (mevProtect.getD false),
        .sendTransaction (TpuClientPayload.new a w (mevProtect.getD false))],
          .ok (Base58.encode signature)) := by
  obtain ⟨encoding, signatures, henc, hdec, hparse, hsig⟩ := h
  simp only [sendTransaction, henc, hdec, hparse, hsig]

/-- An input that submits something offers its payload, and nothing else. -/
theorem payloads_of_submits {input : IngressInput ε} {w : Octets} {m : Bool}
    (h : input.Submits wincode env w m) (a : τ) :
    input.payloads wincode a env = [TpuClientPayload.new a w m] := by
  cases h with
  | json haccepted =>
    rw [IngressInput.payloads, sendTransaction_of_accepted env haccepted]
    rfl
  | quic hread hpacket =>
    rw [IngressInput.payloads, handleUniStream, hread]
    simp only [hpacket]
    rfl

/-- **What an input offers** is what it submits. -/
theorem mem_payloads_iff {input : IngressInput ε} {a : τ} {p : TpuClientPayload τ} :
    p ∈ input.payloads wincode a env ↔
      ∃ w m, input.Submits wincode env w m ∧ p = TpuClientPayload.new a w m := by
  constructor
  · intro hp
    cases input with
    | json txn params mevProtect =>
      rcases sendTransaction_cases env a txn params mevProtect with ⟨e, he⟩ | ⟨w, signature, h, hw⟩
      · rw [IngressInput.payloads, he] at hp
        cases hp
      · rw [IngressInput.payloads, hw] at hp
        exact ⟨w, _, .json h, List.mem_singleton.mp hp⟩
    | quic stream =>
      rw [IngressInput.payloads] at hp
      obtain ⟨data, packet, rfl, hlen, hpacket, rfl⟩ := exists_of_mem_offered wincode a hp
      exact ⟨_, _, .quic (if_pos hlen) hpacket, rfl⟩
  · rintro ⟨w, m, h, rfl⟩
    rw [payloads_of_submits wincode env h a]
    exact List.mem_singleton_self _

/-- The mark of what an input submits: its number, its bytes and its flag. -/
def IngressInput.submission (id : ℕ) (input : IngressInput ε) : Submission :=
  match (input.payloads wincode () env).head? with
  | some p => ⟨id, p.wireTransaction.data, p.isMevProtected⟩
  | none => ⟨id, [], false⟩

theorem submission_of_submits {input : IngressInput ε} {w : Octets} {m : Bool}
    (h : input.Submits wincode env w m) (id : ℕ) :
    input.submission wincode env id = ⟨id, w, m⟩ := by
  rw [IngressInput.submission, payloads_of_submits wincode env h ()]
  simp
  rfl

end Submits

/-- A program offers what its actions offer. -/
theorem mem_program_offer {actions : List (IngressAction τ)} {p : TpuClientPayload τ} :
    Instr.offer p ∈ program actions ↔ p ∈ offered actions := by
  unfold program offered
  rw [List.mem_flatMap, List.mem_filterMap]
  refine exists_congr fun action => and_congr_right fun _ => ?_
  cases action <;> simp [IngressAction.instrs, eq_comm]

/-! ## The system -/

/-- A `send_to_workers` call: the block list it loaded, its leaders, what `prepare_transactions`
returned, and the pairs it passed to `try_send_transaction_to_address`. -/
structure Handoff where
  loaded : Finset SocketAddr
  leaders : List SocketAddr
  ready : List (Bytes Submission)
  handed : List (Bytes Submission × SocketAddr)

/-- The servers, the channel and the broadcaster, and the cache of workers behind them. -/
structure Relay (ε ω : Type) where
  service : Service ε Submission
  workers : ω
  accepted : List (TpuClientPayload Submission)
  handoffs : List Handoff

/-- What can happen next. -/
inductive RelayEvent (ε : Type)
  | arrive (input : IngressInput ε)
  | run (i : ℕ) (outcome : TrySend)
  | flush (outcome : TrySend)
  | refresh (blockedLeaders : Finset SocketAddr)
  | send (leaders : List SocketAddr)

/-- The input that arrives. -/
def RelayEvent.arrival : RelayEvent ε → Option (IngressInput ε)
  | .arrive input => some input
  | _ => none

namespace Relay

open Lts

def init (workers : ω) : Relay ε ω := ⟨Service.init, workers, [], []⟩

/-- The payload that the channel accepts when handler `i` runs with this outcome. -/
def newlyAccepted (s : Relay ε ω) (i : ℕ) (outcome : TrySend) :
    List (TpuClientPayload Submission) :=
  match s.service.handlers[i]?.bind fun h => h.rest.head?, outcome with
  | some (.offer p), .sent => [p]
  | _, _ => []

variable (cache : WorkersCache Submission ω κ) (wincode : Wincode) (env : RpcEnv ε)

/-- The call made for `batch`. -/
def handoffFor (s : Relay ε ω) (leaders : List SocketAddr) (batch : Bytes Submission) :
    Handoff where
  loaded := s.service.broadcaster.blockedLeaders
  leaders := leaders
  ready := (prepareTransactions s.service.buffer s.service.stats batch
    (hasBlockedSendTarget leaders s.service.broadcaster.blockedLeaders)).ready
  handed := (sendToWorkers cache s.service.broadcaster s.service.stats s.workers leaders
    batch).sending.handed

/-- The state after the scheduler has taken `batch`, leaving `rest`, and made its call. -/
def afterSend (s : Relay ε ω) (leaders : List SocketAddr) (batch : Bytes Submission)
    (rest : List (Bytes Submission)) : Relay ε ω :=
  let r := sendToWorkers cache s.service.broadcaster s.service.stats s.workers leaders batch
  { s with
    service := { s.service with broadcaster := r.broadcaster, stats := r.stats, channel := rest }
    workers := r.sending.workers
    handoffs := s.handoffs ++ [handoffFor cache s leaders batch] }

/-- A step of the servers, the channel or the block list. -/
def serviceStep (s : Relay ε ω) (e : ServiceEvent ε Submission) : Option (Relay ε ω) :=
  (Service.step wincode env s.service e).map fun service => { s with service }

/-- One step. -/
def step (s : Relay ε ω) : RelayEvent ε → Option (Relay ε ω)
  | .arrive input =>
    serviceStep wincode env s
      (.arrive (input.submission wincode env s.service.handlers.length) input)
  | .run i outcome =>
    (serviceStep wincode env s (.run i outcome)).map fun s' =>
      { s' with accepted := s.accepted ++ s.newlyAccepted i outcome }
  | .flush outcome => serviceStep wincode env s (.flush outcome)
  | .refresh blockedLeaders => serviceStep wincode env s (.refresh blockedLeaders)
  | .send leaders =>
    match s.service.channel with
    | [] => none
    | batch :: rest => some (afterSend cache s leaders batch rest)

theorem exists_of_serviceStep {s s' : Relay ε ω} {e : ServiceEvent ε Submission}
    (h : serviceStep wincode env s e = some s') :
    ∃ service, Service.step wincode env s.service e = some service ∧ s' = { s with service } := by
  obtain ⟨service, hstep, heq⟩ := Option.map_eq_some_iff.mp h
  exact ⟨service, hstep, heq.symm⟩

/-- All that a step can do. -/
inductive Did (s : Relay ε ω) : RelayEvent ε → Relay ε ω → Prop
  | service {e : RelayEvent ε} (f : ServiceEvent ε Submission) (service : Service ε Submission)
      (hsend : ∀ leaders, e ≠ .send leaders) (hf : ∀ isBlocked, f ≠ .prepare isBlocked)
      (hhandlers : ∀ a input, f = .arrive a input → e = .arrive input ∧
        a = input.submission wincode env s.service.handlers.length)
      (hnew : ∀ i outcome, f = .run i outcome → s.newlyAccepted i outcome = [])
      (hstep : Service.step wincode env s.service f = some service) : Did s e { s with service }
  | accepted (i : ℕ) (h : Handler ε Submission) (p : TpuClientPayload Submission)
      (rest : List (Instr Submission)) (hi : s.service.handlers[i]? = some h)
      (hrest : h.rest = .offer p :: rest) : Did s (.run i .sent)
      { s with
        service := { s.service with
          handlers := s.service.handlers.set i (h.offer p .sent rest)
          channel := s.service.channel ++ [p.intoEncoded] }
        accepted := s.accepted ++ [p] }
  | sent (leaders : List SocketAddr) (batch : Bytes Submission) (rest : List (Bytes Submission))
      (hchannel : s.service.channel = batch :: rest) :
      Did s (.send leaders) (afterSend cache s leaders batch rest)

theorem did_of_step {s s' : Relay ε ω} {e : RelayEvent ε}
    (h : step cache wincode env s e = some s') : Did cache wincode env s e s' := by
  cases e with
  | arrive input =>
    obtain ⟨service, hstep, rfl⟩ := exists_of_serviceStep wincode env h
    refine .service _ service (by simp) (by simp) ?_ (by simp) hstep
    rintro a input' hf
    cases hf
    exact ⟨rfl, rfl⟩
  | run i outcome =>
    obtain ⟨s', hrun, rfl⟩ := Option.map_eq_some_iff.mp h
    obtain ⟨service, hstep, rfl⟩ := exists_of_serviceStep wincode env hrun
    by_cases hnew : s.newlyAccepted i outcome = []
    · rw [hnew, List.append_nil]
      refine .service _ service (by simp) (by simp) (by simp) ?_ hstep
      rintro i' outcome' hf
      cases hf
      exact hnew
    · cases Service.did_of_step wincode env hstep with
      | added _ hi hrest => exact absurd (by simp [newlyAccepted, hi, hrest]) hnew
      | offered _ hi hrest =>
        rename_i hd p rest
        cases outcome with
        | sent =>
          have hone : s.newlyAccepted i .sent = [p] := by simp [newlyAccepted, hi, hrest]
          rw [hone]
          exact .accepted i _ _ _ hi hrest
        | full => exact absurd (by simp [newlyAccepted, hi, hrest]) hnew
        | closed => exact absurd (by simp [newlyAccepted, hi, hrest]) hnew
  | flush outcome =>
    obtain ⟨service, hstep, rfl⟩ := exists_of_serviceStep wincode env h
    exact .service _ service (by simp) (by simp) (by simp) (by simp) hstep
  | refresh blockedLeaders =>
    obtain ⟨service, hstep, rfl⟩ := exists_of_serviceStep wincode env h
    exact .service _ service (by simp) (by simp) (by simp) (by simp) hstep
  | send leaders =>
    unfold step at h
    cases hchannel : s.service.channel with
    | nil => rw [hchannel] at h; cases h
    | cons batch rest =>
      rw [hchannel] at h
      cases h
      exact .sent leaders batch rest hchannel

theorem map_input_set {handlers : List (Handler ε τ)} {i : ℕ} {h : Handler ε τ}
    (hi : handlers[i]? = some h) (h' : Handler ε τ) (hsame : h'.input = h.input) :
    (handlers.set i h').map Handler.input = handlers.map Handler.input := by
  rw [List.map_set, hsame]
  apply List.ext_getElem?
  intro k
  rw [List.getElem?_set]
  split_ifs with hik hlt
  · rw [List.getElem?_map, ← hik, hi]
    rfl
  · rw [← hik, List.getElem?_eq_none (Nat.not_lt.mp hlt)]
  · rfl

/-- **The handlers are those of the arrivals**, in their order. -/
theorem inputs_step {s s' : Relay ε ω} {e : RelayEvent ε}
    (h : step cache wincode env s e = some s') :
    s'.service.handlers.map Handler.input =
      s.service.handlers.map Handler.input ++ e.arrival.toList := by
  have hsame : s.service.handlers.map Handler.input =
      s.service.handlers.map Handler.input ++ (none : Option (IngressInput ε)).toList :=
    (List.append_nil _).symm
  cases e with
  | arrive input =>
    obtain ⟨service, hstep, rfl⟩ := exists_of_serviceStep wincode env h
    cases Service.did_of_step wincode env hstep
    exact List.map_append
  | run i outcome =>
    obtain ⟨t, ht, rfl⟩ := Option.map_eq_some_iff.mp h
    obtain ⟨service, hstep, rfl⟩ := exists_of_serviceStep wincode env ht
    cases Service.did_of_step wincode env hstep with
    | added _ hi hrest =>
      rename_i hd c rest
      exact (map_input_set hi (hd.add c rest) rfl).trans hsame
    | offered _ hi hrest =>
      rename_i hd p rest
      exact (map_input_set hi (hd.offer p outcome rest) rfl).trans hsame
  | flush outcome =>
    obtain ⟨service, hstep, rfl⟩ := exists_of_serviceStep wincode env h
    cases Service.did_of_step wincode env hstep
    exact hsame
  | refresh blockedLeaders =>
    obtain ⟨service, hstep, rfl⟩ := exists_of_serviceStep wincode env h
    cases Service.did_of_step wincode env hstep
    exact hsame
  | send leaders =>
    cases did_of_step cache wincode env h with
    | service f service hsend => exact absurd rfl (hsend leaders)
    | sent leaders batch rest hchannel => exact hsame

/-- A call does to the servers, the channel and the broadcaster what its preparation does. -/
theorem service_afterSend (s : Relay ε ω) (leaders : List SocketAddr) (batch : Bytes Submission)
    (rest : List (Bytes Submission)) :
    (afterSend cache s leaders batch rest).service = s.service.afterPrepare
      (hasBlockedSendTarget leaders s.service.broadcaster.blockedLeaders) batch rest :=
  (Service.afterPrepare_eq cache s.service s.workers leaders batch rest).symm

/-- Every step is one of the servers, the channel and the broadcaster. -/
theorem exists_service_step {s s' : Relay ε ω} {e : RelayEvent ε}
    (h : step cache wincode env s e = some s') :
    ∃ f, Service.step wincode env s.service f = some s'.service := by
  cases did_of_step cache wincode env h with
  | service f service hsend hf hhandlers hnew hstep => exact ⟨f, hstep⟩
  | accepted i hd p rest hi hrest =>
    refine ⟨.run i .sent, ?_⟩
    rw [Service.step, hi, Option.bind_some, Service.runHandler, hrest]
    rfl
  | sent leaders batch rest hchannel =>
    refine ⟨.prepare (hasBlockedSendTarget leaders s.service.broadcaster.blockedLeaders), ?_⟩
    rw [Service.step, hchannel, service_afterSend]

/-- **Every run is a run of the service.** -/
theorem runFrom_service {workers : ω} {es : List (RelayEvent ε)} {s : Relay ε ω}
    (hrun : runFrom (step cache wincode env) (init workers) es = some s) :
    ∃ fs, runFrom (Service.step wincode env) Service.init fs = some s.service :=
  runFrom_simulate service (fun _ _ _ h => by
    obtain ⟨f, hf⟩ := exists_service_step cache wincode env h
    exact ⟨[f], runFrom_cons_eq_some.mpr ⟨_, hf, rfl⟩⟩) hrun

end Relay

end Iris
