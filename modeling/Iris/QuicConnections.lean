import Iris.Lib.Population
import Iris.Relay

/-!
# Connections and streams

The QUIC server accepts connections until it is cancelled. Each connection has a task of its own,
and so has each stream that is opened on it; a stream that was read becomes a handler of the relay.

* `Connection`, `ConnectionEvent`, `Connection.step`: `handle_connection`, one await at a time;
  `Connection.Did`: all that a step of it can do;
* `QuicServer`, `QuicEvent`, `step`: `quic_server_loop`, the connections, the streams and the relay;
* `Did`, **`did_of_step`**: all that a step can do;
* **`connection_isolated`**: a connection is where its own events take it;
* `Handled`, **`streams_handled_once`**: each stream belongs to one connection, and has one handler
  when it was read;
* `Connection.Ended`, `Counted`, **`errors_counted`**: how connections end, and what
  `quic_server_incoming_err` counts;
* `Cancelled`, `cancelled_step`: the loop returns only when it is cancelled.
-/

namespace Iris

variable {ε ω κ : Type}

/-- A `quinn::ConnectionError`, with its text. -/
inductive ConnectionError
  | ApplicationClosed (text : String)
  | other (text : String)
deriving DecidableEq, Repr

/-- Where the task of a connection waits, or the error it has ended with: of `connecting` or of
`accept_uni`. -/
inductive ConnectionPhase
  | connecting
  | accepting
  | failed (e : ConnectionError)
  | closed (e : ConnectionError)
deriving DecidableEq, Repr

/-- A connection: its task, and how many streams it has spawned handlers for. -/
structure Connection where
  phase : ConnectionPhase
  streams : ℕ
deriving DecidableEq, Repr

/-- What can happen to a connection. -/
inductive ConnectionEvent
  | established (result : Except ConnectionError Unit)
  | acceptUni (result : Except ConnectionError Unit)
deriving DecidableEq

namespace Connection

def init : Connection := ⟨.connecting, 0⟩

/-- One step of `handle_connection`. -/
def step (c : Connection) : ConnectionEvent → Option Connection
  | .established result =>
    match c.phase, result with
    | .connecting, .ok () => some { c with phase := .accepting }
    | .connecting, .error e => some { c with phase := .failed e }
    | _, _ => none
  | .acceptUni result =>
    match c.phase, result with
    | .accepting, .ok () => some { c with streams := c.streams + 1 }
    | .accepting, .error e => some { c with phase := .closed e }
    | _, _ => none

end Connection

/-- The streams that an event opens: one or none. -/
def ConnectionEvent.opens : ConnectionEvent → ℕ
  | .acceptUni (.ok ()) => 1
  | _ => 0

/-- The label under which the task counts an error, when `accept_uni` fails otherwise than by
`ApplicationClosed`. -/
def ConnectionEvent.error : ConnectionEvent → Option String
  | .acceptUni (.error (.other text)) => some text
  | _ => none

namespace Connection

/-- All that a step can do. -/
inductive Did (c : Connection) : ConnectionEvent → Connection → Prop
  | established (hphase : c.phase = .connecting) :
      Did c (.established (.ok ())) { c with phase := .accepting }
  | failed (hphase : c.phase = .connecting) (error : ConnectionError) :
      Did c (.established (.error error)) { c with phase := .failed error }
  | opened (hphase : c.phase = .accepting) :
      Did c (.acceptUni (.ok ())) { c with streams := c.streams + 1 }
  | closed (hphase : c.phase = .accepting) (error : ConnectionError) :
      Did c (.acceptUni (.error error)) { c with phase := .closed error }

theorem did_of_step {c c' : Connection} {e : ConnectionEvent} (h : c.step e = some c') :
    Did c e c' := by
  cases e with
  | established result =>
    simp only [step] at h
    split at h
    · cases h; exact .established ‹_›
    · cases h; exact .failed ‹_› _
    · cases h
  | acceptUni result =>
    simp only [step] at h
    split at h
    · cases h; exact .opened ‹_›
    · cases h; exact .closed ‹_› _
    · cases h

theorem streams_step {c c' : Connection} {e : ConnectionEvent} (h : c.step e = some c') :
    c'.streams = c.streams + e.opens := by
  cases did_of_step h <;> rfl

/-- A connection has ended with an error exactly if this is the last that happened to it. -/
structure Ended (fs : List ConnectionEvent) (c : Connection) : Prop where
  failed : ∀ e, c.phase = .failed e ↔ fs.getLast? = some (.established (.error e))
  closed : ∀ e, c.phase = .closed e ↔ fs.getLast? = some (.acceptUni (.error e))

theorem ended_init : Ended [] init := ⟨by simp [init], by simp [init]⟩

theorem ended_step (fs : List ConnectionEvent) (c : Connection) (f : ConnectionEvent)
    (c' : Connection) (_ : Ended fs c) (h : c.step f = some c') : Ended (fs ++ [f]) c' := by
  cases did_of_step h with
  | established hphase => exact ⟨by simp, by simp⟩
  | failed hphase error => exact ⟨by simp, by simp⟩
  | opened hphase => exact ⟨by simp [hphase], by simp [hphase]⟩
  | closed hphase error => exact ⟨by simp, by simp⟩

/-- The error with this label is counted when it ends the connection. -/
theorem count_error {c c' : Connection} {e : ConnectionEvent} (h : c.step e = some c')
    (label : String) :
    (if c'.phase = .closed (.other label) then 1 else 0) =
      (if c.phase = .closed (.other label) then 1 else 0) + e.error.toList.count label := by
  cases did_of_step h with
  | established hphase => simp [hphase, ConnectionEvent.error]
  | failed hphase error => simp [hphase, ConnectionEvent.error]
  | opened hphase => simp [hphase, ConnectionEvent.error]
  | closed hphase error =>
    cases error with
    | ApplicationClosed text => simp [hphase, ConnectionEvent.error]
    | other text => simp [hphase, ConnectionEvent.error, List.count_singleton]

end Connection

/-- Where the thread of the server is, once it has its endpoint: in `quic_server_loop`, behind it
while the runtime is still there, or at its end. -/
inductive ServerPhase
  | looping
  | returned
  | ended
deriving DecidableEq, Repr

/-- A stream: the connection it was opened on, and its handler once it was read. -/
structure StreamTask where
  connection : ℕ
  handler : Option ℕ
deriving DecidableEq, Repr

/-- The server, the labels under which `quic_server_incoming_err` was incremented, and the relay. -/
structure QuicServer (ε ω : Type) where
  phase : ServerPhase
  cancelled : Bool
  connections : List Connection
  streams : List StreamTask
  incomingErr : List String
  relay : Relay ε ω

/-- What can happen next. An incoming connection is `none` when the endpoint is closed. -/
inductive QuicEvent (ε : Type)
  | incoming (accepted : Option (Except String Unit))
  | connection (i : ℕ) (e : ConnectionEvent)
  | read (j : ℕ) (stream : UniStream)
  | relay (e : RelayEvent ε)
  | cancel
  | observeCancel
  | dropRuntime

/-- The input came over QUIC. -/
def IngressInput.isQuic : IngressInput ε → Bool
  | .quic _ => true
  | .json _ _ _ => false

/-- The event is the arrival of a stream. -/
def RelayEvent.isStream (e : RelayEvent ε) : Bool := e.arrival.any IngressInput.isQuic

namespace QuicServer

open Lts

def init (workers : ω) : QuicServer ε ω := ⟨.looping, false, [], [], [], Relay.init workers⟩

/-- The server after a step of connection `i`. -/
def withConnection (s : QuicServer ε ω) (i : ℕ) (e : ConnectionEvent) (c : Connection) :
    QuicServer ε ω :=
  { s with
    connections := s.connections.set i c
    streams := s.streams ++ List.replicate e.opens ⟨i, none⟩
    incomingErr := s.incomingErr ++ e.error.toList }

variable (cache : WorkersCache Submission ω κ) (wincode : Wincode) (env : RpcEnv ε)

/-- One step. -/
def step (s : QuicServer ε ω) : QuicEvent ε → Option (QuicServer ε ω)
  | .incoming accepted =>
    match s.phase, accepted with
    | .looping, none => some s
    | .looping, some (.ok ()) => some { s with connections := s.connections ++ [.init] }
    | .looping, some (.error text) => some { s with incomingErr := s.incomingErr ++ [text] }
    | _, _ => none
  | .connection i e =>
    match s.phase with
    | .ended => none
    | _ => s.connections[i]?.bind fun c => (c.step e).map (s.withConnection i e)
  | .read j stream =>
    match s.phase, s.streams[j]? with
    | .ended, _ => none
    | _, some ⟨i, none⟩ =>
      (Relay.step cache wincode env s.relay (.arrive (.quic stream))).map fun relay =>
        { s with streams := s.streams.set j ⟨i, some s.relay.service.handlers.length⟩, relay }
    | _, _ => none
  | .relay e =>
    if e.isStream then none
    else (Relay.step cache wincode env s.relay e).map fun relay => { s with relay }
  | .cancel => some { s with cancelled := true }
  | .observeCancel =>
    match s.phase with
    | .looping => if s.cancelled then some { s with phase := .returned } else none
    | _ => none
  | .dropRuntime =>
    match s.phase with
    | .returned => some { s with phase := .ended }
    | _ => none

/-- All that a step can do. -/
inductive Did (s : QuicServer ε ω) : QuicEvent ε → QuicServer ε ω → Prop
  | closed (hphase : s.phase = .looping) : Did s (.incoming none) s
  | connected (hphase : s.phase = .looping) : Did s (.incoming (some (.ok ())))
      { s with connections := s.connections ++ [.init] }
  | refused (hphase : s.phase = .looping) (text : String) : Did s (.incoming (some (.error text)))
      { s with incomingErr := s.incomingErr ++ [text] }
  | moved (hphase : s.phase ≠ .ended) (i : ℕ) (e : ConnectionEvent) (c c' : Connection)
      (hi : s.connections[i]? = some c) (hstep : c.step e = some c') :
      Did s (.connection i e) (s.withConnection i e c')
  | read (hphase : s.phase ≠ .ended) (j i : ℕ) (stream : UniStream) (relay : Relay ε ω)
      (hj : s.streams[j]? = some ⟨i, none⟩)
      (hstep : Relay.step cache wincode env s.relay (.arrive (.quic stream)) = some relay) :
      Did s (.read j stream)
        { s with streams := s.streams.set j ⟨i, some s.relay.service.handlers.length⟩, relay }
  | relayed (e : RelayEvent ε) (he : e.isStream = false) (relay : Relay ε ω)
      (hstep : Relay.step cache wincode env s.relay e = some relay) :
      Did s (.relay e) { s with relay }
  | cancelled : Did s .cancel { s with cancelled := true }
  | returned (hphase : s.phase = .looping) (hcancelled : s.cancelled = true) :
      Did s .observeCancel { s with phase := .returned }
  | ended (hphase : s.phase = .returned) : Did s .dropRuntime { s with phase := .ended }

theorem did_of_step {s s' : QuicServer ε ω} {e : QuicEvent ε}
    (h : step cache wincode env s e = some s') : Did cache wincode env s e s' := by
  cases e with
  | incoming accepted =>
    simp only [step] at h
    split at h
    · cases h; exact .closed ‹_›
    · cases h; exact .connected ‹_›
    · cases h; exact .refused ‹_› _
    · cases h
  | connection i e =>
    simp only [step] at h
    split at h
    · cases h
    · obtain ⟨c, hi, hmap⟩ := Option.bind_eq_some_iff.mp h
      obtain ⟨c', hstep, rfl⟩ := Option.map_eq_some_iff.mp hmap
      exact .moved ‹_› i e c c' hi hstep
  | read j stream =>
    simp only [step] at h
    split at h
    · cases h
    · obtain ⟨relay, hstep, rfl⟩ := Option.map_eq_some_iff.mp h
      exact .read ‹_› j _ stream relay ‹_› hstep
    · cases h
  | relay e =>
    simp only [step] at h
    split_ifs at h with he
    obtain ⟨relay, hstep, rfl⟩ := Option.map_eq_some_iff.mp h
    exact .relayed e (Bool.eq_false_iff.mpr he) relay hstep
  | cancel => cases h; exact .cancelled
  | observeCancel =>
    simp only [step] at h
    split at h
    · split_ifs at h with hcancelled
      cases h
      exact .returned ‹_› hcancelled
    · cases h
  | dropRuntime =>
    simp only [step] at h
    split at h
    · cases h; exact .ended ‹_›
    · cases h

/-! ## Connections -/

/-- What an event is in the population of connections. -/
def populationEvent : QuicEvent ε → Option (PopulationEvent Connection ConnectionEvent)
  | .incoming (some (.ok ())) => some (.join .init)
  | .connection i e => some (.act i e)
  | _ => none

/-- What happened to connection `i`. -/
def connectionEvents (i : ℕ) (es : List (QuicEvent ε)) : List ConnectionEvent :=
  es.filterMap fun
    | .connection j e => if j = i then some e else none
    | _ => none

theorem eventsOf_populationEvents (i : ℕ) (es : List (QuicEvent ε)) :
    Population.eventsOf i (es.filterMap populationEvent) = connectionEvents i es := by
  rw [Population.eventsOf, List.filterMap_filterMap, connectionEvents]
  congr 1
  funext e
  cases e with
  | incoming accepted =>
    rcases accepted with - | (text | ⟨⟩) <;> rfl
  | _ => rfl

theorem eq_init_of_joined {es : List (QuicEvent ε)} {m : Connection}
    (h : m ∈ Population.joined (es.filterMap populationEvent)) : m = .init := by
  rw [Population.joined, List.filterMap_filterMap, List.mem_filterMap] at h
  obtain ⟨e, -, he⟩ := h
  cases e with
  | incoming accepted =>
    rcases accepted with - | (text | ⟨⟩)
    · cases he
    · cases he
    · exact (Option.some.inj he).symm
  | _ => cases he

/-- The connections are a population. -/
theorem population_step (es : List (QuicEvent ε)) (s : QuicServer ε ω) (e : QuicEvent ε)
    (s' : QuicServer ε ω)
    (hs : runFrom (Population.step Connection.step) [] (es.filterMap populationEvent) =
      some s.connections)
    (h : step cache wincode env s e = some s') :
    runFrom (Population.step Connection.step) [] ((es ++ [e]).filterMap populationEvent) =
      some s'.connections := by
  rw [List.filterMap_append]
  cases did_of_step cache wincode env h with
  | connected hphase => exact runFrom_concat hs rfl
  | moved hphase i f c c' hi hstep =>
    refine runFrom_concat hs ?_
    rw [Population.step, hi, Option.bind_some, hstep]
    rfl
  | _ => exact (List.append_nil (es.filterMap populationEvent)).symm ▸ hs

/-- **Connections are on their own.** Whatever happens to the others, to the streams and to the
relay, a connection is where its own events take it from its start. -/
theorem connection_isolated {workers : ω} {es : List (QuicEvent ε)} {s : QuicServer ε ω}
    {i : ℕ} {c : Connection}
    (hrun : runFrom (step cache wincode env) (init workers) es = some s)
    (hi : s.connections[i]? = some c) :
    runFrom Connection.step .init (connectionEvents i es) = some c := by
  have hpopulation := runFrom_history (population_step cache wincode env) rfl hrun
  have hlength := Population.length_of_run Connection.step hpopulation
  have hlt : i < (Population.joined (es.filterMap populationEvent)).length :=
    hlength ▸ (List.getElem?_eq_some_iff.mp hi).1
  have hjoined : (Population.joined (es.filterMap populationEvent))[i]? = some .init := by
    rw [List.getElem?_eq_getElem hlt, eq_init_of_joined (List.getElem_mem hlt)]
  rw [← eventsOf_populationEvents]
  exact Population.member_run Connection.step hpopulation hjoined hi

/-- Two connections: the first fails after its stream, which is read; a request arrives between. -/
def twoConnections : List (QuicEvent TransactionBinaryEncoding) :=
  [.incoming (some (.ok ())), .incoming (some (.error "refused")), .incoming (some (.ok ())),
    .connection 0 (.established (.ok ())), .connection 0 (.acceptUni (.ok ())),
    .connection 0 (.acceptUni (.error (.other "timed out"))),
    .relay (.arrive (.json [] none none)), .connection 1 (.established (.ok ())),
    .read 0 (.finished (TransactionPacket.layout ⟨[7], true, none⟩))]

/-! ## Streams -/

/-- Whether handler `k` has been started for a stream. -/
def isStreamHandler (s : Relay ε ω) (k : ℕ) : Bool :=
  (s.service.handlers.map Handler.input)[k]?.any IngressInput.isQuic

/-- The arrival of a stream starts one more such handler. -/
theorem isStreamHandler_step {s s' : Relay ε ω} {e : RelayEvent ε}
    (h : Relay.step cache wincode env s e = some s') (k : ℕ) :
    isStreamHandler s' k =
      (isStreamHandler s k || (e.isStream && k == s.service.handlers.length)) := by
  unfold isStreamHandler RelayEvent.isStream
  rw [Relay.inputs_step cache wincode env h]
  cases e.arrival with
  | none => simp
  | some input =>
    rw [Option.toList_some, Total.any_getElem?_concat, List.length_map]
    rfl

/-- The streams of the connections, and the handlers of the streams. -/
structure Handled (s : QuicServer ε ω) : Prop where
  placed : ∀ t ∈ s.streams, t.connection < s.connections.length
  opened : ∀ i c, s.connections[i]? = some c →
    s.streams.countP (fun t => t.connection == i) = c.streams
  handled : ∀ k, s.streams.countP (fun t => t.handler == some k) =
    if isStreamHandler s.relay k then 1 else 0

theorem handled_init (workers : ω) : Handled (init workers : QuicServer ε ω) where
  placed := nofun
  opened := nofun
  handled := fun _ => rfl

/-- A step of a connection. -/
theorem handled_moved {s : QuicServer ε ω} (hs : Handled s) {i : ℕ} {e : ConnectionEvent}
    {c c' : Connection} (hi : s.connections[i]? = some c) (hstep : c.step e = some c') :
    Handled (s.withConnection i e c') := by
  have hlt : i < s.connections.length := (List.getElem?_eq_some_iff.mp hi).1
  refine ⟨fun t ht => ?_, fun j d hj => ?_, fun k => ?_⟩
  · show _ < (s.connections.set i c').length
    rw [List.length_set]
    rcases List.mem_append.mp ht with ht | ht
    · exact hs.placed t ht
    · rw [List.eq_of_mem_replicate ht]
      exact hlt
  · show (s.streams ++ List.replicate e.opens _).countP _ = _
    rw [List.countP_append, List.countP_replicate]
    have hj' : (s.connections.set i c')[j]? = some d := hj
    by_cases hij : i = j
    · subst hij
      rw [List.getElem?_set_self hlt] at hj'
      cases hj'
      rw [hs.opened i c hi, Connection.streams_step hstep]
      simp
    · rw [List.getElem?_set_ne hij] at hj'
      rw [hs.opened j d hj']
      simp [hij]
  · show (s.streams ++ List.replicate e.opens _).countP _ = _
    rw [List.countP_append, List.countP_replicate]
    exact hs.handled k

/-- **A stream is read.** -/
theorem handled_read {s : QuicServer ε ω} (hs : Handled s) {i j : ℕ} {stream : UniStream}
    {relay : Relay ε ω} (hj : s.streams[j]? = some ⟨i, none⟩)
    (hstep : Relay.step cache wincode env s.relay (.arrive (.quic stream)) = some relay) :
    Handled { s with
      streams := s.streams.set j ⟨i, some s.relay.service.handlers.length⟩, relay } := by
  refine ⟨fun t ht => ?_, fun i' c hi' => ?_, fun k => ?_⟩
  · rcases List.mem_or_eq_of_mem_set ht with ht | rfl
    · exact hs.placed t ht
    · exact hs.placed ⟨i, none⟩ (List.mem_of_getElem? hj)
  · have hset := Total.total_set (fun t => if t.connection == i' then 1 else 0) hj
      ⟨i, some s.relay.service.handlers.length⟩
    rw [Nat.add_right_cancel_iff, ← Total.countP_eq_total, ← Total.countP_eq_total] at hset
    exact hset.trans (hs.opened i' c hi')
  · have hset := Total.total_set (fun t => if t.handler == some k then 1 else 0) hj
      ⟨i, some s.relay.service.handlers.length⟩
    rw [← Total.countP_eq_total, ← Total.countP_eq_total, hs.handled k] at hset
    show (s.streams.set j _).countP _ = _
    have hvacant : isStreamHandler s.relay s.relay.service.handlers.length = false := by
      simp [isStreamHandler]
    rw [isStreamHandler_step cache wincode env hstep k]
    by_cases hk : k = s.relay.service.handlers.length
    · subst hk
      simpa [hvacant, RelayEvent.isStream, RelayEvent.arrival, IngressInput.isQuic] using hset
    · simpa [hk, Ne.symm hk] using hset

/-- **One step.** -/
theorem handled_step (s : QuicServer ε ω) (e : QuicEvent ε) (s' : QuicServer ε ω)
    (hs : Handled s) (h : step cache wincode env s e = some s') : Handled s' := by
  cases did_of_step cache wincode env h with
  | connected hphase =>
    refine ⟨fun t ht => ?_, fun i c hi => ?_, hs.handled⟩
    · show _ < (s.connections ++ [_]).length
      rw [List.length_append]
      exact Nat.lt_add_right _ (hs.placed t ht)
    · refine Total.getElem?_concat_of hs.opened ?_ hi
      -- no stream belongs to the new connection
      refine List.countP_eq_zero.mpr fun t ht => ?_
      rw [beq_iff_eq]
      exact Nat.ne_of_lt (hs.placed t ht)
  | moved hphase i f c c' hi hstep => exact handled_moved hs hi hstep
  | read hphase j i stream relay hj hstep => exact handled_read cache wincode env hs hj hstep
  | relayed f hf relay hstep =>
    refine ⟨hs.placed, hs.opened, fun k => ?_⟩
    have hsame := isStreamHandler_step cache wincode env hstep k
    rw [hf, Bool.false_and, Bool.or_false] at hsame
    show _ = if isStreamHandler relay k then 1 else 0
    rw [hsame]
    exact hs.handled k
  | _ => exact ⟨hs.placed, hs.opened, hs.handled⟩

/-- **Each stream is handled once.** A connection has as many streams as its task has accepted. A
handler that was started for a stream was started for one of them alone, and one that was started
for a request for none. -/
theorem streams_handled_once {workers : ω} {es : List (QuicEvent ε)} {s : QuicServer ε ω}
    (hrun : runFrom (step cache wincode env) (init workers) es = some s) :
    (∀ i c, s.connections[i]? = some c →
      s.streams.countP (fun t => t.connection == i) = c.streams) ∧
    ∀ k h, s.relay.service.handlers[k]? = some h →
      s.streams.countP (fun t => t.handler == some k) = if h.input.isQuic then 1 else 0 := by
  have hs := runFrom_invariant (handled_step cache wincode env) (handled_init workers) hrun
  refine ⟨hs.opened, fun k h hk => ?_⟩
  rw [hs.handled k, isStreamHandler, List.getElem?_map, hk]
  rfl

theorem streams_handled_once_twoConnections :
    ∃ s, runFrom (step WorkersCache.accepting Wincode.standard sampleEnv) (init ())
        twoConnections = some s ∧ s.streams = [⟨0, some 1⟩] ∧
      ∀ i c, s.connections[i]? = some c →
        s.streams.countP (fun t => t.connection == i) = c.streams :=
  ⟨_, rfl, rfl, (@streams_handled_once _ _ _ WorkersCache.accepting Wincode.standard sampleEnv ()
    twoConnections _ rfl).1⟩

/-! ## Errors -/

/-- The error of an incoming connection that was not accepted. -/
def refusal : QuicEvent ε → Option String
  | .incoming (some (.error text)) => some text
  | _ => none

/-- The errors that were counted are those of the connections that were not accepted, and those
that `accept_uni` has ended the others with, unless the application had closed them. -/
def Counted (es : List (QuicEvent ε)) (s : QuicServer ε ω) : Prop :=
  ∀ label, s.incomingErr.count label = (es.filterMap refusal).count label +
    total (fun c => if c.phase = .closed (.other label) then 1 else 0) s.connections

theorem counted_step (es : List (QuicEvent ε)) (s : QuicServer ε ω) (e : QuicEvent ε)
    (s' : QuicServer ε ω) (hs : Counted es s) (h : step cache wincode env s e = some s') :
    Counted (es ++ [e]) s' := by
  intro label
  have hlabel := hs label
  rw [List.filterMap_append, List.count_append]
  cases did_of_step cache wincode env h with
  | connected hphase =>
    show _ = _ + total _ (s.connections ++ [_])
    rw [Total.total_concat]
    exact hlabel
  | refused hphase text =>
    show (s.incomingErr ++ [text]).count label = _ + [text].count label + total _ s.connections
    rw [List.count_append]
    omega
  | moved hphase i f c c' hi hstep =>
    have hset := Total.total_set (fun c => if c.phase = .closed (.other label) then 1 else 0) hi c'
    rw [Connection.count_error hstep label] at hset
    show (s.incomingErr ++ f.error.toList).count label = _ + 0 + total _ (s.connections.set i c')
    rw [List.count_append]
    omega
  | _ => exact hlabel

/-- How a connection has ended is the last that happened to it. -/
theorem ended_run {workers : ω} {es : List (QuicEvent ε)} {s : QuicServer ε ω} {i : ℕ}
    {c : Connection} (hrun : runFrom (step cache wincode env) (init workers) es = some s)
    (hi : s.connections[i]? = some c) : c.Ended (connectionEvents i es) :=
  runFrom_history Connection.ended_step Connection.ended_init
    (connection_isolated cache wincode env hrun hi)

/-- **What `quic_server_incoming_err` counts**: under each label the incoming connections that were
refused with this error, and those whose last event is its return from `accept_uni`, each of them
once. A connection that was never established, or that the application has closed, is not among
them. -/
theorem errors_counted {workers : ω} {es : List (QuicEvent ε)} {s : QuicServer ε ω}
    (hrun : runFrom (step cache wincode env) (init workers) es = some s) (label : String) :
    s.incomingErr.count label = (es.filterMap refusal).count label +
      (List.range s.connections.length).countP fun i =>
        (connectionEvents i es).getLast? == some (.acceptUni (.error (.other label))) := by
  have hcounted := runFrom_history (counted_step cache wincode env) (fun _ => rfl) hrun label
  rw [hcounted, Nat.add_left_cancel_iff, Total.total_eq_countP_range]
  intro i c hi
  rw [beq_iff_eq]
  exact ((ended_run cache wincode env hrun hi).closed (.other label)).symm

/-- Besides the two connections, one that is never established and one that the application closes,
both with the same text. -/
def fourConnections : List (QuicEvent TransactionBinaryEncoding) :=
  twoConnections ++ [.incoming (some (.ok ())), .incoming (some (.ok ())),
    .connection 2 (.established (.error (.other "timed out"))),
    .connection 3 (.established (.ok ())),
    .connection 3 (.acceptUni (.error (.ApplicationClosed "timed out")))]

theorem errors_counted_fourConnections :
    ∃ s, runFrom (step WorkersCache.accepting Wincode.standard sampleEnv) (init ())
        fourConnections = some s ∧ s.connections.length = 4 ∧
      s.incomingErr.count "timed out" = 1 ∧ s.incomingErr.count "refused" = 1 :=
  ⟨_, rfl, rfl,
    @errors_counted _ _ _ WorkersCache.accepting Wincode.standard sampleEnv () fourConnections _ rfl
      "timed out",
    @errors_counted _ _ _ WorkersCache.accepting Wincode.standard sampleEnv () fourConnections _ rfl
      "refused"⟩

/-! ## The end of the loop -/

/-- The loop has not returned, or the token is set. -/
def Cancelled (s : QuicServer ε ω) : Prop := s.phase = .looping ∨ s.cancelled = true

theorem cancelled_step (s : QuicServer ε ω) (e : QuicEvent ε) (s' : QuicServer ε ω)
    (hs : Cancelled s) (h : step cache wincode env s e = some s') : Cancelled s' := by
  cases did_of_step cache wincode env h with
  | cancelled => exact Or.inr rfl
  | returned hphase hcancelled => exact Or.inr hcancelled
  | ended hphase => exact Or.inr (hs.resolve_left (by simp [hphase]))
  | _ => exact hs

end QuicServer

end Iris
