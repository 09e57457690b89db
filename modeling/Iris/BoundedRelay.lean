import Iris.Delivery
import Iris.Lib.BoundedChannel

/-!
# The relay with its bounded channel

The channel from the servers to the scheduler has `sender_channel_size` places. It answers each
offer by itself, and refuses what it has no place for.

* `BoundedRelay`, `BoundedEvent`, `step`: the system; its channel cannot hold more;
* `Did`, **`did_of_step`**: its steps are those of a `Relay`, with the answers of its channel;
* **`exists_relay_run`**: a run of it is one of the `Relay`, with as many calls;
* **`tick_releases`**: a tick does its work even when its batch is refused.
-/

namespace Iris

open scoped List

variable {ε ω κ : Type} {capacity : ℕ}

/-- How `try_send_transaction` ends. -/
def TrySend.ofReply : Reply → TrySend
  | .accepted => .sent
  | .full => .full
  | .closed => .closed

/-- A relay and its channel, which the scheduler closes when it stops. -/
structure BoundedRelay (ε ω : Type) (capacity : ℕ) where
  relay : Relay ε ω
  closed : Bool
  bounded : relay.service.channel.length ≤ capacity

/-- What can happen next. -/
inductive BoundedEvent (ε : Type)
  | arrive (input : IngressInput ε)
  | run (i : ℕ)
  | flush
  | refresh (blockedLeaders : Finset SocketAddr)
  | send (leaders : List SocketAddr)
  | stop

/-- The event takes a batch off the channel. -/
def BoundedEvent.isSend : BoundedEvent ε → Bool
  | .send _ => true
  | _ => false

namespace BoundedRelay

open Lts

def init (workers : ω) : BoundedRelay ε ω capacity := ⟨Relay.init workers, false, Nat.zero_le _⟩

/-- The channel. -/
def channel (s : BoundedRelay ε ω capacity) : BoundedChannel (Bytes Submission) capacity :=
  ⟨s.relay.service.channel, s.closed, s.bounded⟩

/-- What an event is in the relay: an offer gets the answer of the channel. -/
def relayEvent (s : BoundedRelay ε ω capacity) : BoundedEvent ε → Option (RelayEvent ε)
  | .arrive input => some (.arrive input)
  | .run i => some (.run i (.ofReply s.channel.reply))
  | .flush => some (.flush (.ofReply s.channel.reply))
  | .refresh blockedLeaders => some (.refresh blockedLeaders)
  | .send leaders => if s.closed then none else some (.send leaders)
  | .stop => none

variable (cache : WorkersCache Submission ω κ) (wincode : Wincode) (env : RpcEnv ε)

/-- An offer, with the answer of the channel. -/
theorem trySend_ofReply (s : BoundedRelay ε ω capacity) (batch : Bytes Submission) :
    trySendTransaction s.relay.service.channel batch (.ofReply s.channel.reply) =
      (s.channel.offer batch).waiting := by
  rw [BoundedChannel.waiting_offer]
  cases hreply : s.channel.reply with
  | accepted => rfl
  | full | closed => exact (List.append_nil _).symm

/-- **The channel keeps its bound.** -/
theorem length_of_step {s : BoundedRelay ε ω capacity} {e : BoundedEvent ε} {f : RelayEvent ε}
    {relay : Relay ε ω} (hf : s.relayEvent e = some f)
    (h : Relay.step cache wincode env s.relay f = some relay) :
    relay.service.channel.length ≤ capacity := by
  have hbounded := s.bounded
  have hoffer : ∀ batch, (trySendTransaction s.relay.service.channel batch
      (.ofReply s.channel.reply)).length ≤ capacity := by
    intro batch
    rw [trySend_ofReply]
    exact (s.channel.offer batch).bounded
  cases e with
  | arrive input =>
    cases hf
    obtain ⟨service, hstep, rfl⟩ := Relay.exists_of_serviceStep wincode env h
    cases Service.did_of_step wincode env hstep
    exact hbounded
  | run i =>
    cases hf
    obtain ⟨t, ht, rfl⟩ := Option.map_eq_some_iff.mp h
    obtain ⟨service, hstep, rfl⟩ := Relay.exists_of_serviceStep wincode env ht
    cases Service.did_of_step wincode env hstep with
    | added outcome hi hrest => exact hbounded
    | offered outcome hi hrest => exact hoffer _
  | flush =>
    cases hf
    obtain ⟨service, hstep, rfl⟩ := Relay.exists_of_serviceStep wincode env h
    cases Service.did_of_step wincode env hstep
    exact hoffer _
  | refresh blockedLeaders =>
    cases hf
    obtain ⟨service, hstep, rfl⟩ := Relay.exists_of_serviceStep wincode env h
    cases Service.did_of_step wincode env hstep
    exact hbounded
  | send leaders =>
    simp only [relayEvent] at hf
    split_ifs at hf
    cases hf
    cases Relay.did_of_step cache wincode env h with
    | service f service hsend => exact absurd rfl (hsend leaders)
    | sent leaders batch rest hchannel =>
      rw [hchannel, List.length_cons] at hbounded
      exact Nat.le_of_succ_le hbounded
  | stop => cases hf

/-- A step of the relay. -/
def relayStep (s : BoundedRelay ε ω capacity) (e : BoundedEvent ε) (f : RelayEvent ε)
    (hf : s.relayEvent e = some f) : Option (BoundedRelay ε ω capacity) :=
  match h : Relay.step cache wincode env s.relay f with
  | some relay => some ⟨relay, s.closed, length_of_step cache wincode env hf h⟩
  | none => none

/-- One step. -/
def step (s : BoundedRelay ε ω capacity) : BoundedEvent ε → Option (BoundedRelay ε ω capacity)
  | .stop => some { s with closed := true }
  | e =>
    match hf : s.relayEvent e with
    | some f => relayStep cache wincode env s e f hf
    | none => none

/-- All that a step can do. -/
inductive Did (s : BoundedRelay ε ω capacity) (e : BoundedEvent ε) :
    BoundedRelay ε ω capacity → Prop
  | relay (f : RelayEvent ε) (hf : s.relayEvent e = some f) (s' : BoundedRelay ε ω capacity)
      (hclosed : s'.closed = s.closed)
      (hstep : Relay.step cache wincode env s.relay f = some s'.relay) : Did s e s'
  | stopped (he : e = .stop) : Did s e { s with closed := true }

theorem did_of_relayStep {s s' : BoundedRelay ε ω capacity} {e : BoundedEvent ε} {f : RelayEvent ε}
    {hf : s.relayEvent e = some f} (h : relayStep cache wincode env s e f hf = some s') :
    Did cache wincode env s e s' := by
  unfold relayStep at h
  split at h
  · cases h
    exact .relay f hf _ rfl ‹_›
  · cases h

theorem did_of_step {s s' : BoundedRelay ε ω capacity} {e : BoundedEvent ε}
    (h : step cache wincode env s e = some s') : Did cache wincode env s e s' := by
  unfold step at h
  split at h
  · cases h
    exact .stopped rfl
  · split at h
    · exact did_of_relayStep cache wincode env h
    · cases h

theorem relay_step {s s' : BoundedRelay ε ω capacity} {e : BoundedEvent ε}
    (h : step cache wincode env s e = some s') :
    ∃ fs, runFrom (Relay.step cache wincode env) s.relay fs = some s'.relay ∧
      fs.countP RelayEvent.isSend = [e].countP BoundedEvent.isSend := by
  cases did_of_step cache wincode env h with
  | stopped he => exact ⟨[], rfl, by rw [he]; rfl⟩
  | relay f hf s' hclosed hstep =>
    refine ⟨[f], runFrom_cons_eq_some.mpr ⟨_, hstep, rfl⟩, ?_⟩
    cases e with
    | send leaders =>
      simp only [relayEvent] at hf
      split_ifs at hf
      cases hf
      rfl
    | stop => cases hf
    | _ => cases hf; rfl

/-- **A run of the relay**, with as many calls. -/
theorem exists_relay_run : ∀ {es : List (BoundedEvent ε)} {s s' : BoundedRelay ε ω capacity},
    runFrom (step cache wincode env) s es = some s' →
      ∃ fs, runFrom (Relay.step cache wincode env) s.relay fs = some s'.relay ∧
        fs.countP RelayEvent.isSend = es.countP BoundedEvent.isSend
  | [], s, s', h => by
    cases h
    exact ⟨[], rfl, rfl⟩
  | e :: es, s, s', h => by
    obtain ⟨t, ht, h⟩ := runFrom_cons_eq_some.mp h
    obtain ⟨fs, hfs, hcount⟩ := relay_step cache wincode env ht
    obtain ⟨gs, hgs, hcount'⟩ := exists_relay_run h
    refine ⟨fs ++ gs, runFrom_append_eq_some.mpr ⟨_, hfs, hgs⟩, ?_⟩
    rw [List.countP_append, hcount, hcount', ← List.countP_append]
    rfl

/-! ## Ticks -/

/-- The channel after a tick: the batch of the tick is in it, or there was no place for it. -/
theorem exists_last_of_tick {s t : BoundedRelay ε ω capacity} (hcapacity : 0 < capacity)
    (hopen : s.closed = false) (htick : step cache wincode env s .flush = some t) :
    t.relay.accepted = s.relay.accepted ∧
      ∃ front last, t.relay.service.channel = front ++ [last] := by
  cases did_of_step cache wincode env htick with
  | stopped he => cases he
  | relay f hf t hclosed hstep =>
    cases hf
    obtain ⟨service, hservice, hrelay⟩ := Relay.exists_of_serviceStep wincode env hstep
    cases Service.did_of_step wincode env hservice
    rw [hrelay]
    refine ⟨rfl, ?_⟩
    show ∃ front last, trySendTransaction s.relay.service.channel Bytes.new _ = _
    cases hreply : s.channel.reply with
    | accepted => exact ⟨_, _, rfl⟩
    | closed =>
      have hclosed := BoundedChannel.reply_eq_closed_iff.mp hreply
      rw [show s.channel.closed = false from hopen] at hclosed
      cases hclosed
    | full =>
      have hlength : s.relay.service.channel.length = capacity :=
        (BoundedChannel.reply_eq_full_iff.mp hreply).2
      rcases List.eq_nil_or_concat s.relay.service.channel with hnil | ⟨front, last, hchannel⟩
      · rw [hnil] at hlength
        simp only [List.length_nil] at hlength
        omega
      · exact ⟨front, last, hchannel.trans List.concat_eq_append⟩

/-- **A tick does its work even when its batch is refused.** As long as the channel is open, it is
not empty after the tick; and when the scheduler has taken what is in it, and none of the leaders
that it has for the last batch is blocked, nothing is held back, and the calls so far have released
the transactions that were accepted before the tick. -/
theorem tick_releases {workers : ω} {es₁ : List (BoundedEvent ε)}
    {s₁ t : BoundedRelay ε ω capacity} (hcapacity : 0 < capacity)
    (hrun₁ : runFrom (step cache wincode env) (init workers) es₁ = some s₁)
    (hopen : s₁.closed = false) (htick : step cache wincode env s₁ .flush = some t) :
    0 < t.relay.service.channel.length ∧
      ∀ (es₂ : List (BoundedEvent ε)) (s₂ s₃ : BoundedRelay ε ω capacity)
        (leaders : List SocketAddr), runFrom (step cache wincode env) t es₂ = some s₂ →
        es₂.countP BoundedEvent.isSend + 1 = t.relay.service.channel.length →
        (∀ a ∈ leaders, a ∉ s₂.relay.service.broadcaster.blockedLeaders) →
        step cache wincode env s₂ (.send leaders) = some s₃ →
          s₃.relay.service.buffer = [] ∧
            Relay.released s₃.relay ~
              s₁.relay.accepted.map TpuClientPayload.wireTransaction := by
  obtain ⟨haccepted, front, last, hchannel⟩ :=
    exists_last_of_tick cache wincode env hcapacity hopen htick
  have hlength : t.relay.service.channel.length = front.length + 1 := by
    rw [hchannel, List.length_append, List.length_singleton]
  refine ⟨by omega, fun es₂ s₂ s₃ leaders hrun₂ hsends hleaders hsend => ?_⟩
  obtain ⟨fs, hfs, -⟩ := exists_relay_run cache wincode env (runFrom_concat hrun₁ htick)
  obtain ⟨gs, hgs, hcount⟩ := exists_relay_run cache wincode env hrun₂
  have hlast : Relay.step cache wincode env s₂.relay (.send leaders) = some s₃.relay := by
    cases did_of_step cache wincode env hsend with
    | stopped he => cases he
    | relay f hf s' hclosed hstep =>
      simp only [relayEvent] at hf
      split_ifs at hf
      cases hf
      exact hstep
  rw [← haccepted]
  exact Relay.released_of_last cache wincode env hfs hchannel hgs (by omega) hleaders hlast

/-- Two packets, and one place. -/
def crowded : List (BoundedEvent TransactionBinaryEncoding) :=
  [.arrive (.quic (.finished (TransactionPacket.layout ⟨[7], true, none⟩))),
    .arrive (.quic (.finished (TransactionPacket.layout ⟨[8, 8], false, none⟩))), .run 0, .run 0,
    .run 0, .run 1, .run 1]

/-- The batch of the tick is refused; the call for the packet lets it out. -/
theorem tick_releases_crowded :
    ∃ s₁ t s₃ : BoundedRelay TransactionBinaryEncoding Unit 1,
      runFrom (step WorkersCache.accepting Wincode.standard sampleEnv) (init ()) crowded =
        some s₁ ∧
      step WorkersCache.accepting Wincode.standard sampleEnv s₁ .flush = some t ∧
      t.relay.service.channel = s₁.relay.service.channel ∧
      step WorkersCache.accepting Wincode.standard sampleEnv t (.send [System.localAddr 8002]) =
        some s₃ ∧
      Relay.released s₃.relay ~ s₁.relay.accepted.map TpuClientPayload.wireTransaction :=
  ⟨_, _, _, rfl, rfl, rfl, rfl,
    ((@tick_releases _ _ _ 1 WorkersCache.accepting Wincode.standard sampleEnv () crowded _ _
      (by decide) rfl rfl rfl).2 [] _ _ [System.localAddr 8002] rfl rfl (by decide) rfl).2⟩

end BoundedRelay

end Iris
