import Iris.QuicServer
import Iris.RpcServer

/-!
# The size of submitted transactions

* `IngressInput`: what arrives at the two servers; `Bounded`: none of its payloads is oversized;
* **`ingress_bounded_iff`**: the inputs that are bounded; `oversized_packet`: one that is not.
-/

namespace Iris

/-- What arrives at one of the two servers. -/
inductive IngressInput (ε : Type)
  | json (txn : Text) (params : Option (RpcSendTransactionConfig ε)) (mevProtect : Option Bool)
  | quic (stream : UniStream)

variable {ε τ : Type} (wincode : Wincode) (a : τ) (env : RpcEnv ε)

/-- The payloads that an input offers to the channel. -/
def IngressInput.payloads : IngressInput ε → List (TpuClientPayload τ)
  | .json txn params mevProtect => offered (sendTransaction env a txn params mevProtect).1
  | .quic stream => offered (handleUniStream wincode a stream)

/-- A stream that is read and decoded, with a length field above `MAX_TRANSACTION_SIZE`. -/
def IngressInput.Oversized : IngressInput ε → Prop
  | .json _ _ _ => False
  | .quic stream => ∃ data, stream = .finished data ∧ data.length ≤ QUIC_MAX_SIZE ∧
      (wincode.deserialize data).isSome ∧ MAX_TRANSACTION_SIZE < lengthField data

/-- No payload of the input is oversized. -/
def IngressInput.Bounded (input : IngressInput ε) : Prop :=
  ∀ p ∈ input.payloads wincode a env, p.wireTransaction.data.length ≤ MAX_TRANSACTION_SIZE

theorem bounded_json (txn : Text) (params : Option (RpcSendTransactionConfig ε))
    (mevProtect : Option Bool) :
    (IngressInput.json txn params mevProtect).Bounded wincode a env := by
  intro p hp
  rw [IngressInput.payloads] at hp
  rcases sendTransaction_cases env a txn params mevProtect with ⟨e, he⟩ |
    ⟨w, signature, ⟨encoding, signatures, -, hdec, -⟩, hw⟩
  · rw [he] at hp
    cases hp
  · rw [hw] at hp
    cases List.mem_singleton.mp hp
    rw [TpuClientPayload.data_wireTransaction_new]
    exact length_le_of_decodeTransaction hdec

/-- **No oversized transaction** gets through, except from a stream whose packet is read, decodes
and has a length field above the limit. -/
theorem ingress_bounded_iff (input : IngressInput ε) :
    input.Bounded wincode a env ↔ ¬ input.Oversized wincode := by
  cases input with
  | json txn params mevProtect =>
    exact iff_of_true (bounded_json wincode a env txn params mevProtect) not_false
  | quic stream =>
    constructor
    · rintro h ⟨data, rfl, hlen, hsome, hover⟩
      obtain ⟨packet, hpacket⟩ := Option.isSome_iff_exists.mp hsome
      have hp := h (TpuClientPayload.new a packet.wireTransaction packet.mevProtect) (by
        rw [IngressInput.payloads, offered_of_deserialize wincode a hlen hpacket]
        exact List.mem_singleton_self _)
      rw [TpuClientPayload.data_wireTransaction_new, length_wireTransaction wincode hpacket] at hp
      omega
    · intro h p hp
      obtain ⟨data, packet, rfl, hlen, hpacket, rfl⟩ := exists_of_mem_offered wincode a hp
      rw [TpuClientPayload.data_wireTransaction_new, length_wireTransaction wincode hpacket]
      by_contra hover
      exact h ⟨data, rfl, hlen, by rw [hpacket]; rfl, by omega⟩

/-- A packet with one byte too many. -/
def oversizedPacket : TransactionPacket :=
  ⟨List.replicate (MAX_TRANSACTION_SIZE + 1) 0, false, none⟩

/-- **An oversized transaction gets through** within the limit for the stream. -/
theorem oversized_packet :
    ¬ (IngressInput.quic (.finished oversizedPacket.layout)).Bounded Wincode.standard ()
      sampleEnv := by
  have hwire : oversizedPacket.wireTransaction.length = MAX_TRANSACTION_SIZE + 1 :=
    List.length_replicate
  have hlen : oversizedPacket.layout.length ≤ QUIC_MAX_SIZE := by
    rw [length_layout, hwire, QUIC_MAX_SIZE]
    split_ifs <;> omega
  intro h
  have hp := h (TpuClientPayload.new () oversizedPacket.wireTransaction false) (by
    rw [IngressInput.payloads, handleUniStream_layout _ _ hlen]
    exact List.mem_singleton_self _)
  rw [TpuClientPayload.data_wireTransaction_new, hwire] at hp
  omega

end Iris
