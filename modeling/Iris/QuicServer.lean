import Iris.Broadcaster.Prepare
import Iris.DecodeTransaction
import Iris.Ingress
import Iris.Lib.LittleEndian

/-!
# The QUIC server

A client sends one `TransactionPacket` a stream. The stream is read up to `QUIC_MAX_SIZE` bytes,
decoded and offered to the TPU channel, whatever the size of the transaction in it.

* `TransactionPacket`, `layout`, `Wincode`: packets, their bytes and the library that reads them;
* `handleUniStream`: the code;
* `handleUniStream_layout`, `exists_of_mem_offered`: what a stream offers to the channel;
* **`quic_end_to_end`**: the broadcaster recovers what the client sent;
* `Wincode.standard`, `readPacket_eq_some`: a reader of the layout.
-/

namespace Iris

structure TransactionPacket where
  wireTransaction : Octets
  mevProtect : Bool
  maxRetry : Option UInt16
deriving DecidableEq, Repr

/-- The bytes of an `Option<u16>`: a tag, and two bytes if there is a number. -/
def maxRetryBytes : Option UInt16 → Octets
  | none => [0]
  | some n => 1 :: LittleEndian.encode 2 n.toNat

/-- A packet as its schema lays it out: the length in eight bytes, the transaction, a byte for the
flag, and the number. -/
def TransactionPacket.layout (p : TransactionPacket) : Octets :=
  LittleEndian.encode 8 p.wireTransaction.length ++ p.wireTransaction ++
    [if p.mevProtect then 1 else 0] ++ maxRetryBytes p.maxRetry

def QUIC_MAX_SIZE : ℕ := MAX_TRANSACTION_SIZE + 64

/-- The `wincode` library at `TransactionPacket`, by the layout it reads and writes. Whether it
reads a packet with further bytes behind it is left open. -/
structure Wincode where
  serialize : TransactionPacket → Octets
  deserialize : Octets → Option TransactionPacket
  serialize_eq : ∀ p, serialize p = p.layout
  deserialize_layout : ∀ p, p.layout.length ≤ QUIC_MAX_SIZE → deserialize p.layout = some p
  layout_prefix : ∀ data p, deserialize data = some p →
    p.wireTransaction.length < 2 ^ 64 ∧ ∃ rest, data = p.layout ++ rest

/-- The end of a stream within the time allowed for it. -/
inductive UniStream
  | finished (data : Octets)
  | failed
  | timedOut

/-- `stream.read_to_end(size_limit)` under the timeout. -/
def UniStream.readToEnd (sizeLimit : ℕ) : UniStream → Option Octets
  | .finished data => if data.length ≤ sizeLimit then some data else none
  | .failed | .timedOut => none

variable {τ : Type} (wincode : Wincode) (a : τ)

/-- `handle_uni_stream`, the vector of the transaction being allocated at `a`. -/
def handleUniStream (stream : UniStream) : List (IngressAction τ) :=
  match stream.readToEnd QUIC_MAX_SIZE with
  | none => []
  | some data =>
    match wincode.deserialize data with
    | none => [.recordQuicReceived, .recordQuicInvalid]
    | some packet =>
      [.recordQuicReceived, .recordQuicMevProtected packet.mevProtect,
        .sendTransaction (TpuClientPayload.new a packet.wireTransaction packet.mevProtect)]

/-! ## The layout -/

theorem length_layout (p : TransactionPacket) :
    p.layout.length = p.wireTransaction.length + if p.maxRetry = none then 10 else 12 := by
  cases hr : p.maxRetry <;>
    simp [TransactionPacket.layout, maxRetryBytes, hr, LittleEndian.length_encode] <;> omega

/-- The framing never exceeds the slack of `QUIC_MAX_SIZE`. -/
theorem length_layout_le {p : TransactionPacket}
    (h : p.wireTransaction.length ≤ MAX_TRANSACTION_SIZE) : p.layout.length ≤ QUIC_MAX_SIZE := by
  rw [length_layout, QUIC_MAX_SIZE]
  split_ifs <;> omega

/-- The length field of a stream. -/
def lengthField (data : Octets) : ℕ := LittleEndian.decode (data.take 8)

theorem lengthField_layout {p : TransactionPacket} (h : p.wireTransaction.length < 2 ^ 64)
    (rest : Octets) : lengthField (p.layout ++ rest) = p.wireTransaction.length := by
  have hlen : (LittleEndian.encode 8 p.wireTransaction.length).length = 8 :=
    LittleEndian.length_encode 8 _
  rw [lengthField, TransactionPacket.layout, List.append_assoc, List.append_assoc, List.append_assoc,
    List.take_left' hlen, LittleEndian.decode_encode (by omega)]

/-- What a client's packet does. -/
theorem handleUniStream_layout {p : TransactionPacket} (h : p.layout.length ≤ QUIC_MAX_SIZE) :
    handleUniStream wincode a (.finished p.layout) =
      [.recordQuicReceived, .recordQuicMevProtected p.mevProtect,
        .sendTransaction (TpuClientPayload.new a p.wireTransaction p.mevProtect)] := by
  rw [handleUniStream, UniStream.readToEnd, if_pos h]
  simp only [wincode.deserialize_layout p h]

/-- What the packet of a transaction of admissible size offers to the channel. -/
theorem offered_serialize {w : Octets} (hw : w.length ≤ MAX_TRANSACTION_SIZE) (m : Bool)
    (r : Option UInt16) :
    offered (handleUniStream wincode a (.finished (wincode.serialize ⟨w, m, r⟩))) =
      [TpuClientPayload.new a w m] := by
  rw [wincode.serialize_eq, handleUniStream_layout wincode a (length_layout_le hw)]
  rfl

/-- What a stream that is read and decoded offers to the channel. -/
theorem offered_of_deserialize {data : Octets} {packet : TransactionPacket}
    (hlen : data.length ≤ QUIC_MAX_SIZE) (hpacket : wincode.deserialize data = some packet) :
    offered (handleUniStream wincode a (.finished data)) =
      [TpuClientPayload.new a packet.wireTransaction packet.mevProtect] := by
  rw [handleUniStream, UniStream.readToEnd, if_pos hlen]
  simp only [hpacket]
  rfl

theorem length_wireTransaction {data : Octets} {packet : TransactionPacket}
    (hpacket : wincode.deserialize data = some packet) :
    packet.wireTransaction.length = lengthField data := by
  obtain ⟨hlen, rest, rfl⟩ := wincode.layout_prefix data packet hpacket
  rw [lengthField_layout hlen]

/-- A stream that is not read or not decoded offers nothing. -/
theorem exists_of_mem_offered {stream : UniStream} {p : TpuClientPayload τ}
    (hp : p ∈ offered (handleUniStream wincode a stream)) :
    ∃ data packet, stream = .finished data ∧ data.length ≤ QUIC_MAX_SIZE ∧
      wincode.deserialize data = some packet ∧
      p = TpuClientPayload.new a packet.wireTransaction packet.mevProtect := by
  cases stream with
  | failed => cases hp
  | timedOut => cases hp
  | finished data =>
    by_cases hlen : data.length ≤ QUIC_MAX_SIZE
    · cases hpacket : wincode.deserialize data with
      | none =>
        rw [handleUniStream, UniStream.readToEnd, if_pos hlen] at hp
        simp only [hpacket] at hp
        cases hp
      | some packet =>
        rw [offered_of_deserialize wincode a hlen hpacket] at hp
        exact ⟨data, packet, rfl, hlen, hpacket, List.mem_singleton.mp hp⟩
    · rw [handleUniStream, UniStream.readToEnd, if_neg hlen] at hp
      cases hp

/-! ## From the client to the broadcaster -/

/-- The round of the hold-back queue that a payload makes. -/
theorem callRound_new (w : Octets) (m blocked : Bool) :
    callRound (TpuClientPayload.new a w m).intoEncoded blocked =
      ⟨some ((TpuClientPayload.new a w m).wireTransaction, m), blocked⟩ := by
  simp [callRound]

/-- An unprotected payload leaves at once. -/
theorem ready_of_unprotected (w : Octets) (buffered : List (Bytes τ)) (stats : TransactionStats) :
    (prepareTransactions buffered stats (TpuClientPayload.new a w false).intoEncoded true).ready =
        [(TpuClientPayload.new a w false).wireTransaction] ∧
      (prepareTransactions buffered stats (TpuClientPayload.new a w false).intoEncoded
        false).ready = buffered ++ [(TpuClientPayload.new a w false).wireTransaction] := by
  rw [ready_prepareTransactions, ready_prepareTransactions, callRound_new, callRound_new]
  exact ⟨rfl, rfl⟩

/-- A protected payload waits in a blocked slot. -/
theorem buffered_of_protected (w : Octets) (buffered : List (Bytes τ)) (stats : TransactionStats) :
    (prepareTransactions buffered stats (TpuClientPayload.new a w true).intoEncoded true).ready =
        [] ∧
      (prepareTransactions buffered stats (TpuClientPayload.new a w true).intoEncoded
        true).buffered = buffered ++ [(TpuClientPayload.new a w true).wireTransaction] := by
  rw [ready_prepareTransactions, buffered_prepareTransactions, callRound_new]
  exact ⟨rfl, rfl⟩

/-- **End to end.** The encoding of a transaction of admissible size fits, is decoded, and makes
one payload, which is no flush; the broadcaster finds the flag and the transaction in it, hands an
unprotected one over at once, and keeps a protected one unchanged in a blocked slot. Distinct
submissions make distinct payloads. -/
theorem quic_end_to_end {w : Octets} (hw : w.length ≤ MAX_TRANSACTION_SIZE) (m : Bool)
    (r : Option UInt16) :
    (wincode.serialize ⟨w, m, r⟩).length ≤ QUIC_MAX_SIZE ∧
    wincode.deserialize (wincode.serialize ⟨w, m, r⟩) = some ⟨w, m, r⟩ ∧
    ∃ payload, offered (handleUniStream wincode a (.finished (wincode.serialize ⟨w, m, r⟩))) =
        [payload] ∧
      payload.intoEncoded.data ≠ (Bytes.new : Bytes τ).data ∧
      TpuClientPayload.decode payload.intoEncoded = some payload ∧
      payload.isMevProtected = m ∧ payload.wireTransaction.data = w ∧
      (∀ buffered stats, m = false →
        (prepareTransactions buffered stats payload.intoEncoded true).ready =
          [payload.wireTransaction] ∧
        (prepareTransactions buffered stats payload.intoEncoded false).ready =
          buffered ++ [payload.wireTransaction]) ∧
      (∀ buffered stats, m = true →
        (prepareTransactions buffered stats payload.intoEncoded true).ready = [] ∧
        (prepareTransactions buffered stats payload.intoEncoded true).buffered =
          buffered ++ [payload.wireTransaction]) ∧
      ∀ w' m' r' payload', w'.length ≤ MAX_TRANSACTION_SIZE →
        offered (handleUniStream wincode a (.finished (wincode.serialize ⟨w', m', r'⟩))) =
          [payload'] →
        payload'.intoEncoded.data = payload.intoEncoded.data → w' = w ∧ m' = m := by
  have hfits : (wincode.serialize ⟨w, m, r⟩).length ≤ QUIC_MAX_SIZE := by
    rw [wincode.serialize_eq]
    exact length_layout_le hw
  have hdecoded : wincode.deserialize (wincode.serialize ⟨w, m, r⟩) = some ⟨w, m, r⟩ := by
    rw [wincode.serialize_eq] at hfits ⊢
    exact wincode.deserialize_layout _ hfits
  refine ⟨hfits, hdecoded, TpuClientPayload.new a w m, offered_serialize wincode a hw m r,
    (TpuClientPayload.new a w m).encoded_ne_nil, TpuClientPayload.decode_intoEncoded _,
    TpuClientPayload.isMevProtected_new a w m, ?_, ?_, ?_, ?_⟩
  · exact TpuClientPayload.data_wireTransaction_new a w m
  · rintro buffered stats rfl
    exact ready_of_unprotected a w buffered stats
  · rintro buffered stats rfl
    exact buffered_of_protected a w buffered stats
  · intro w' m' r' payload' hw' hoffered hdata
    rw [offered_serialize wincode a hw' m' r', List.singleton_inj] at hoffered
    rw [← hoffered] at hdata
    exact TpuClientPayload.new_injective hdata

/-! ## A library with this layout -/

/-- The reader of a `bool`. -/
def readBool : Reader Bool
  | 0 :: rest => some (false, rest)
  | 1 :: rest => some (true, rest)
  | _ => none

/-- The reader of an `Option<u16>`. -/
def readMaxRetry : Reader (Option UInt16)
  | 0 :: rest => some (none, rest)
  | 1 :: rest => (LittleEndian.read 2 rest).map fun (n, rest) => (some (UInt16.ofNat n), rest)
  | _ => none

/-- The reader of a packet: the fields in order. -/
def readPacket : Reader TransactionPacket := fun data => do
  let (length, data) ← LittleEndian.read 8 data
  let (wireTransaction, data) ← Reader.take length data
  let (mevProtect, data) ← readBool data
  let (maxRetry, data) ← readMaxRetry data
  some ({ wireTransaction, mevProtect, maxRetry }, data)

theorem inverts_readBool : Reader.Inverts readBool fun b => [if b then 1 else 0] := by
  intro data b rest
  unfold readBool
  split
  · cases b <;> simp
  · cases b <;> simp
  · rename_i h0 h1
    cases b <;> simp_all

theorem inverts_readMaxRetry : Reader.Inverts readMaxRetry maxRetryBytes := by
  intro data r rest
  unfold readMaxRetry
  split
  · cases r <;> simp [maxRetryBytes]
  · rename_i data
    simp only [Option.map_eq_some_iff, Prod.exists, LittleEndian.read_eq_some, Prod.mk.injEq]
    cases r with
    | none => simp [maxRetryBytes]
    | some n =>
      simp only [maxRetryBytes, Option.some.injEq, List.cons_append, List.cons.injEq, true_and]
      constructor
      · rintro ⟨v, _, ⟨rfl, hv⟩, rfl, rfl⟩
        have hlow : (UInt16.ofNat v).toNat = v := by
          rw [UInt16.toNat_ofNat']
          omega
        rw [hlow]
      · rintro rfl
        exact ⟨n.toNat, rest, ⟨rfl, n.toNat_lt⟩, UInt16.ofNat_toNat, rfl⟩
  · rename_i h0 h1
    cases r <;> simp_all [maxRetryBytes]

theorem layout_eq (p : TransactionPacket) (rest : Octets) : p.layout ++ rest =
    LittleEndian.encode 8 p.wireTransaction.length ++ (p.wireTransaction ++
      ([if p.mevProtect then 1 else 0] ++ (maxRetryBytes p.maxRetry ++ rest))) := by
  rw [TransactionPacket.layout]
  simp only [List.append_assoc]

/-- **What the reader accepts.** -/
theorem readPacket_eq_some {data rest : Octets} {p : TransactionPacket} :
    readPacket data = some (p, rest) ↔
      data = p.layout ++ rest ∧ p.wireTransaction.length < 2 ^ 64 := by
  simp only [readPacket, Option.bind_eq_bind, Option.bind_eq_some_iff, Prod.exists,
    LittleEndian.read_eq_some, Reader.take_eq_some, inverts_readBool _ _ _,
    inverts_readMaxRetry _ _ _, Option.some.injEq, Prod.mk.injEq, layout_eq]
  constructor
  · rintro ⟨n, d, ⟨rfl, hn⟩, w, d, ⟨rfl, rfl⟩, m, d, rfl, r, d, rfl, rfl, rfl⟩
    exact ⟨rfl, hn⟩
  · rintro ⟨rfl, hlen⟩
    exact ⟨_, _, ⟨rfl, hlen⟩, _, _, ⟨rfl, rfl⟩, _, _, rfl, _, _, rfl, rfl, rfl⟩

/-- A library that reads packets field by field and ignores what is behind them. -/
def Wincode.standard : Wincode where
  serialize := TransactionPacket.layout
  deserialize := fun data => (readPacket data).map Prod.fst
  serialize_eq := fun _ => rfl
  deserialize_layout := by
    intro p hp
    have hlen : p.wireTransaction.length < 2 ^ 64 := by
      rw [length_layout, QUIC_MAX_SIZE, MAX_TRANSACTION_SIZE] at hp
      omega
    have hread : readPacket p.layout = some (p, []) :=
      readPacket_eq_some.mpr ⟨(List.append_nil _).symm, hlen⟩
    rw [hread]
    rfl
  layout_prefix := by
    intro data p h
    obtain ⟨⟨q, rest⟩, hread, rfl⟩ := Option.map_eq_some_iff.mp h
    obtain ⟨hdata, hlen⟩ := readPacket_eq_some.mp hread
    exact ⟨hlen, rest, hdata⟩

theorem quic_end_to_end_standard :
    Wincode.standard.deserialize (Wincode.standard.serialize ⟨[1, 2, 3], true, some 3⟩) =
      some ⟨[1, 2, 3], true, some 3⟩ :=
  (quic_end_to_end Wincode.standard () (w := [1, 2, 3]) (by decide) true (some 3)).2.1

end Iris
