import Iris.RpcServer

/-!
# The texts that are accepted

A text is accepted for one transaction at most, and each transaction has one text in either
encoding. How long a transaction may be in base64 is decided by its first byte, or by its first
two: the bound `gQ` on the text admits more than the encodings of `V1_PREFIX`.

* `mayBeLong`, **`hasV1Prefix_encode_eq`**: the prefix test, for every byte string;
* **`decodeTransaction_base58_iff`**, **`decodeTransaction_base64_iff`**: what is decoded;
* **`sendTransaction_ok_iff`**: what is accepted.
-/

namespace Iris

variable {ε τ : Type}

/-- Whether the base64 text of the transaction passes the prefix test. -/
def mayBeLong : Octets → Bool
  | [] => false
  | a :: rest => decide (0x81 ≤ a ∧ a ≤ 0xCF) && !(a == 0x83 && decide (0x40 ≤ rest.headD 0))

/-- The encodings of a first byte and of the high bits of the second that are not below `gQ`. The
letters of either case stand above `g` or `Q`, the digits and the signs below. -/
theorem bound_le_iff : ∀ a < 256, ∀ x < 16,
    (V1_BASE64_PREFIX_LOWER_BOUND ≤
      [Base64.encodeDigit (a / 4), Base64.encodeDigit (a % 4 * 16 + x)] ↔
        (129 ≤ a ∧ a ≤ 207) ∧ ¬ (a = 131 ∧ 4 ≤ x)) := by
  decide +kernel

/-- **The prefix test on an encoding**, whatever the bytes. -/
theorem hasV1Prefix_encode_eq (w : Octets) : hasV1Prefix (Base64.encode w) = mayBeLong w := by
  cases w with
  | nil => rfl
  | cons a w =>
    obtain ⟨rest, henc⟩ := Base64.encode_cons_eq a w
    have hlen : 2 ≤ (Base64.encode (a :: w)).length := by
      rw [henc, List.length_cons, List.length_cons]
      omega
    have hb := (w.headD 0).toNat_lt
    have hiff := bound_le_iff a.toNat a.toNat_lt ((w.headD 0).toNat / 16) (by omega)
    rw [hasV1Prefix, decide_eq_true hlen, Bool.true_and, henc, mayBeLong]
    simp only [List.take_succ_cons, List.take_zero, hiff]
    rw [Bool.eq_iff_iff]
    simp only [Bool.and_eq_true, decide_eq_true_eq, Bool.not_eq_true', Bool.and_eq_false_iff,
      beq_eq_false_iff_ne, decide_eq_false_iff_not, UInt8.le_iff_toNat_le, ← UInt8.toNat_inj, ne_eq]
    have h81 : (0x81 : UInt8).toNat = 129 := rfl
    have hcf : (0xCF : UInt8).toNat = 207 := rfl
    have h83 : (0x83 : UInt8).toNat = 131 := rfl
    have h40 : (0x40 : UInt8).toNat = 64 := rfl
    rw [h81, hcf, h83, h40]
    omega

/-- The greatest length of a transaction submitted in base64. -/
def base64Limit (w : Octets) : ℕ := if mayBeLong w then MAX_TRANSACTION_SIZE else PACKET_DATA_SIZE

variable {errors : CodecErrors}

/-- **Base58.** -/
theorem decodeTransaction_base58_iff {text w : Octets} :
    decodeTransaction errors text .Base58 = .ok w ↔
      text = Base58.encode w ∧ w.length ≤ PACKET_DATA_SIZE := by
  rw [decodeTransaction_eq_ok]
  simp only [decodeWireOutput_base58_eq_ok, Base58.decode_eq_some, Prod.mk.injEq]
  constructor
  · rintro ⟨_, ⟨-, _, htext, rfl, rfl⟩, hw⟩
    exact ⟨htext, hw⟩
  · rintro ⟨rfl, hw⟩
    have hpow : 256 ^ PACKET_DATA_SIZE ≤ 58 ^ MAX_BASE58_SIZE := by decide +kernel
    exact ⟨_, ⟨Base58.length_encode_le (by decide) hpow hw, w, rfl, rfl, rfl⟩, hw⟩

/-- **Base64.** -/
theorem decodeTransaction_base64_iff {text w : Octets} :
    decodeTransaction errors text .Base64 = .ok w ↔
      text = Base64.encode w ∧ w.length ≤ base64Limit w := by
  have hlimits : base64Limits (Base64.encode w) =
      ((base64Limit w + 2) / 3 * 4, base64Limit w) := by
    rw [base64Limits, hasV1Prefix_encode_eq, base64Limit]
    cases mayBeLong w <;> rfl
  rw [decodeTransaction_eq_ok]
  simp only [decodeWireOutput_base64_eq_ok, Base64.decode_eq_some, Prod.mk.injEq]
  constructor
  · rintro ⟨_, ⟨-, _, rfl, rfl, rfl⟩, hw⟩
    rw [hlimits] at hw
    exact ⟨rfl, hw⟩
  · rintro ⟨rfl, hw⟩
    rw [hlimits]
    refine ⟨_, ⟨?_, w, rfl, rfl, rfl⟩, hw⟩
    rw [Base64.length_encode]
    omega

/-- The text of a transaction, and how long the transaction may be. -/
inductive TextOf (w : Octets) : TransactionBinaryEncoding → Text → Prop
  | base58 (hw : w.length ≤ 1232) : TextOf w .Base58 (Base58.encode w)
  | base64 (hw : w.length ≤ if mayBeLong w then 4096 else 1232) :
      TextOf w .Base64 (Base64.encode w)

theorem decodeTransaction_iff {encoding : TransactionBinaryEncoding} {text : Text} {w : Octets} :
    decodeTransaction errors text encoding = .ok w ↔ TextOf w encoding text := by
  cases encoding with
  | Base58 =>
    rw [decodeTransaction_base58_iff]
    constructor
    · rintro ⟨rfl, hw⟩
      exact .base58 hw
    · intro h
      cases h with
      | base58 hw => exact ⟨rfl, hw⟩
  | Base64 =>
    rw [decodeTransaction_base64_iff]
    constructor
    · rintro ⟨rfl, hw⟩
      exact .base64 hw
    · intro h
      cases h with
      | base64 hw => exact ⟨rfl, hw⟩

/-- **The requests that are accepted.** A request succeeds exactly if its text is the text of a
transaction, in the encoding it asks for and no longer than this encoding allows, in which the
parser finds a signature. The transaction is then what is forwarded, and its first signature is
the reply. -/
theorem sendTransaction_ok_iff (env : RpcEnv ε) (a : τ) (txn : Text)
    (params : Option (RpcSendTransactionConfig ε)) (mevProtect : Option Bool)
    (actions : List (IngressAction τ)) (reply : Text) :
    sendTransaction env a txn params mevProtect = (actions, .ok reply) ↔
      ∃ w encoding signature signatures,
        env.intoBinaryEncoding (requestEncoding env params) = some encoding ∧
        TextOf w encoding txn ∧ env.tryNewUnsanitized w = some (signature :: signatures) ∧
        actions = [.recordJsonRpcReceived (mevProtect.getD false),
          .sendTransaction (TpuClientPayload.new a w (mevProtect.getD false))] ∧
        reply = Base58.encode signature := by
  constructor
  · intro h
    rcases sendTransaction_cases env a txn params mevProtect with ⟨e, he⟩ |
      ⟨w, signature, ⟨encoding, signatures, henc, hdec, hparse, hsig⟩, hw⟩
    · rw [he] at h
      cases h
    · rw [hw] at h
      cases h
      obtain ⟨rest, rfl⟩ := List.head?_eq_some_iff.mp hsig
      exact ⟨w, encoding, signature, rest, henc, decodeTransaction_iff.mp hdec, hparse, rfl, rfl⟩
  · rintro ⟨w, encoding, signature, signatures, henc, htext, hparse, rfl, rfl⟩
    simp only [sendTransaction, henc, decodeTransaction_iff.mpr htext, hparse, List.head?_cons]

/-- A long transaction that begins with a byte above `V1_PREFIX` is decoded too. -/
example : mayBeLong [0x84, 0xFF] = true ∧ mayBeLong [0x83, 0x40] = false ∧
    mayBeLong [0xD0] = false := by
  decide

end Iris
