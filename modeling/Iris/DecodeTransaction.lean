import Iris.Basic
import Iris.Lib.Base58
import Iris.Lib.Base64

/-!
# Decoding a submitted transaction

`decode_transaction` bounds the length of the text before decoding it. A base64 text is allowed
to be long if its first two characters are not below `gQ`, which is where the encodings of bytes
that begin with `V1_PREFIX` start.

* `decodeTransaction`: the code; `CodecErrors`: how the codecs describe their errors;
* **`hasV1Prefix_encode`**: the test on the text is a test on the first byte;
* `decodeTransaction_base64`, `decodeTransaction_base58`: decoding an encoding;
* `length_le_of_decodeTransaction`: no decoded transaction is too long.
-/

namespace Iris

def PACKET_DATA_SIZE : ℕ := 1232

def MAX_TRANSACTION_SIZE : ℕ := 4096

def V1_PREFIX : UInt8 := 0x81

def MAX_BASE58_SIZE : ℕ := 1683

def MAX_BASE64_SIZE : ℕ := 5464

def MAX_BASE64_LEGACY_SIZE : ℕ := 1644

/-- `b"gQ"`. -/
def V1_BASE64_PREFIX_LOWER_BOUND : Text := [103, 81]

inductive TransactionBinaryEncoding
  | Base58
  | Base64
deriving DecidableEq, Repr

/-- An `ErrorObjectOwned` without data. -/
structure ErrorObject where
  code : ℤ
  message : String
deriving DecidableEq, Repr

def INVALID_PARAMS_CODE : ℤ := -32602

def invalidRequest (reason : String) : ErrorObject :=
  ⟨INVALID_PARAMS_CODE, "Invalid Request: " ++ reason⟩

/-- The texts of the codecs' errors, as `{e:?}` prints them. -/
structure CodecErrors where
  base58 : Text → String
  base64 : Text → String

variable (errors : CodecErrors)

/-- Is the text long enough to have a prefix, and is the prefix not below the bound? -/
def hasV1Prefix (encoded : Text) : Bool :=
  decide (2 ≤ encoded.length) && decide (V1_BASE64_PREFIX_LOWER_BOUND ≤ encoded.take 2)

/-- The greatest lengths of a base64 text and of the bytes it encodes. -/
def base64Limits (encoded : Text) : ℕ × ℕ :=
  if hasV1Prefix encoded then (MAX_BASE64_SIZE, MAX_TRANSACTION_SIZE)
  else (MAX_BASE64_LEGACY_SIZE, PACKET_DATA_SIZE)

/-- The decoded bytes, with the greatest length allowed for them. -/
def decodeWireOutput (encoded : Text) : TransactionBinaryEncoding → Except ErrorObject (Octets × ℕ)
  | .Base58 =>
    if encoded.length > MAX_BASE58_SIZE then
      .error (invalidRequest s!"base58 encoded transaction too large: bytes (max: encoded/raw {MAX_BASE58_SIZE}/{PACKET_DATA_SIZE})")
    else
      match Base58.decode encoded with
      | some bytes => .ok (bytes, PACKET_DATA_SIZE)
      | none => .error (invalidRequest ("invalid base58 encoding: " ++ errors.base58 encoded))
  | .Base64 =>
    let (maxEncodedSize, maxRawSize) := base64Limits encoded
    if encoded.length > maxEncodedSize then
      .error (invalidRequest s!"base64 encoded transaction too large: bytes (max: encoded/raw {maxEncodedSize}/{maxRawSize})")
    else
      match Base64.decode encoded with
      | some bytes => .ok (bytes, maxRawSize)
      | none => .error (invalidRequest ("invalid base64 encoding: " ++ errors.base64 encoded))

/-- `decode_transaction`. -/
def decodeTransaction (encoded : Text) (encoding : TransactionBinaryEncoding) :
    Except ErrorObject Octets := do
  let (wireOutput, maxRawSize) ← decodeWireOutput errors encoded encoding
  let size := wireOutput.length
  if size > maxRawSize then
    .error (invalidRequest s!"decoded transaction too large: {size} bytes (max: {maxRawSize} bytes)")
  else
    .ok wireOutput

section Spec

variable {errors}

theorem decodeWireOutput_base58_eq_ok {encoded : Text} {p : Octets × ℕ} :
    decodeWireOutput errors encoded .Base58 = .ok p ↔ encoded.length ≤ MAX_BASE58_SIZE ∧
      ∃ w, Base58.decode encoded = some w ∧ p = (w, PACKET_DATA_SIZE) := by
  simp only [decodeWireOutput]
  split_ifs with hlen
  · simp [Nat.not_le.mpr hlen]
  · cases Base58.decode encoded <;> simp [Nat.not_lt.mp hlen, eq_comm]

theorem decodeWireOutput_base64_eq_ok {encoded : Text} {p : Octets × ℕ} :
    decodeWireOutput errors encoded .Base64 = .ok p ↔ encoded.length ≤ (base64Limits encoded).1 ∧
      ∃ w, Base64.decode encoded = some w ∧ p = (w, (base64Limits encoded).2) := by
  simp only [decodeWireOutput]
  split_ifs with hlen
  · simp [Nat.not_le.mpr hlen]
  · cases Base64.decode encoded <;> simp [Nat.not_lt.mp hlen, eq_comm]

theorem decodeTransaction_eq_ok {encoded : Text} {encoding : TransactionBinaryEncoding}
    {w : Octets} : decodeTransaction errors encoded encoding = .ok w ↔
      ∃ maxRawSize, decodeWireOutput errors encoded encoding = .ok (w, maxRawSize) ∧
        w.length ≤ maxRawSize := by
  unfold decodeTransaction
  cases hwire : decodeWireOutput errors encoded encoding with
  | error e => simp [bind, Except.bind]
  | ok p =>
    obtain ⟨v, maxRawSize⟩ := p
    by_cases hv : v.length > maxRawSize
    · simp only [bind, Except.bind, if_pos hv, Except.ok.injEq, Prod.mk.injEq, false_iff,
        reduceCtorEq]
      rintro ⟨_, ⟨rfl, rfl⟩, hw⟩
      omega
    · simp only [bind, Except.bind, if_neg hv, Except.ok.injEq, Prod.mk.injEq]
      constructor
      · rintro rfl
        exact ⟨maxRawSize, ⟨rfl, rfl⟩, by omega⟩
      · rintro ⟨_, ⟨rfl, rfl⟩, -⟩
        rfl

theorem base64Limits_snd_le (encoded : Text) : (base64Limits encoded).2 ≤ MAX_TRANSACTION_SIZE := by
  unfold base64Limits
  split_ifs <;> decide

/-- **No decoded transaction is too long.** -/
theorem length_le_of_decodeTransaction {encoded : Text} {encoding : TransactionBinaryEncoding}
    {w : Octets} (h : decodeTransaction errors encoded encoding = .ok w) :
    w.length ≤ MAX_TRANSACTION_SIZE := by
  obtain ⟨maxRawSize, hwire, hw⟩ := decodeTransaction_eq_ok.mp h
  cases encoding with
  | Base58 =>
    obtain ⟨-, v, -, hv⟩ := decodeWireOutput_base58_eq_ok.mp hwire
    cases hv
    exact hw.trans (by decide)
  | Base64 =>
    obtain ⟨-, v, -, hv⟩ := decodeWireOutput_base64_eq_ok.mp hwire
    cases hv
    exact hw.trans (base64Limits_snd_le encoded)

end Spec

/-! ## Encodings of byte strings -/

/-- Up to `V1_PREFIX`, only the encodings of strings that begin with it are not below the
bound: `g` encodes 32 and `Q` encodes 16. -/
theorem bound_le_encodeDigit : ∀ a < 130, ∀ x < 16,
    (V1_BASE64_PREFIX_LOWER_BOUND ≤
      [Base64.encodeDigit (a / 4), Base64.encodeDigit (a % 4 * 16 + x)] ↔ a = 129) := by
  decide +kernel

/-- **The prefix test on an encoding** is a test on the first byte. -/
theorem hasV1Prefix_encode {w : Octets} (hw : ∀ b ∈ w.head?, b ≤ V1_PREFIX) :
    hasV1Prefix (Base64.encode w) = decide (w.head? = some V1_PREFIX) := by
  cases w with
  | nil => rfl
  | cons a w =>
    have ha : a.toNat < 130 := by
      have hle := UInt8.le_iff_toNat_le.mp (hw a rfl)
      have hv1 : V1_PREFIX.toNat = 129 := rfl
      omega
    obtain ⟨x, hx, rest, henc⟩ := Base64.encode_cons a w
    have hlen : 2 ≤ (Base64.encode (a :: w)).length := by
      rw [henc, List.length_cons, List.length_cons]
      omega
    have hiff := bound_le_encodeDigit a.toNat ha x hx
    have hfirst : a.toNat = 129 ↔ a = V1_PREFIX := by
      rw [← UInt8.toNat_inj]
      rfl
    rw [hasV1Prefix, decide_eq_true hlen, Bool.true_and, henc]
    simp only [List.take_succ_cons, List.take_zero, hiff, hfirst, List.head?_cons,
      Option.some.injEq]

/-- The greatest length of a transaction that begins like `w`. -/
def maxRawSizeOf (w : Octets) : ℕ :=
  if w.head? = some V1_PREFIX then MAX_TRANSACTION_SIZE else PACKET_DATA_SIZE

/-- A text that decodes to `w` is accepted if `w` is not too long, and only then. -/
theorem decodeTransaction_of_wire {encoded : Text} {encoding : TransactionBinaryEncoding}
    {w : Octets} {maxRawSize : ℕ} (maxEncodedSize : ℕ)
    (hwire : ∀ p, decodeWireOutput errors encoded encoding = .ok p ↔
      encoded.length ≤ maxEncodedSize ∧ p = (w, maxRawSize))
    (hfits : w.length ≤ maxRawSize → encoded.length ≤ maxEncodedSize) :
    (w.length ≤ maxRawSize → decodeTransaction errors encoded encoding = .ok w) ∧
      (¬ w.length ≤ maxRawSize → ∃ e, decodeTransaction errors encoded encoding = .error e) := by
  refine ⟨fun hw => ?_, fun hw => ?_⟩
  · exact decodeTransaction_eq_ok.mpr ⟨maxRawSize, (hwire _).mpr ⟨hfits hw, rfl⟩, hw⟩
  · cases h : decodeTransaction errors encoded encoding with
    | error e => exact ⟨e, rfl⟩
    | ok v =>
      obtain ⟨n, hv, hle⟩ := decodeTransaction_eq_ok.mp h
      obtain ⟨-, heq⟩ := (hwire _).mp hv
      cases heq
      exact absurd hle hw

/-- **Decoding base64.** -/
theorem decodeTransaction_base64 {w : Octets} (hw : ∀ b ∈ w.head?, b ≤ V1_PREFIX) :
    (w.length ≤ maxRawSizeOf w → decodeTransaction errors (Base64.encode w) .Base64 = .ok w) ∧
      (¬ w.length ≤ maxRawSizeOf w →
        ∃ e, decodeTransaction errors (Base64.encode w) .Base64 = .error e) := by
  have hlimits : base64Limits (Base64.encode w) =
      ((maxRawSizeOf w + 2) / 3 * 4, maxRawSizeOf w) := by
    rw [base64Limits, hasV1Prefix_encode hw, maxRawSizeOf]
    by_cases hv1 : w.head? = some V1_PREFIX <;> simp [hv1] <;> decide
  apply decodeTransaction_of_wire errors ((maxRawSizeOf w + 2) / 3 * 4)
  · intro p
    rw [decodeWireOutput_base64_eq_ok, hlimits, Base64.decode_encode]
    simp
  · intro hle
    rw [Base64.length_encode]
    omega

/-- **Decoding base58.** -/
theorem decodeTransaction_base58 (w : Octets) :
    (w.length ≤ PACKET_DATA_SIZE →
      decodeTransaction errors (Base58.encode w) .Base58 = .ok w) ∧
      (¬ w.length ≤ PACKET_DATA_SIZE →
        ∃ e, decodeTransaction errors (Base58.encode w) .Base58 = .error e) := by
  have hpow : 256 ^ PACKET_DATA_SIZE ≤ 58 ^ MAX_BASE58_SIZE := by decide +kernel
  apply decodeTransaction_of_wire errors MAX_BASE58_SIZE
  · intro p
    rw [decodeWireOutput_base58_eq_ok, Base58.decode_encode]
    simp
  · exact Base58.length_encode_le (by decide) hpow

end Iris
