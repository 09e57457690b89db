import Mathlib.Data.List.Basic
import Mathlib.Tactic.Common

/-!
# Base64

The standard alphabet with canonical padding: the last quantum is padded to four characters, and
the bits that the padding cuts off are zero. Texts are lists of ASCII codes.

* `encode`, `decode`; **`decode_encode`**, **`decode_eq_some`**: they are inverse to each other;
* `length_encode`; `encode_cons`, `encode_cons_eq`: the first two characters of an encoding.
-/

namespace Base64

def alphabet : List UInt8 :=
  "ABCDEFGHIJKLMNOPQRSTUVWXYZabcdefghijklmnopqrstuvwxyz0123456789+/".toList.map fun c =>
    c.toNat.toUInt8

def encodeDigit (d : ℕ) : UInt8 := alphabet.getD d 0

def decodeDigit (c : UInt8) : Option ℕ := alphabet.idxOf? c

/-- The character `=`. -/
def pad : UInt8 := 61

/-- The text of some bytes. -/
def encode : List UInt8 → List UInt8
  | [] => []
  | [a] => [encodeDigit (a.toNat / 4), encodeDigit (a.toNat % 4 * 16), pad, pad]
  | [a, b] =>
    [encodeDigit (a.toNat / 4), encodeDigit (a.toNat % 4 * 16 + b.toNat / 16),
      encodeDigit (b.toNat % 16 * 4), pad]
  | a :: b :: c :: rest =>
    encodeDigit (a.toNat / 4) :: encodeDigit (a.toNat % 4 * 16 + b.toNat / 16) ::
      encodeDigit (b.toNat % 16 * 4 + c.toNat / 64) :: encodeDigit (c.toNat % 64) :: encode rest

/-- A quantum without padding. -/
def decodeQuantum (c₀ c₁ c₂ c₃ : UInt8) : Option (List UInt8) := do
  let d₀ ← decodeDigit c₀
  let d₁ ← decodeDigit c₁
  let d₂ ← decodeDigit c₂
  let d₃ ← decodeDigit c₃
  return [(d₀ * 4 + d₁ / 16).toUInt8, (d₁ % 16 * 16 + d₂ / 4).toUInt8, (d₂ % 4 * 64 + d₃).toUInt8]

/-- The last quantum; the bits cut off by the padding must be zero. -/
def decodeLast (c₀ c₁ c₂ c₃ : UInt8) : Option (List UInt8) :=
  if c₃ = pad then do
    let d₀ ← decodeDigit c₀
    let d₁ ← decodeDigit c₁
    if c₂ = pad then
      if d₁ % 16 = 0 then return [(d₀ * 4 + d₁ / 16).toUInt8] else none
    else
      let d₂ ← decodeDigit c₂
      if d₂ % 4 = 0 then
        return [(d₀ * 4 + d₁ / 16).toUInt8, (d₁ % 16 * 16 + d₂ / 4).toUInt8]
      else none
  else decodeQuantum c₀ c₁ c₂ c₃

/-- The bytes of a text. -/
def decode : List UInt8 → Option (List UInt8)
  | [] => some []
  | c₀ :: c₁ :: c₂ :: c₃ :: rest =>
    if rest.isEmpty then decodeLast c₀ c₁ c₂ c₃
    else do
      let quantum ← decodeQuantum c₀ c₁ c₂ c₃
      let bytes ← decode rest
      return quantum ++ bytes
  | _ => none

theorem decodeDigit_encodeDigit : ∀ d < 64, decodeDigit (encodeDigit d) = some d := by decide

theorem encodeDigit_ne_pad : ∀ d < 64, encodeDigit d ≠ pad := by decide

theorem toUInt8_eq {n : ℕ} {a : UInt8} (h : n = a.toNat) : n.toUInt8 = a := by
  rw [h]
  exact UInt8.ofNat_toNat

/-! ## Decoding what was encoded -/

section Quantum

variable (a b c : UInt8)

theorem decodeQuantum_encode :
    decodeQuantum (encodeDigit (a.toNat / 4)) (encodeDigit (a.toNat % 4 * 16 + b.toNat / 16))
      (encodeDigit (b.toNat % 16 * 4 + c.toNat / 64)) (encodeDigit (c.toNat % 64)) =
        some [a, b, c] := by
  have ha := a.toNat_lt
  have hb := b.toNat_lt
  have hc := c.toNat_lt
  unfold decodeQuantum
  rw [decodeDigit_encodeDigit _ (by omega), decodeDigit_encodeDigit _ (by omega),
    decodeDigit_encodeDigit _ (by omega), decodeDigit_encodeDigit _ (by omega)]
  change some [_, _, _] = _
  rw [toUInt8_eq (a := a) (by omega), toUInt8_eq (a := b) (by omega), toUInt8_eq (a := c) (by omega)]

theorem decodeLast_encode_three :
    decodeLast (encodeDigit (a.toNat / 4)) (encodeDigit (a.toNat % 4 * 16 + b.toNat / 16))
      (encodeDigit (b.toNat % 16 * 4 + c.toNat / 64)) (encodeDigit (c.toNat % 64)) =
        some [a, b, c] := by
  rw [decodeLast, if_neg (encodeDigit_ne_pad _ (Nat.mod_lt _ (by omega))), decodeQuantum_encode]

theorem decodeLast_encode_two :
    decodeLast (encodeDigit (a.toNat / 4)) (encodeDigit (a.toNat % 4 * 16 + b.toNat / 16))
      (encodeDigit (b.toNat % 16 * 4)) pad = some [a, b] := by
  have ha := a.toNat_lt
  have hb := b.toNat_lt
  unfold decodeLast
  rw [if_pos rfl, decodeDigit_encodeDigit _ (by omega), decodeDigit_encodeDigit _ (by omega),
    decodeDigit_encodeDigit _ (by omega)]
  change (if _ = pad then _ else if _ then some [_, _] else none) = _
  rw [if_neg (encodeDigit_ne_pad _ (by omega)), if_pos (by omega), toUInt8_eq (a := a) (by omega),
    toUInt8_eq (a := b) (by omega)]

theorem decodeLast_encode_one :
    decodeLast (encodeDigit (a.toNat / 4)) (encodeDigit (a.toNat % 4 * 16)) pad pad =
      some [a] := by
  have ha := a.toNat_lt
  unfold decodeLast
  rw [if_pos rfl, decodeDigit_encodeDigit _ (by omega), decodeDigit_encodeDigit _ (by omega)]
  simp only [Option.bind_eq_bind, Option.bind_some, if_true]
  rw [if_pos (by omega), toUInt8_eq (a := a) (by omega)]
  rfl

end Quantum

theorem encode_eq_nil {w : List UInt8} : encode w = [] ↔ w = [] := by
  constructor
  · intro h
    match w with
    | [] => rfl
    | [_] => cases h
    | [_, _] => cases h
    | _ :: _ :: _ :: _ => cases h
  · rintro rfl
    rfl

/-- **Decoding what was encoded.** -/
theorem decode_encode : ∀ w : List UInt8, decode (encode w) = some w
  | [] => rfl
  | [a] => decodeLast_encode_one a
  | [a, b] => decodeLast_encode_two a b
  | a :: b :: c :: rest => by
    rw [encode, decode]
    by_cases hrest : rest = []
    · rw [if_pos (List.isEmpty_iff.mpr (encode_eq_nil.mpr hrest)), decodeLast_encode_three, hrest]
    · rw [if_neg (fun h => hrest (encode_eq_nil.mp (List.isEmpty_iff.mp h))), decodeQuantum_encode,
        decode_encode rest]
      rfl

theorem length_encode : ∀ w : List UInt8, (encode w).length = (w.length + 2) / 3 * 4
  | [] => rfl
  | [_] => by simp [encode]
  | [_, _] => by simp [encode]
  | a :: b :: c :: rest => by
    have ih := length_encode rest
    simp only [encode, List.length_cons]
    omega

/-- The first two characters: the first byte, and the high bits of the second one. -/
theorem encode_cons (a : UInt8) (w : List UInt8) : ∃ x < 16, ∃ rest, encode (a :: w) =
    encodeDigit (a.toNat / 4) :: encodeDigit (a.toNat % 4 * 16 + x) :: rest := by
  match w with
  | [] => exact ⟨0, by omega, _, rfl⟩
  | [b] => exact ⟨b.toNat / 16, by have := b.toNat_lt; omega, _, rfl⟩
  | b :: c :: rest => exact ⟨b.toNat / 16, by have := b.toNat_lt; omega, _, rfl⟩

theorem encode_cons_eq (a : UInt8) (w : List UInt8) : ∃ rest, encode (a :: w) =
    encodeDigit (a.toNat / 4) ::
      encodeDigit (a.toNat % 4 * 16 + (w.headD 0).toNat / 16) :: rest := by
  match w with
  | [] => exact ⟨_, rfl⟩
  | [b] => exact ⟨_, rfl⟩
  | b :: c :: rest => exact ⟨_, rfl⟩

/-! ## Texts that decode -/

theorem encodeDigit_of_decodeDigit {c : UInt8} {d : ℕ} (h : decodeDigit c = some d) :
    d < 64 ∧ encodeDigit d = c := by
  obtain ⟨hd, hc, -⟩ := List.idxOf?_eq_some_iff.mp h
  have hlen : alphabet.length = 64 := by decide
  refine ⟨hlen ▸ hd, ?_⟩
  rw [encodeDigit, List.getD_eq_getElem?_getD, List.getElem?_eq_getElem hd, hc]
  rfl

theorem toNat_toUInt8 {n : ℕ} (h : n < 256) : n.toUInt8.toNat = n := UInt8.toNat_ofNat_of_lt' h

theorem encode_of_decodeQuantum {c₀ c₁ c₂ c₃ : UInt8} {quantum : List UInt8}
    (h : decodeQuantum c₀ c₁ c₂ c₃ = some quantum) (bytes : List UInt8) :
    encode (quantum ++ bytes) = c₀ :: c₁ :: c₂ :: c₃ :: encode bytes := by
  simp only [decodeQuantum, Option.bind_eq_bind, Option.bind_eq_some_iff] at h
  obtain ⟨d₀, h₀, d₁, h₁, d₂, h₂, d₃, h₃, hpure⟩ := h
  cases hpure
  obtain ⟨hlt₀, rfl⟩ := encodeDigit_of_decodeDigit h₀
  obtain ⟨hlt₁, rfl⟩ := encodeDigit_of_decodeDigit h₁
  obtain ⟨hlt₂, rfl⟩ := encodeDigit_of_decodeDigit h₂
  obtain ⟨hlt₃, rfl⟩ := encodeDigit_of_decodeDigit h₃
  have hd₀ : (d₀ * 4 + d₁ / 16) / 4 = d₀ := by omega
  have hd₁ : (d₀ * 4 + d₁ / 16) % 4 * 16 + (d₁ % 16 * 16 + d₂ / 4) / 16 = d₁ := by omega
  have hd₂ : (d₁ % 16 * 16 + d₂ / 4) % 16 * 4 + (d₂ % 4 * 64 + d₃) / 64 = d₂ := by omega
  have hd₃ : (d₂ % 4 * 64 + d₃) % 64 = d₃ := by omega
  rw [List.cons_append, List.cons_append, List.cons_append, List.nil_append, encode,
    toNat_toUInt8 (by omega), toNat_toUInt8 (by omega), toNat_toUInt8 (by omega), hd₀, hd₁, hd₂,
    hd₃]

theorem encode_of_decodeLast {c₀ c₁ c₂ c₃ : UInt8} {bytes : List UInt8}
    (h : decodeLast c₀ c₁ c₂ c₃ = some bytes) : encode bytes = [c₀, c₁, c₂, c₃] := by
  by_cases hpad : c₃ = pad
  · rw [decodeLast, if_pos hpad] at h
    simp only [Option.bind_eq_bind, Option.bind_eq_some_iff] at h
    obtain ⟨d₀, h₀, d₁, h₁, h⟩ := h
    obtain ⟨hlt₀, rfl⟩ := encodeDigit_of_decodeDigit h₀
    obtain ⟨hlt₁, rfl⟩ := encodeDigit_of_decodeDigit h₁
    by_cases hpad₂ : c₂ = pad
    · rw [if_pos hpad₂] at h
      split_ifs at h with hzero
      cases h
      -- the bits that the padding cuts off were zero
      have hd₀ : (d₀ * 4 + d₁ / 16) / 4 = d₀ := by omega
      have hd₁ : (d₀ * 4 + d₁ / 16) % 4 * 16 = d₁ := by omega
      rw [encode, toNat_toUInt8 (by omega), hpad, hpad₂, hd₀, hd₁]
    · rw [if_neg hpad₂] at h
      obtain ⟨d₂, h₂, hbytes⟩ := Option.bind_eq_some_iff.mp h
      obtain ⟨hlt₂, rfl⟩ := encodeDigit_of_decodeDigit h₂
      split_ifs at hbytes with hzero
      cases hbytes
      have hd₀ : (d₀ * 4 + d₁ / 16) / 4 = d₀ := by omega
      have hd₁ : (d₀ * 4 + d₁ / 16) % 4 * 16 + (d₁ % 16 * 16 + d₂ / 4) / 16 = d₁ := by omega
      have hd₂ : (d₁ % 16 * 16 + d₂ / 4) % 16 * 4 = d₂ := by omega
      rw [encode, toNat_toUInt8 (by omega), toNat_toUInt8 (by omega), hpad, hd₀, hd₁, hd₂]
  · rw [decodeLast, if_neg hpad] at h
    have hquantum := encode_of_decodeQuantum h []
    rwa [List.append_nil] at hquantum

theorem encode_of_decode : ∀ {text bytes : List UInt8}, decode text = some bytes →
    encode bytes = text
  | [], bytes, h => by
    cases h
    rfl
  | c₀ :: c₁ :: c₂ :: c₃ :: rest, bytes, h => by
    rw [decode] at h
    split_ifs at h with hrest
    · rw [List.isEmpty_iff.mp hrest]
      exact encode_of_decodeLast h
    · simp only [Option.bind_eq_bind, Option.bind_eq_some_iff] at h
      obtain ⟨quantum, hquantum, bytes', hbytes', hpure⟩ := h
      cases hpure
      rw [encode_of_decodeQuantum hquantum, encode_of_decode hbytes']
  | [_], _, h | [_, _], _, h | [_, _, _], _, h => by cases h

/-- **A text that decodes** is the encoding of its bytes. -/
theorem decode_eq_some {text bytes : List UInt8} :
    decode text = some bytes ↔ text = encode bytes := by
  constructor
  · intro h
    exact (encode_of_decode h).symm
  · rintro rfl
    exact decode_encode bytes

example : encode [77, 97, 110, 33] = "TWFuIQ==".toList.map fun c => c.toNat.toUInt8 := by decide

end Base64
