import Iris.Lib.Radix

/-!
# Base58

The Bitcoin alphabet. The bytes are read as a base-256 numeral and written in base 58, a leading
zero byte becoming a leading `1`. Texts are lists of ASCII codes.

* `encode`, `decode`; **`decode_encode`**, **`decode_eq_some`**: they are inverse to each other;
* **`length_encode_le`**: the length of an encoding.
-/

namespace Base58

/-- The alphabet, without `0`, `O`, `I` and `l`. -/
def alphabet : List UInt8 :=
  "123456789ABCDEFGHJKLMNPQRSTUVWXYZabcdefghijkmnopqrstuvwxyz".toList.map fun c => c.toNat.toUInt8

def encodeDigit (d : ℕ) : UInt8 := alphabet.getD d 0

def decodeDigit (c : UInt8) : Option ℕ := alphabet.idxOf? c

/-- The text of some bytes. -/
def encode (bytes : List UInt8) : List UInt8 :=
  (Radix.rebase 256 58 (bytes.map UInt8.toNat)).map encodeDigit

/-- The bytes of a text, if all its characters are in the alphabet. -/
def decode (text : List UInt8) : Option (List UInt8) :=
  (text.mapM decodeDigit).map fun ds => (Radix.rebase 58 256 ds).map Nat.toUInt8

theorem decodeDigit_encodeDigit : ∀ d < 58, decodeDigit (encodeDigit d) = some d := by decide

theorem mapM_decodeDigit : ∀ {ds : List ℕ}, (∀ d ∈ ds, d < 58) →
    (ds.map encodeDigit).mapM decodeDigit = some ds
  | [], _ => rfl
  | d :: ds, h => by
    have hd := decodeDigit_encodeDigit d (h d List.mem_cons_self)
    have hds := mapM_decodeDigit fun x hx => h x (List.mem_cons_of_mem _ hx)
    rw [List.map_cons, List.mapM_cons, hd, hds]
    rfl

theorem toNat_lt_of_mem_map (bytes : List UInt8) : ∀ d ∈ bytes.map UInt8.toNat, d < 256 := by
  intro d hd
  obtain ⟨b, -, rfl⟩ := List.mem_map.mp hd
  exact b.toNat_lt

/-- **Decoding what was encoded.** -/
theorem decode_encode (bytes : List UInt8) : decode (encode bytes) = some bytes := by
  rw [decode, encode, mapM_decodeDigit (Radix.rebase_lt (by norm_num) _), Option.map_some,
    Radix.rebase_rebase (by norm_num) (toNat_lt_of_mem_map bytes), List.map_map]
  have hid : Nat.toUInt8 ∘ UInt8.toNat = id := funext fun b => UInt8.ofNat_toNat
  rw [hid, List.map_id]

theorem encodeDigit_of_decodeDigit {c : UInt8} {d : ℕ} (h : decodeDigit c = some d) :
    d < 58 ∧ encodeDigit d = c := by
  obtain ⟨hd, hc, -⟩ := List.idxOf?_eq_some_iff.mp h
  have hlen : alphabet.length = 58 := by decide
  refine ⟨hlen ▸ hd, ?_⟩
  rw [encodeDigit, List.getD_eq_getElem?_getD, List.getElem?_eq_getElem hd, hc]
  rfl

theorem map_encodeDigit_of_mapM : ∀ {text : List UInt8} {ds : List ℕ},
    text.mapM decodeDigit = some ds → (∀ d ∈ ds, d < 58) ∧ ds.map encodeDigit = text
  | [], ds, h => by
    cases h
    exact ⟨nofun, rfl⟩
  | c :: text, ds, h => by
    simp only [List.mapM_cons, Option.bind_eq_bind, Option.bind_eq_some_iff] at h
    obtain ⟨d, hd, es, hes, hpure⟩ := h
    cases hpure
    obtain ⟨hlt, hc⟩ := encodeDigit_of_decodeDigit hd
    obtain ⟨hall, htext⟩ := map_encodeDigit_of_mapM hes
    exact ⟨List.forall_mem_cons.mpr ⟨hlt, hall⟩, by rw [List.map_cons, hc, htext]⟩

/-- **A text that decodes** is the encoding of its bytes. -/
theorem decode_eq_some {text bytes : List UInt8} :
    decode text = some bytes ↔ text = encode bytes := by
  constructor
  · intro h
    obtain ⟨ds, hds, hbytes⟩ := Option.map_eq_some_iff.mp h
    obtain ⟨hlt, htext⟩ := map_encodeDigit_of_mapM hds
    have hdigits : bytes.map UInt8.toNat = Radix.rebase 58 256 ds := by
      rw [← hbytes, List.map_map]
      conv_rhs => rw [← List.map_id (Radix.rebase 58 256 ds)]
      refine List.map_congr_left fun d hd => ?_
      exact UInt8.toNat_ofNat_of_lt' (Radix.rebase_lt (by norm_num) ds d hd)
    rw [encode, hdigits, Radix.rebase_rebase (by norm_num) hlt, htext]
  · rintro rfl
    exact decode_encode bytes

/-- **The length of an encoding**: `n` bytes fit into `m` characters if `256 ^ n ≤ 58 ^ m`. -/
theorem length_encode_le {bytes : List UInt8} {n m : ℕ} (hnm : n ≤ m) (hpow : 256 ^ n ≤ 58 ^ m)
    (hlen : bytes.length ≤ n) : (encode bytes).length ≤ m := by
  rw [encode, List.length_map]
  exact Radix.length_rebase_le (by norm_num) (by norm_num) hnm hpow (toNat_lt_of_mem_map bytes)
    (by rwa [List.length_map])

example : encode [0, 0, 1] = "112".toList.map fun c => c.toNat.toUInt8 := by decide

end Base58
