import Mathlib.Algebra.Ring.Nat
import Iris.Lib.Reader

/-!
# Little-endian numbers

* `encode n v`: the `n` low bytes of `v`, the lowest first; `decode`: the number some bytes spell;
* `length_encode`, **`decode_encode`**, `encode_decode`, `decode_lt`;
* `read`, **`read_eq_some`**: the reader of an `n`-byte number.
-/

namespace LittleEndian

def encode : ℕ → ℕ → List UInt8
  | 0, _ => []
  | n + 1, v => UInt8.ofNat (v % 256) :: encode n (v / 256)

def decode : List UInt8 → ℕ
  | [] => 0
  | b :: bytes => b.toNat + 256 * decode bytes

theorem length_encode (n v : ℕ) : (encode n v).length = n := by
  induction n generalizing v with
  | zero => rfl
  | succ n ih => rw [encode, List.length_cons, ih]

/-- **Decoding what was encoded.** -/
theorem decode_encode {n v : ℕ} (h : v < 256 ^ n) : decode (encode n v) = v := by
  induction n generalizing v with
  | zero => simp only [pow_zero, Nat.lt_one_iff] at h; rw [h]; rfl
  | succ n ih =>
    have hdiv : v / 256 < 256 ^ n := Nat.div_lt_of_lt_mul (by rw [pow_succ] at h; omega)
    have hlow : (UInt8.ofNat (v % 256)).toNat = v % 256 := by
      rw [UInt8.toNat_ofNat']
      omega
    rw [encode, decode, ih hdiv, hlow]
    omega

theorem encode_decode (bytes : List UInt8) : encode bytes.length (decode bytes) = bytes := by
  induction bytes with
  | nil => rfl
  | cons b bytes ih =>
    have hb := b.toNat_lt
    have hlow : (b.toNat + 256 * decode bytes) % 256 = b.toNat := by omega
    have hhigh : (b.toNat + 256 * decode bytes) / 256 = decode bytes := by omega
    rw [List.length_cons, decode, encode, hlow, hhigh, ih, UInt8.ofNat_toNat]

theorem decode_lt (bytes : List UInt8) : decode bytes < 256 ^ bytes.length := by
  induction bytes with
  | nil => decide
  | cons b bytes ih =>
    have hb := b.toNat_lt
    rw [decode, List.length_cons, pow_succ]
    omega

/-- Read an `n`-byte number. -/
def read (n : ℕ) : Reader ℕ := fun data =>
  (Reader.take n data).map fun (bytes, rest) => (decode bytes, rest)

/-- **The numbers a reader accepts.** -/
theorem read_eq_some {n v : ℕ} {data rest : List UInt8} :
    read n data = some (v, rest) ↔ data = encode n v ++ rest ∧ v < 256 ^ n := by
  simp only [read, Option.map_eq_some_iff, Prod.exists, Reader.take_eq_some, Prod.mk.injEq]
  constructor
  · rintro ⟨bytes, rest', ⟨rfl, rfl⟩, rfl, rfl⟩
    rw [encode_decode]
    exact ⟨rfl, decode_lt bytes⟩
  · rintro ⟨rfl, hv⟩
    exact ⟨_, rest, ⟨rfl, length_encode n v⟩, decode_encode hv, rfl⟩

end LittleEndian
