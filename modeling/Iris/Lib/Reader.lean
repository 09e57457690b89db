import Mathlib.Data.List.Basic
import Mathlib.Tactic.Common

/-!
# Readers of byte strings

A reader takes a value off the front of a byte string and leaves the rest. `Inverts read write`
says that `read` accepts exactly the strings that begin with a written value.

* `byte`, `take`, `fixed`: a byte, some bytes, an array;
* **`inverts_byte`**, `take_eq_some`, **`inverts_fixed`**: what they accept;
* `chunksExact`: the whole records of a string; **`chunksExact_flatten`**: records written one
  after another, and a fragment behind them, give back the records.
-/

/-- A reader of `α`. -/
abbrev Reader (α : Type) : Type := List UInt8 → Option (α × List UInt8)

namespace Reader

variable {α : Type}

/-- An array of `n` bytes. -/
abbrev Fixed (n : ℕ) : Type := { bytes : List UInt8 // bytes.length = n }

/-- Read one byte. -/
def byte : Reader UInt8
  | [] => none
  | b :: rest => some (b, rest)

/-- Read `n` bytes. -/
def take (n : ℕ) : Reader (List UInt8) := fun data =>
  if n ≤ data.length then some (data.take n, data.drop n) else none

/-- Read an array of `n` bytes. -/
def fixed (n : ℕ) : Reader (Fixed n) := fun data =>
  if h : n ≤ data.length then some (⟨data.take n, List.length_take_of_le h⟩, data.drop n) else none

/-- `read` accepts what `write` writes, and nothing else. -/
def Inverts (read : Reader α) (write : α → List UInt8) : Prop :=
  ∀ data a rest, read data = some (a, rest) ↔ data = write a ++ rest

theorem inverts_byte : Inverts byte fun b => [b] := by
  intro data b rest
  cases data with
  | nil => simp [byte]
  | cons c data => simp [byte]

theorem take_eq_some {n : ℕ} {data bytes rest : List UInt8} :
    take n data = some (bytes, rest) ↔ data = bytes ++ rest ∧ bytes.length = n := by
  unfold take
  constructor
  · intro h
    split_ifs at h with hn
    · cases h
      exact ⟨(List.take_append_drop n data).symm, List.length_take_of_le hn⟩
  · rintro ⟨rfl, rfl⟩
    simp

theorem inverts_fixed (n : ℕ) : Inverts (fixed n) Subtype.val := by
  intro data bytes rest
  unfold fixed
  constructor
  · intro h
    split_ifs at h with hn
    · cases h
      exact (List.take_append_drop n data).symm
  · rintro rfl
    have hlen := bytes.property
    have hn : n ≤ (bytes.val ++ rest).length := by rw [List.length_append]; omega
    rw [dif_pos hn]
    congr
    · exact List.take_left' hlen
    · exact List.drop_left' hlen

/-! ## Records -/

/-- The whole records of `n` bytes, without what is left over at the end. -/
def chunksExact (n : ℕ) (data : List UInt8) : List (List UInt8) :=
  (List.range (data.length / n)).map fun i => (data.drop (n * i)).take n

theorem length_chunksExact (n : ℕ) (data : List UInt8) :
    (chunksExact n data).length = data.length / n := by
  rw [chunksExact, List.length_map, List.length_range]

theorem length_of_mem_chunksExact {n : ℕ} {data chunk : List UInt8}
    (h : chunk ∈ chunksExact n data) : chunk.length = n := by
  obtain ⟨i, hi, rfl⟩ := List.mem_map.mp h
  have hle : n * (i + 1) ≤ data.length :=
    calc n * (i + 1) ≤ n * (data.length / n) := Nat.mul_le_mul_left n (List.mem_range.mp hi)
      _ ≤ data.length := Nat.mul_div_le data.length n
  rw [Nat.mul_succ] at hle
  rw [List.length_take, List.length_drop]
  omega

theorem chunksExact_of_lt {n : ℕ} {data : List UInt8} (h : data.length < n) :
    chunksExact n data = [] := by
  rw [chunksExact, Nat.div_eq_of_lt h]
  rfl

/-- One record in front. -/
theorem chunksExact_append {n : ℕ} {chunk : List UInt8} (hchunk : chunk.length = n) (hn : 0 < n)
    (rest : List UInt8) : chunksExact n (chunk ++ rest) = chunk :: chunksExact n rest := by
  have hcount : (chunk ++ rest).length / n = rest.length / n + 1 := by
    rw [List.length_append, hchunk, Nat.add_div_left _ hn]
  rw [chunksExact, hcount, List.range_succ_eq_map, List.map_cons, List.map_map]
  congr 1
  · rw [Nat.mul_zero, List.drop_zero, List.take_left' hchunk]
  · apply List.map_congr_left
    intro i _
    show ((chunk ++ rest).drop (n * (i + 1))).take n = (rest.drop (n * i)).take n
    rw [Nat.mul_succ, Nat.add_comm, ← List.drop_drop, List.drop_left' hchunk]

/-- **Records and a fragment.** -/
theorem chunksExact_flatten {n : ℕ} {records : List (List UInt8)}
    (hrecords : ∀ r ∈ records, r.length = n) {fragment : List UInt8} (h : fragment.length < n) :
    chunksExact n (records.flatten ++ fragment) = records := by
  induction records with
  | nil => exact chunksExact_of_lt h
  | cons r records ih =>
    have hr : r.length = n := hrecords r List.mem_cons_self
    rw [List.flatten_cons, List.append_assoc, chunksExact_append hr (by omega),
      ih fun r hr => hrecords r (List.mem_cons_of_mem _ hr)]

end Reader
