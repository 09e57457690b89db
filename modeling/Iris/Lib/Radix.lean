import Mathlib.Data.List.TakeWhile
import Mathlib.Data.Nat.Digits.Lemmas

/-!
# Change of radix with leading zeros

Numerals are lists of digits, most significant first. `rebase b c` writes a base-`b` numeral in
base `c` and keeps each of its leading zeros as one leading zero, so that no numeral is lost.

* `leadingZeros`, `significant`: a numeral is its leading zeros and its significant digits;
* `rebase`, `rebase_lt`;
* **`rebase_rebase`**: rebasing there and back is the identity;
* **`length_rebase_le`**: a bound on the length from a bound on the powers of the bases.
-/

namespace Radix

/-- The number of leading zeros. -/
def leadingZeros (ds : List ℕ) : ℕ := (ds.takeWhile fun d => d = 0).length

/-- The numeral without its leading zeros. -/
def significant (ds : List ℕ) : List ℕ := ds.dropWhile fun d => d = 0

/-- The value of a base-`b` numeral. -/
def value (b : ℕ) (ds : List ℕ) : ℕ := Nat.ofDigits b ds.reverse

/-- **Change of radix** from `b` to `c`. -/
def rebase (b c : ℕ) (ds : List ℕ) : List ℕ :=
  List.replicate (leadingZeros ds) 0 ++ (Nat.digits c (value b ds)).reverse

theorem replicate_append_significant (ds : List ℕ) :
    List.replicate (leadingZeros ds) 0 ++ significant ds = ds := by
  have htake : ds.takeWhile (fun d => d = 0) = List.replicate (leadingZeros ds) 0 :=
    List.eq_replicate_iff.mpr ⟨rfl, fun d hd => by simpa using List.mem_takeWhile_imp hd⟩
  rw [← htake]
  exact List.takeWhile_append_dropWhile

theorem leadingZeros_add_length (ds : List ℕ) :
    leadingZeros ds + (significant ds).length = ds.length := by
  have h := congrArg List.length (replicate_append_significant ds)
  rwa [List.length_append, List.length_replicate] at h

/-- Leading zeros in front of a numeral without any. -/
theorem leadingZeros_replicate_append (k : ℕ) {ds : List ℕ} (h : ∀ d ∈ ds.head?, d ≠ 0) :
    leadingZeros (List.replicate k 0 ++ ds) = k := by
  have hds : ds.takeWhile (fun d => d = 0) = [] := by
    cases ds with
    | nil => rfl
    | cons d ds =>
      have hd : d ≠ 0 := h d rfl
      simp [hd]
  unfold leadingZeros
  rw [List.takeWhile_append_of_pos (by simp), hds]
  simp

theorem head?_significant (ds : List ℕ) : ∀ d ∈ (significant ds).head?, d ≠ 0 := by
  intro d hd
  have h := List.head?_dropWhile_not (fun d => decide (d = 0)) ds
  unfold significant at hd
  rw [Option.mem_def] at hd
  rw [hd] at h
  simpa using h

theorem value_replicate_append (b k : ℕ) (ds : List ℕ) :
    value b (List.replicate k 0 ++ ds) = value b ds := by
  unfold value
  rw [List.reverse_append, List.reverse_replicate, Nat.ofDigits_append_replicate_zero]

theorem value_significant (b : ℕ) (ds : List ℕ) : value b (significant ds) = value b ds := by
  conv_rhs => rw [← replicate_append_significant ds]
  rw [value_replicate_append]

theorem value_reverse_digits (b n : ℕ) : value b (Nat.digits b n).reverse = n := by
  rw [value, List.reverse_reverse, Nat.ofDigits_digits]

theorem head?_reverse_digits (b n : ℕ) : ∀ d ∈ (Nat.digits b n).reverse.head?, d ≠ 0 := by
  intro d hd
  rw [List.head?_reverse] at hd
  by_cases hn : n = 0
  · rw [hn, Nat.digits_zero] at hd
    cases hd
  · have hne : Nat.digits b n ≠ [] := Nat.digits_ne_nil_iff_ne_zero.mpr hn
    rw [List.getLast?_eq_some_getLast hne] at hd
    cases hd
    exact Nat.getLast_digit_ne_zero b hn

theorem rebase_lt {b c : ℕ} (hc : 1 < c) (ds : List ℕ) : ∀ d ∈ rebase b c ds, d < c := by
  intro d hd
  rcases List.mem_append.mp hd with hd | hd
  · rw [List.eq_of_mem_replicate hd]
    omega
  · exact Nat.digits_lt_base hc (List.mem_reverse.mp hd)

/-- The digits of the value of a numeral are its significant digits. -/
theorem reverse_digits_value {b : ℕ} (hb : 1 < b) {ds : List ℕ} (hds : ∀ d ∈ ds, d < b) :
    (Nat.digits b (value b ds)).reverse = significant ds := by
  rw [← value_significant, value, Nat.digits_ofDigits b hb, List.reverse_reverse]
  · intro d hd
    exact hds d (List.dropWhile_sublist _ |>.subset (List.mem_reverse.mp hd))
  · intro hne
    rw [List.getLast_reverse]
    exact head?_significant ds _ (List.head_mem_head? _)

/-- **Rebasing there and back.** -/
theorem rebase_rebase {b c : ℕ} (hb : 1 < b) {ds : List ℕ} (hds : ∀ d ∈ ds, d < b) :
    rebase c b (rebase b c ds) = ds := by
  have hzeros : leadingZeros (rebase b c ds) = leadingZeros ds :=
    leadingZeros_replicate_append _ (head?_reverse_digits c _)
  have hvalue : value c (rebase b c ds) = value b ds := by
    rw [rebase, value_replicate_append, value_reverse_digits]
  rw [rebase, hzeros, hvalue, reverse_digits_value hb hds, replicate_append_significant]

/-- **Length of a rebased numeral.** If `n` digits of base `b` fit into `m` digits of the smaller
base `c`, then numerals of at most `n` digits, leading zeros included, rebase to at most `m`. -/
theorem length_rebase_le {b c n m : ℕ} (hc : 1 < c) (hcb : c ≤ b) (hnm : n ≤ m)
    (hpow : b ^ n ≤ c ^ m) {ds : List ℕ} (hds : ∀ d ∈ ds, d < b) (hlen : ds.length ≤ n) :
    (rebase b c ds).length ≤ m := by
  have hsplit := leadingZeros_add_length ds
  have hlt : value b ds < b ^ (significant ds).length := by
    rw [← value_significant, value, ← List.length_reverse]
    refine Nat.ofDigits_lt_base_pow_length (by omega) fun d hd => ?_
    exact hds d (List.dropWhile_sublist _ |>.subset (List.mem_reverse.mp hd))
  have hz : leadingZeros ds ≤ m := by omega
  -- dropping `z` digits on both sides keeps the comparison, since `c ^ z ≤ b ^ z`
  have hdrop : b ^ (n - leadingZeros ds) ≤ c ^ (m - leadingZeros ds) := by
    have hbz : b ^ n = b ^ (n - leadingZeros ds) * b ^ leadingZeros ds := by
      rw [← pow_add]; congr 1; omega
    have hcz : c ^ m = c ^ (m - leadingZeros ds) * c ^ leadingZeros ds := by
      rw [← pow_add]; congr 1; omega
    have hle : b ^ (n - leadingZeros ds) * b ^ leadingZeros ds ≤
        c ^ (m - leadingZeros ds) * b ^ leadingZeros ds := by
      calc b ^ (n - leadingZeros ds) * b ^ leadingZeros ds
          = b ^ n := hbz.symm
        _ ≤ c ^ m := hpow
        _ = c ^ (m - leadingZeros ds) * c ^ leadingZeros ds := hcz
        _ ≤ c ^ (m - leadingZeros ds) * b ^ leadingZeros ds :=
          Nat.mul_le_mul_left _ (Nat.pow_le_pow_left hcb _)
    exact Nat.le_of_mul_le_mul_right hle (Nat.pow_pos (by omega))
  have hdigits : (Nat.digits c (value b ds)).length ≤ m - leadingZeros ds := by
    rw [Nat.digits_length_le_iff hc]
    calc value b ds < b ^ (significant ds).length := hlt
      _ ≤ b ^ (n - leadingZeros ds) := Nat.pow_le_pow_right (by omega) (by omega)
      _ ≤ c ^ (m - leadingZeros ds) := hdrop
  rw [rebase, List.length_append, List.length_replicate, List.length_reverse]
  omega

end Radix
