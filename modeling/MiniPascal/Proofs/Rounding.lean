import Mathlib.Algebra.Order.Ring.Nat
import Mathlib.Tactic.Ring
import MiniPascal.Decimal.Binary64

/-!
# Which numbers have a double

The largest double is `2 ^ 1024` less one unit of its last place, which is `2 ^ 971`. What is
nearer to it than to `2 ^ 1024` rounds to it or to a smaller double; half way to `2 ^ 1024` the
tie goes to the even mantissa, which is beyond. So a natural number has a double exactly if it
is less than the largest one and half a unit (`fitsBinary64_iff`).
-/

namespace MiniPascal.Decimal

/-- The largest double. -/
def largestDouble : Nat :=
  (2 ^ 53 - 1) * 2 ^ 971

/-- Of a number of more than 53 bits, the highest 53 are the mantissa before it is rounded. -/
theorem mantissa_bounds {n : Nat} (h : 2 ^ 53 ≤ n) :
    2 ^ 52 ≤ n / 2 ^ (n.log2 - 52) ∧ n / 2 ^ (n.log2 - 52) < 2 ^ 53 := by
  have hne : n ≠ 0 := by rintro rfl; exact absurd h (by decide)
  have hlog : 53 ≤ n.log2 := (Nat.le_log2 hne).2 h
  have hlow : 2 ^ 52 * 2 ^ (n.log2 - 52) ≤ n := by
    rw [← Nat.pow_add, Nat.add_sub_cancel' (by omega)]
    exact Nat.log2_self_le hne
  have hhigh : n < 2 ^ 53 * 2 ^ (n.log2 - 52) := by
    rw [← Nat.pow_add, show 53 + (n.log2 - 52) = n.log2 + 1 by omega]
    exact Nat.lt_log2_self
  have hpos : 0 < 2 ^ (n.log2 - 52) := Nat.two_pow_pos _
  exact ⟨(Nat.le_div_iff_mul_le hpos).2 hlow, (Nat.div_lt_iff_lt_mul hpos).2 hhigh⟩

/-- Only with the exponent `k + 1` does it matter how a mantissa `b` is rounded, for the rest `r`
    that it leaves. -/
theorem rounded_lt_iff {b r c e k : Nat} (hlow : 2 ^ 52 ≤ b) (hhigh : b < 2 ^ 53) (hr : r < 2 ^ e)
    (hup : 2 * r > 2 ^ e ∨ 2 * r = 2 ^ e ∧ b % 2 = 1 → c = 1)
    (hdown : ¬ (2 * r > 2 ^ e ∨ 2 * r = 2 ^ e ∧ b % 2 = 1) → c = 0) :
    (b + c) * 2 ^ e < 2 ^ (k + 54) ↔ 2 ^ e * b + r < (2 ^ 53 - 1) * 2 ^ (k + 1) + 2 ^ k := by
  have hpos : 0 < 2 ^ k := Nat.two_pow_pos k
  have hle : c ≤ 1 := by
    by_cases h : 2 * r > 2 ^ e ∨ 2 * r = 2 ^ e ∧ b % 2 = 1
    · exact (hup h).le
    · exact (hdown h).trans_le (Nat.zero_le 1)
  rw [Nat.pow_add, Nat.pow_succ]
  rcases Nat.lt_trichotomy e (k + 1) with he | rfl | he
  · have hpow : 2 ^ e ≤ 2 ^ k := Nat.pow_le_pow_right (by decide) (by omega)
    have hrounded : (b + c) * 2 ^ e ≤ 2 ^ 53 * 2 ^ k := Nat.mul_le_mul (by omega) hpow
    have hnumber : 2 ^ e * (b + 1) ≤ 2 ^ k * 2 ^ 53 := Nat.mul_le_mul hpow hhigh
    rw [Nat.mul_add] at hnumber
    omega
  · rw [Nat.pow_succ] at hr hup hdown ⊢
    -- The largest mantissa is odd, so that half a unit more rounds it up.
    by_cases hb : b = 2 ^ 53 - 1
    · subst hb
      rcases (by omega : c = 0 ∨ c = 1) with rfl | rfl <;> omega
    · have hrounded : (b + c) * (2 ^ k * 2) ≤ (2 ^ 53 - 1) * (2 ^ k * 2) :=
        Nat.mul_le_mul_right _ (by omega)
      have hnumber : 2 ^ k * 2 * (b + 1) ≤ 2 ^ k * 2 * (2 ^ 53 - 1) :=
        Nat.mul_le_mul_left _ (by omega)
      rw [Nat.mul_add] at hnumber
      omega
  · have hpow : 2 ^ (k + 2) ≤ 2 ^ e := Nat.pow_le_pow_right (by decide) he
    have hnumber : 2 ^ (k + 2) * 2 ^ 52 ≤ 2 ^ e * b := Nat.mul_le_mul hpow hlow
    have hrounded : 2 ^ e * b ≤ (b + c) * 2 ^ e := by
      rw [Nat.mul_comm]
      exact Nat.mul_le_mul_right _ (Nat.le_add_right b c)
    rw [Nat.pow_add] at hnumber
    omega

theorem roundNat_lt_iff (n k : Nat) :
    (roundNat n).1 * Nat.pow 2 (roundNat n).2 < Nat.pow 2 (k + 54) ↔
      n < (2 ^ 53 - 1) * 2 ^ (k + 1) + 2 ^ k := by
  rw [Nat.pow_eq, Nat.pow_eq]
  rcases Nat.lt_or_ge n (2 ^ 53) with h | h
  · have hround : roundNat n = (n, 0) := if_pos h
    have hpos : 0 < 2 ^ k := Nat.two_pow_pos k
    rw [hround, Nat.pow_add, Nat.pow_succ, Nat.pow_zero, Nat.mul_one]
    simp only
    omega
  · obtain ⟨hlow, hhigh⟩ := mantissa_bounds h
    have hnot : ¬ n < Nat.pow 2 53 := Nat.not_lt.2 h
    have hsplit := Nat.div_add_mod n (2 ^ (n.log2 - 52))
    have hrest : n % 2 ^ (n.log2 - 52) < 2 ^ (n.log2 - 52) := Nat.mod_lt n (Nat.two_pow_pos _)
    simp only [roundNat, if_neg hnot, Nat.pow_eq]
    split
    · next hup =>
      rw [rounded_lt_iff hlow hhigh hrest (fun _ => rfl) (absurd hup), hsplit]
    · next hdown =>
      have hiff := @rounded_lt_iff _ _ 0 _ k hlow hhigh hrest (fun h => absurd h hdown) fun _ => rfl
      rwa [hsplit] at hiff

/-- A natural number has a double exactly if it is less than the largest double and half a unit
    of its last place. -/
theorem fitsBinary64_iff (n : Nat) : fitsBinary64 n = true ↔ n < largestDouble + 2 ^ 970 := by
  have h := roundNat_lt_iff n 970
  simp only [Nat.reduceAdd] at h
  rw [largestDouble, ← h, fitsBinary64]
  exact decide_eq_true_iff

end MiniPascal.Decimal
