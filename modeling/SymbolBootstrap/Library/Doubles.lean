import Mathlib.Data.Int.Order.Basic
import Mathlib.Data.Nat.Log
import Mathlib.Tactic.Positivity
import Mathlib.Tactic.SplitIfs

/-!
Integers as numbers of double precision. A significand has 53 bits, and an integer that
needs more is rounded to the nearest that does not, ties to even. Integers below `2 ^ 53`
are exact, and no other integer is rounded to one of them.
-/
namespace Library.Doubles

/-- `n / 2 ^ shift` to the nearest integer, ties to even. -/
def nearestEven (n shift : ℕ) : ℕ :=
  let quotient := n / 2 ^ shift
  let remainder := n % 2 ^ shift
  if 2 * remainder < 2 ^ shift then quotient
  else if 2 ^ shift < 2 * remainder then quotient + 1
  else quotient + quotient % 2

def roundNat (n : ℕ) : ℕ :=
  if n < 2 ^ 53 then n
  else nearestEven n (Nat.log 2 n - 52) * 2 ^ (Nat.log 2 n - 52)

/-- The double nearest to an integer. -/
def round (n : ℤ) : ℤ := n.sign * roundNat n.natAbs

theorem div_le_nearestEven (n shift : ℕ) : n / 2 ^ shift ≤ nearestEven n shift := by
  simp only [nearestEven]
  split_ifs
  · exact le_rfl
  · exact Nat.le_succ _
  · exact Nat.le_add_right _ _

/-- Rounding does not bring a large integer below the exact ones. -/
theorem le_roundNat {n : ℕ} (h : 2 ^ 53 ≤ n) : 2 ^ 53 ≤ roundNat n := by
  have hne : n ≠ 0 := by omega
  have hlog : 53 ≤ Nat.log 2 n := (Nat.le_log_iff_pow_le (by decide) hne).mpr h
  have hsplit : 2 ^ 52 * 2 ^ (Nat.log 2 n - 52) ≤ n := by
    rw [← pow_add, Nat.add_sub_cancel' (by omega)]
    exact Nat.pow_log_le_self 2 hne
  have hquotient : 2 ^ 52 ≤ n / 2 ^ (Nat.log 2 n - 52) :=
    (Nat.le_div_iff_mul_le (by positivity)).mpr hsplit
  have hscale : 2 ^ 1 ≤ 2 ^ (Nat.log 2 n - 52) := Nat.pow_le_pow_right (by decide) (by omega)
  rw [roundNat, if_neg (by omega)]
  calc 2 ^ 53 = 2 ^ 52 * 2 ^ 1 := rfl
    _ ≤ nearestEven n (Nat.log 2 n - 52) * 2 ^ (Nat.log 2 n - 52) :=
      Nat.mul_le_mul (hquotient.trans (div_le_nearestEven n _)) hscale

theorem round_eq_self {n : ℤ} (h : n.natAbs < 2 ^ 53) : round n = n := by
  rw [round, roundNat, if_pos h]
  exact Int.sign_mul_natAbs n

/-- An integer is rounded to an exact one only when it is that one. -/
theorem round_eq_iff {n m : ℤ} (hm : m.natAbs < 2 ^ 53) : round n = m ↔ n = m := by
  constructor
  · intro hround
    by_cases hn : n.natAbs < 2 ^ 53
    · rw [← hround, round_eq_self hn]
    · exfalso
      have hlarge := le_roundNat (not_lt.mp hn)
      have hsign : n.sign.natAbs = 1 := Int.natAbs_sign_of_ne_zero (by omega)
      have habs : (round n).natAbs = roundNat n.natAbs := by
        rw [round, Int.natAbs_mul, hsign, one_mul, Int.natAbs_natCast]
      rw [hround] at habs
      omega
  · rintro rfl
    exact round_eq_self hm

end Library.Doubles
