import Mathlib.Algebra.Order.Ring.Nat
import Mathlib.Tactic.Ring

/-!
Numbers as a fixed number of bytes, the least significant byte first.
-/
namespace Library.LittleEndian

/-- The `width` lowest bytes of a number. -/
def toBytes : ℕ → ℕ → List UInt8
  | 0, _ => []
  | width + 1, n => UInt8.ofNat n :: toBytes width (n / 256)

def ofBytes : List UInt8 → ℕ
  | [] => 0
  | byte :: rest => byte.toNat + 256 * ofBytes rest

@[simp] theorem length_toBytes (width n : ℕ) : (toBytes width n).length = width := by
  induction width generalizing n with
  | zero => rfl
  | succ width ih => rw [toBytes, List.length_cons, ih]

theorem ofBytes_lt {bytes : List UInt8} {width : ℕ} (h : bytes.length ≤ width) :
    ofBytes bytes < 256 ^ width := by
  induction bytes generalizing width with
  | nil => exact Nat.pow_pos (by decide)
  | cons byte rest ih =>
    cases width with
    | zero => exact absurd h (Nat.not_succ_le_zero _)
    | succ width =>
      have hrest := ih (Nat.le_of_succ_le_succ h)
      have hbyte := byte.toNat_lt
      rw [ofBytes, pow_succ]
      omega

/-- The lower bytes come first. -/
theorem toBytes_add (low high n : ℕ) :
    toBytes (low + high) n = toBytes low n ++ toBytes high (n / 256 ^ low) := by
  induction low generalizing n with
  | zero => rw [Nat.zero_add, pow_zero, Nat.div_one, toBytes, List.nil_append]
  | succ low ih =>
    have hnext : n / 256 / 256 ^ low = n / 256 ^ (low + 1) := by
      rw [Nat.div_div_eq_div_mul, pow_succ']
    rw [Nat.add_right_comm, toBytes, ih, hnext, toBytes, List.cons_append]

/-- Bytes that can hold a number give it back. -/
theorem ofBytes_toBytes {width n : ℕ} (h : n < 256 ^ width) : ofBytes (toBytes width n) = n := by
  induction width generalizing n with
  | zero =>
    rw [pow_zero, Nat.lt_one_iff] at h
    rw [h]
    rfl
  | succ width ih =>
    have hrest : n / 256 < 256 ^ width := by
      rw [Nat.div_lt_iff_lt_mul (by decide), ← pow_succ]
      exact h
    have hbyte : (UInt8.ofNat n).toNat = n % 256 := UInt8.toNat_ofNat'
    rw [toBytes, ofBytes, ih hrest, hbyte]
    exact Nat.mod_add_div n 256

end Library.LittleEndian
