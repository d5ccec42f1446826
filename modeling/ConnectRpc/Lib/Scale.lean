import Mathlib.Tactic.Common
import Mathlib.Algebra.Order.Group.Nat

/-!
# Scaling by a fraction

A number is scaled by so many parts of a whole, rounding towards the number itself: up
where the parts are fewer than a whole, and down where they are not. Rounded this way the
result is monotone in the number and in the parts, across the change of the rounding as
well (`scale_mono`), and it is not zero unless one of them is.
-/

namespace ConnectRpc.Lib

/-- `n` scaled by `k` parts of a whole of `d`. -/
def scale (d n k : ℕ) : ℕ :=
  if k < d then (n * k + (d - 1)) / d else n * k / d

variable {d n m k l : ℕ}

theorem scale_of_lt (h : k < d) : scale d n k = (n * k + (d - 1)) / d :=
  if_pos h

theorem scale_of_le (h : d ≤ k) : scale d n k = n * k / d :=
  if_neg (Nat.not_lt.mpr h)

/-- Less than a whole does not make a number larger. -/
theorem scale_le_self (h : k < d) : scale d n k ≤ n := by
  have hmul : n * k ≤ n * d := Nat.mul_le_mul_left n h.le
  have hlt : n * k + (d - 1) < d * (n + 1) := by
    rw [Nat.mul_comm d, Nat.add_mul, Nat.one_mul]
    omega
  rw [scale_of_lt h]
  exact Nat.lt_succ_iff.mp (Nat.div_lt_of_lt_mul hlt)

/-- A whole or more does not make a number smaller. -/
theorem self_le_scale (hd : 0 < d) (h : d ≤ k) : n ≤ scale d n k := by
  rw [scale_of_le h, Nat.le_div_iff_mul_le hd]
  exact Nat.mul_le_mul_left n h

/-- **Scaling is monotone** in the number and in the parts. -/
theorem scale_mono (hd : 0 < d) (hn : n ≤ m) (hk : k ≤ l) : scale d n k ≤ scale d m l := by
  have hmul : n * k ≤ m * l := Nat.mul_le_mul hn hk
  by_cases hl : l < d
  · rw [scale_of_lt hl, scale_of_lt (Nat.lt_of_le_of_lt hk hl)]
    exact Nat.div_le_div_right (Nat.add_le_add_right hmul _)
  · have hle := Nat.not_lt.mp hl
    by_cases hkd : k < d
    · -- the rounding changes between the two
      calc scale d n k ≤ n := scale_le_self hkd
        _ ≤ m := hn
        _ ≤ scale d m l := self_le_scale hd hle
    · rw [scale_of_le (Nat.not_lt.mp hkd), scale_of_le hle]
      exact Nat.div_le_div_right hmul

theorem scale_pos (hd : 0 < d) (hn : 0 < n) (hk : 0 < k) : 0 < scale d n k := by
  have hmul : 0 < n * k := Nat.mul_pos hn hk
  by_cases h : k < d
  · rw [scale_of_lt h]
    exact Nat.div_pos (by omega) hd
  · exact Nat.lt_of_lt_of_le hn (self_le_scale hd (Nat.not_lt.mp h))

end ConnectRpc.Lib
