import Mathlib.Algebra.Group.Nat.Defs

/-! # Rounding to nearest

IEEE 754's default rounding, a tie to the even neighbour, over naturals: `nearest` is a
quotient as a conversion to decimal prints it, and `roundBits` keeps as many significant
binary digits as a floating-point format has.  The exponent range is not modelled: the
values are far from both of its ends.
-/

namespace Rounding

/-! ## Quotients -/

/-- The integer next to `n / d`. -/
def nearest (n d : Nat) : Nat :=
  if 2 * (n % d) < d ∨ 2 * (n % d) = d ∧ n / d % 2 = 0 then n / d else n / d + 1

variable {n n' d k bits : Nat}

theorem nearest_cases (n d : Nat) :
    nearest n d = n / d ∧ 2 * (n % d) ≤ d ∨ nearest n d = n / d + 1 ∧ d ≤ 2 * (n % d) := by
  rw [nearest]
  split <;> omega

theorem nearest_close (positive : 0 < d) (n : Nat) :
    2 * (d * nearest n d) ≤ 2 * n + d ∧ 2 * n ≤ 2 * (d * nearest n d) + d := by
  have split := Nat.div_add_mod n d
  have rest := Nat.mod_lt n positive
  cases nearest_cases n d with
  | inl down =>
    rw [down.1]
    omega
  | inr up =>
    rw [up.1, Nat.mul_succ]
    omega

theorem nearest_mono (le : n ≤ n') (d : Nat) : nearest n d ≤ nearest n' d := by
  have quotients := Nat.div_le_div_right (c := d) le
  by_cases same : n / d = n' / d
  · have split := Nat.div_add_mod n d
    have split' := Nat.div_add_mod n' d
    rw [same] at split
    rw [nearest, nearest, same]
    split <;> split <;> omega
  · have here := nearest_cases n d
    have there := nearest_cases n' d
    omega

theorem nearest_mul (positive : 0 < d) (q : Nat) : nearest (d * q) d = q := by
  simp [nearest, positive]

/-! ## Significant digits -/

/-- The digits that `bits` of them leave out. -/
def dropped (bits n : Nat) : Nat := n.log2 + 1 - bits

/-- The float next to `n`, of a format with `bits` significant digits. -/
def roundBits (bits n : Nat) : Nat := 2 ^ dropped bits n * nearest n (2 ^ dropped bits n)

theorem dropped_le_iff (some : 0 < bits) : dropped bits n ≤ k ↔ n < 2 ^ (k + bits) := by
  by_cases zero : n = 0
  · have power := Nat.two_pow_pos (k + bits)
    simp only [zero, dropped, Nat.log2_zero]
    omega
  · rw [← Nat.log2_lt zero, dropped]
    omega

theorem roundBits_of_lt (some : 0 < bits) (small : n < 2 ^ bits) : roundBits bits n = n := by
  have none : dropped bits n = 0 := by
    have := (dropped_le_iff some (n := n) (k := 0)).mpr (by rwa [Nat.zero_add])
    omega
  have exact := nearest_mul Nat.one_pos n
  rw [Nat.one_mul] at exact
  rw [roundBits, none, Nat.pow_zero, exact, Nat.one_mul]

/-- Where digits are left out, there are as many as the format has. -/
theorem pow_le_of_dropped (some : 0 < bits) (isSome : dropped bits n ≠ 0) :
    2 ^ dropped bits n * 2 ^ (bits - 1) ≤ n := by
  have large := mt (dropped_le_iff some (n := n) (k := dropped bits n - 1)).mpr (by omega)
  rw [← Nat.pow_add, show dropped bits n + (bits - 1) = dropped bits n - 1 + bits by omega]
  omega

/-- The error is at most one in `2 ^ bits`. -/
theorem roundBits_close (some : 0 < bits) (n : Nat) :
    2 ^ bits * roundBits bits n ≤ 2 ^ bits * n + n ∧
      2 ^ bits * n ≤ 2 ^ bits * roundBits bits n + n := by
  by_cases none : dropped bits n = 0
  · have small := (dropped_le_iff some (n := n) (k := 0)).mp (by omega)
    rw [Nat.zero_add] at small
    rw [roundBits_of_lt some small]
    omega
  · obtain ⟨above, below⟩ := nearest_close (Nat.two_pow_pos (dropped bits n)) n
    have large := pow_le_of_dropped some none
    have twice : 2 ^ bits = 2 ^ (bits - 1) * 2 := by
      rw [← Nat.pow_succ, Nat.succ_eq_add_one, Nat.sub_add_cancel some]
    have scaled {x y : Nat} (close : 2 * x ≤ 2 * y + 2 ^ dropped bits n) :
        2 ^ bits * x ≤ 2 ^ bits * y + n :=
      calc
        2 ^ bits * x = 2 ^ (bits - 1) * (2 * x) := by rw [twice, Nat.mul_assoc]
        _ ≤ 2 ^ (bits - 1) * (2 * y + 2 ^ dropped bits n) := Nat.mul_le_mul_left _ close
        _ = 2 ^ bits * y + 2 ^ dropped bits n * 2 ^ (bits - 1) := by
          rw [Nat.mul_add, ← Nat.mul_assoc, ← twice, Nat.mul_comm (2 ^ (bits - 1))]
        _ ≤ 2 ^ bits * y + n := Nat.add_le_add_left large _
    exact ⟨scaled above, scaled below⟩

theorem roundBits_mono (some : 0 < bits) (le : n ≤ n') : roundBits bits n ≤ roundBits bits n' := by
  have room := (dropped_le_iff some (n := n)).mp (Nat.le_refl _)
  have more : dropped bits n ≤ dropped bits n' :=
    (dropped_le_iff some).mpr (Nat.lt_of_le_of_lt le ((dropped_le_iff some).mp (Nat.le_refl _)))
  by_cases same : dropped bits n = dropped bits n'
  · rw [roundBits, roundBits, same]
    exact Nat.mul_le_mul_left _ (nearest_mono le _)
  · -- a power of two with few digits lies between them
    have large := nearest_mono (pow_le_of_dropped some (n := n') (by omega)) (2 ^ dropped bits n')
    have small := nearest_mono (Nat.le_of_lt room) (2 ^ dropped bits n)
    rw [nearest_mul (Nat.two_pow_pos _)] at large
    rw [Nat.pow_add, nearest_mul (Nat.two_pow_pos _)] at small
    calc
      roundBits bits n ≤ 2 ^ dropped bits n * 2 ^ bits := Nat.mul_le_mul_left _ small
      _ = 2 ^ (dropped bits n + bits) := (Nat.pow_add ..).symm
      _ ≤ 2 ^ (dropped bits n' + (bits - 1)) := Nat.pow_le_pow_right Nat.two_pos (by omega)
      _ = 2 ^ dropped bits n' * 2 ^ (bits - 1) := Nat.pow_add ..
      _ ≤ roundBits bits n' := Nat.mul_le_mul_left _ large

end Rounding
