/-
Differences of two readings of a signed 64-bit clock.

The machine's difference is the true one when that fits
(`toInt_sub_of_fits`). The difference of readings in order that does not
fit comes out 2^64 too small (`toInt_sub_of_wraps`), so it is never above
the true one (`toInt_sub_le`): a test for "longer ago than this" can only
miss, not fire too early.
-/
import Mathlib.Algebra.Ring.Int.Defs

namespace Lib.Elapsed

variable {a b : Int64}

theorem toInt_sub_of_fits (hlo : -2 ^ 63 ≤ b.toInt - a.toInt)
    (hhi : b.toInt - a.toInt < 2 ^ 63) :
    (b - a).toInt = b.toInt - a.toInt := by
  rw [Int64.toInt_sub]
  apply Int.bmod_eq_of_le_mul_two
  · omega
  · omega

/-- Of readings in order only the upper bound can be missed. -/
theorem toInt_sub_of_le (hle : a ≤ b)
    (hhi : b.toInt - a.toInt < 2 ^ 63) :
    (b - a).toInt = b.toInt - a.toInt := by
  have hle' := Int64.le_iff_toInt_le.mp hle
  exact toInt_sub_of_fits (by omega) hhi

theorem toInt_sub_of_wraps (h : ¬ b.toInt - a.toInt < 2 ^ 63) :
    (b - a).toInt = b.toInt - a.toInt - 2 ^ 64 := by
  have hb := b.toInt_lt
  have ha := a.le_toInt
  rw [Int64.toInt_sub, Int.bmod_def]
  omega

/-- A difference that does not fit comes out negative. -/
theorem toInt_sub_neg_of_wraps (h : ¬ b.toInt - a.toInt < 2 ^ 63) :
    (b - a).toInt < 0 := by
  have hb := b.toInt_lt
  have ha := a.le_toInt
  rw [toInt_sub_of_wraps h]
  omega

/-- The machine never sees more time between readings in order than there
was. -/
theorem toInt_sub_le (hle : a ≤ b) :
    (b - a).toInt ≤ b.toInt - a.toInt := by
  by_cases h : b.toInt - a.toInt < 2 ^ 63
  · exact Int.le_of_eq (toInt_sub_of_le hle h)
  · rw [toInt_sub_of_wraps h]
    omega

/-- So what the machine sees to be longer ago than `d` is. -/
theorem lt_of_lt_sub {d : Int64} (hle : a ≤ b) (h : d < b - a) :
    a.toInt + d.toInt < b.toInt := by
  have hsub := toInt_sub_le hle
  have hlt := Int64.lt_iff_toInt_lt.mp h
  omega

end Lib.Elapsed
