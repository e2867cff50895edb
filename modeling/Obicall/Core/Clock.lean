/-
Nanoseconds as seconds.

The code subtracts two `int64_t` times, converts the difference to a
double and divides by `1e9`. Both operations round, so that is not the
difference in seconds; but it has the difference's sign, and of two
differences the larger one never gives less. `ClockArith` states what
is needed, of exact numbers (where nothing is rounded) and of doubles.
-/
import Mathlib.Data.List.Basic
import Obicall.Core.Exact
import Obicall.Core.Rounding

namespace Obicall

open DoubleArith

-- ================================================================== class

/-- `(double)n / 1e9`. -/
def seconds {F : Type} [DoubleArith F] (n : Int64) : F := ofInt64 n / 1e9

/-- Seconds compare as the nanoseconds do. -/
class ClockArith (F : Type) [DoubleArith F] : Prop where
  seconds_neg : ∀ n : Int64, n.toInt < 0 →
    lt (seconds n : F) 0.0 = true
  seconds_nonneg : ∀ n : Int64, 0 ≤ n.toInt →
    lt (seconds n : F) 0.0 = false
  seconds_zero : ∀ x : F, lt 0.0 x = true → lt x (seconds 0) = false
  seconds_mono : ∀ (x : F) (m n : Int64), 0 ≤ m.toInt →
    m.toInt ≤ n.toInt → lt x (seconds m) = true → lt x (seconds n) = true

-- ================================================================ doubles

namespace Binary64

theorem ofInt_eq (n : Int) :
    ofInt n = pack (n < 0) (magnitude n.natAbs 1 0) :=
  round_eq _ _ one_pos _

theorem magnitude_int_mono {m n : Nat} (h : m ≤ n) :
    magnitude m 1 0 ≤ magnitude n 1 0 :=
  magnitude_mono one_pos
    (mul_le_mul_of_nonneg_right
      (div_le_div_of_nonneg_right (Nat.cast_le.mpr h) (Nat.cast_nonneg 1))
      (zpow_pos two_pos 0).le)

/-- No 64-bit integer is rounded to infinity. -/
theorem magnitude_lt {m : Nat} (h : m ≤ 2 ^ 63) :
    magnitude m 1 0 < infBody := by
  have htop : magnitude (2 ^ 63) 1 0 = (round false (2 ^ 63) 1 0).body := by
    rw [round_eq _ _ one_pos, body_pack]
    exact (magnitude_le ..).trans_lt (by decide)
  refine (magnitude_int_mono h).trans_lt ?_
  rw [htop]
  decide +kernel

theorem isNan_of_isFinite {x : Binary64} (h : x.isFinite = true) :
    x.isNan = false := by
  rw [isFinite, expField, decide_eq_true_iff] at h
  rw [isNan, decide_eq_false_iff_not]
  omega

/-- A quotient by `1e9` is rounded once. -/
theorem div_billion {x : Binary64} (hx : x.isFinite = true) :
    x / 1e9 = pack x.negative (magnitude x.significand
      (1e9 : Binary64).significand
      (x.exponent - (1e9 : Binary64).exponent)) := by
  have hnan : (1e9 : Binary64).isNan = false := by decide +kernel
  have hfin : (1e9 : Binary64).isFinite = true := by decide +kernel
  have hzero : (1e9 : Binary64).isZero = false := by decide +kernel
  have hneg : (1e9 : Binary64).negative = false := by decide +kernel
  have hsig : 0 < (1e9 : Binary64).significand := by decide +kernel
  have hround : x / 1e9 = round x.negative x.significand
      (1e9 : Binary64).significand
      (x.exponent - (1e9 : Binary64).exponent) := by
    change div x 1e9 = _
    simp only [div, isNan_of_isFinite hx, hnan, hx, hfin, hzero, hneg,
      Bool.or_self, Bool.not_true, Bool.false_eq_true, ↓reduceIte,
      Bool.bne_false]
  rw [hround, round_eq _ _ hsig]

/-- The body of the seconds of `m` nanoseconds, of either sign. -/
def secondsBody (m : Nat) : Nat :=
  let x := pack false (magnitude m 1 0)
  magnitude x.significand (1e9 : Binary64).significand
    (x.exponent - (1e9 : Binary64).exponent)

theorem lt_of_le_infBody {b : Nat} (h : b ≤ infBody) : b < 2 ^ 63 :=
  h.trans_lt (by decide)

theorem seconds_eq (n : Int64) :
    (seconds n : Binary64)
      = pack (n.toInt < 0) (secondsBody n.toInt.natAbs) := by
  have hle := Int64.le_toInt n
  have hlt := Int64.toInt_lt n
  have hbound : n.toInt.natAbs ≤ 2 ^ 63 := by omega
  have hsmall := lt_of_le_infBody (magnitude_le n.toInt.natAbs 1 0)
  have hbody : (ofInt n.toInt).body = magnitude n.toInt.natAbs 1 0 := by
    rw [ofInt_eq, body_pack hsmall]
  have hfin : (ofInt n.toInt).isFinite = true := by
    have := magnitude_lt hbound
    rw [infBody] at this
    rw [isFinite, expField, hbody, decide_eq_true_iff]
    omega
  have hsame : (pack false (magnitude n.toInt.natAbs 1 0)).body
      = (ofInt n.toInt).body := by
    rw [hbody, body_pack hsmall]
  show ofInt n.toInt / 1e9 = _
  rw [div_billion hfin, ofInt_eq, negative_pack hsmall, ← ofInt_eq,
    secondsBody]
  rw [significand_eq, significand_eq (pack _ _), exponent_eq,
    exponent_eq (pack _ _), hsame]

theorem secondsBody_lt (m : Nat) : secondsBody m < 2 ^ 63 :=
  lt_of_le_infBody (magnitude_le ..)

/-- More nanoseconds never give less seconds. -/
theorem secondsBody_mono {m n : Nat} (h : m ≤ n) :
    secondsBody m ≤ secondsBody n := by
  have hvalue : (pack false (magnitude m 1 0)).value
      ≤ (pack false (magnitude n 1 0)).value := by
    rw [value, value, body_pack (lt_of_le_infBody (magnitude_le ..)),
      body_pack (lt_of_le_infBody (magnitude_le ..))]
    exact Lib.Rounding.decode_mono (magnitude_int_mono h)
  have hquot : ∀ x : Binary64,
      (x.significand : ℚ) / (1e9 : Binary64).significand
          * 2 ^ (x.exponent - (1e9 : Binary64).exponent)
        = x.value / (1e9 : Binary64).value := by
    intro x
    rw [value_eq, value_eq, zpow_sub₀ two_ne_zero, div_mul_div_comm]
  refine magnitude_mono (by decide +kernel) ?_
  rw [hquot, hquot]
  refine div_le_div_of_nonneg_right hvalue ?_
  rw [value_eq]
  exact mul_nonneg (Nat.cast_nonneg _) (zpow_pos two_pos _).le

theorem secondsBody_zero : secondsBody 0 = 0 := by
  have h := congrArg Binary64.body (seconds_eq 0)
  rw [body_pack (secondsBody_lt _)] at h
  exact h.symm.trans (by decide +kernel)

theorem secondsBody_pos {m : Nat} (h : 0 < m) : 0 < secondsBody m := by
  have h1 := congrArg Binary64.body (seconds_eq 1)
  rw [body_pack (secondsBody_lt _)] at h1
  have hone : 0 < secondsBody 1 := h1 ▸ (by decide +kernel)
  exact hone.trans_le (secondsBody_mono h)

theorem order_seconds (n : Int64) :
    (seconds n : Binary64).order = if n.toInt < 0
      then -(secondsBody n.toInt.natAbs : Int)
      else secondsBody n.toInt.natAbs := by
  rw [seconds_eq, order_pack (secondsBody_lt _)]
  simp only [decide_eq_true_iff]

theorem isNan_seconds (n : Int64) : (seconds n : Binary64).isNan = false := by
  have hle : secondsBody n.toInt.natAbs ≤ infBody := magnitude_le ..
  rw [infBody] at hle
  rw [seconds_eq, isNan, body_pack (secondsBody_lt _),
    decide_eq_false_iff_not]
  omega

theorem lt_eq_true_iff {x y : Binary64} :
    DoubleArith.lt x y = true
      ↔ x.isNan = false ∧ y.isNan = false ∧ x.order < y.order := by
  show (!x.isNan && !y.isNan && decide (x.order < y.order)) = true ↔ _
  simp [and_assoc]

theorem order_zero : (0.0 : Binary64).order = 0 := by decide +kernel

theorem isNan_zero : (0.0 : Binary64).isNan = false := by decide +kernel

end Binary64

instance : ClockArith Binary64 where
  seconds_neg n hn := by
    have hpos := Binary64.secondsBody_pos (m := n.toInt.natAbs) (by omega)
    rw [Binary64.lt_eq_true_iff, Binary64.order_seconds, if_pos hn,
      Binary64.order_zero]
    exact ⟨Binary64.isNan_seconds n, Binary64.isNan_zero, by omega⟩
  seconds_nonneg n hn := by
    rw [← Bool.not_eq_true, Binary64.lt_eq_true_iff, Binary64.order_seconds,
      if_neg (Int.not_lt.mpr hn), Binary64.order_zero]
    rintro ⟨-, -, h⟩
    omega
  seconds_zero x hx := by
    rw [Binary64.lt_eq_true_iff, Binary64.order_zero] at hx
    rw [← Bool.not_eq_true, Binary64.lt_eq_true_iff, Binary64.order_seconds,
      if_neg (by decide), show (0 : Int64).toInt.natAbs = 0 from rfl,
      Binary64.secondsBody_zero]
    rintro ⟨-, -, h⟩
    omega
  seconds_mono x m n hm hmn hx := by
    have hmono := Binary64.secondsBody_mono
      (show m.toInt.natAbs ≤ n.toInt.natAbs by omega)
    rw [Binary64.lt_eq_true_iff, Binary64.order_seconds] at hx ⊢
    rw [if_neg (Int.not_lt.mpr hm)] at hx
    rw [if_neg (Int.not_lt.mpr (hm.trans hmn))]
    exact ⟨hx.1, Binary64.isNan_seconds n, by omega⟩

-- ========================================================== exact numbers

variable {K : Type} [Field K] [LinearOrder K] [SquareRoot K]
  [IsStrictOrderedRing K]

omit [IsStrictOrderedRing K] in
theorem exact_seconds (n : Int64) : (seconds n : K) = n.toInt / 1e9 := rfl

instance : ClockArith K where
  seconds_neg n hn := by
    have hn' : (n.toInt : K) < 0 := by exact_mod_cast hn
    rw [exact_seconds, exact_lt, exact_zero, decide_eq_true_iff]
    exact div_neg_of_neg_of_pos hn' (by norm_num)
  seconds_nonneg n hn := by
    have hn' : (0 : K) ≤ n.toInt := by exact_mod_cast hn
    rw [exact_seconds, exact_lt, exact_zero, decide_eq_false_iff_not, not_lt]
    exact div_nonneg hn' (by norm_num)
  seconds_zero x hx := by
    rw [exact_lt, exact_zero, decide_eq_true_iff] at hx
    rw [exact_seconds, exact_lt, decide_eq_false_iff_not, not_lt]
    simpa using hx.le
  seconds_mono x m n _ hmn hx := by
    have hmn' : (m.toInt : K) ≤ n.toInt := by exact_mod_cast hmn
    rw [exact_seconds, exact_lt, decide_eq_true_iff] at hx ⊢
    exact hx.trans_le (div_le_div_of_nonneg_right hmn' (by norm_num))

end Obicall
