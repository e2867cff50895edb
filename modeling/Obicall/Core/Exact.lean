/-
Exact arithmetic: an ordered field as the number type of the code. Every
number is finite, and the comparisons are the field's own, so that what
is proved of the code there is free of rounding.

Square roots are the one operation that a field may lack. `SquareRoot`
supplies some function for it; what is proved here uses none of its
values.

The operations of `exactArith` are the field's, so `ring` and `linarith`
read what the code computes. The lemmas here turn its tests and its
literals into the field's.
-/
import Mathlib.Algebra.Order.Field.Basic
import Mathlib.Data.Rat.Cast.OfScientific
import Mathlib.Data.Rat.Sqrt
import Mathlib.Tactic.NormNum
import Mathlib.Tactic.NormNum.OfScientific
import Obicall.Core.Types

namespace Obicall

/-- What stands for `sqrt`. -/
class SquareRoot (K : Type) where
  squareRoot : K → K

instance : SquareRoot ℚ := ⟨Rat.sqrt⟩

-- a field's own operations come first
attribute [instance (50)] DoubleArith.toAdd DoubleArith.toSub
  DoubleArith.toMul DoubleArith.toDiv DoubleArith.toNeg
  DoubleArith.toOfScientific

variable {K : Type} [Field K] [LinearOrder K] [SquareRoot K]

instance exactArith : DoubleArith K where
  toAdd := inferInstance
  toSub := inferInstance
  toMul := inferInstance
  toDiv := inferInstance
  toNeg := inferInstance
  toOfScientific := inferInstance
  lt x y := x < y
  le x y := x ≤ y
  eq x y := x = y
  isFinite _ := true
  fabs x := |x|
  sqrt := SquareRoot.squareRoot
  ofInt64 n := (n.toInt : K)

@[simp] theorem exact_lt (x y : K) : DoubleArith.lt x y = decide (x < y) :=
  rfl

@[simp] theorem exact_le (x y : K) : DoubleArith.le x y = decide (x ≤ y) :=
  rfl

@[simp] theorem exact_eq (x y : K) : DoubleArith.eq x y = decide (x = y) :=
  rfl

@[simp] theorem exact_isFinite (x : K) : DoubleArith.isFinite x = true := rfl

@[simp] theorem exact_fabs (x : K) : DoubleArith.fabs x = |x| := rfl

variable [IsStrictOrderedRing K]

@[simp] theorem exact_zero :
    @OfScientific.ofScientific K exactArith.toOfScientific 0 true 1 = 0 := by
  change (0.0 : K) = 0
  norm_num

@[simp] theorem exact_one :
    @OfScientific.ofScientific K exactArith.toOfScientific 10 true 1 = 1 := by
  change (1.0 : K) = 1
  norm_num

end Obicall
