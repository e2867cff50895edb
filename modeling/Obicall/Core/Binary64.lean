/-
IEEE 754 binary64 arithmetic, as the machines the code is built for
compute it: round to nearest, ties to even, with signed zeros,
infinities, a quiet NaN and gradual underflow.

A finite number is an integer significand times a power of two, so every
operation is an exact integer computation followed by one rounding
(`Binary64.round`). It is here to run the code on concrete inputs;
nothing that is proved for all number types depends on it.
-/
import Mathlib.Data.List.Basic
import Obicall.Core.Types

namespace Obicall

/-- A double, by its bit pattern. -/
structure Binary64 where
  bits : UInt64
  deriving DecidableEq

namespace Binary64

-- ================================================================ fields

def negative (x : Binary64) : Bool := 2 ^ 63 ≤ x.bits.toNat

/-- The bits without the sign. -/
def body (x : Binary64) : Nat := x.bits.toNat % 2 ^ 63

def expField (x : Binary64) : Nat := x.body / 2 ^ 52

def isFinite (x : Binary64) : Bool := x.expField < 2047

def isNan (x : Binary64) : Bool := 2047 * 2 ^ 52 < x.body

def isZero (x : Binary64) : Bool := x.body = 0

/-- The integer significand of a finite number. -/
def significand (x : Binary64) : Nat :=
  if x.expField = 0 then x.body else x.body % 2 ^ 52 + 2 ^ 52

/-- The exponent that goes with `significand`. -/
def exponent (x : Binary64) : Int := (max x.expField 1 : Nat) - 1075

/-- The significand with its sign. -/
def signed (x : Binary64) : Int :=
  if x.negative then -x.significand else x.significand

def pack (neg : Bool) (body : Nat) : Binary64 :=
  ⟨UInt64.ofNat (body + if neg then 2 ^ 63 else 0)⟩

def inf (neg : Bool) : Binary64 := pack neg (2047 * 2 ^ 52)

def nan : Binary64 := pack false (2047 * 2 ^ 52 + 2 ^ 51)

-- ============================================================== rounding

/-- `n / d` to the nearest integer, ties to even. -/
def nearest (n d : Nat) : Nat :=
  let q := n / d
  let r := n % d
  if 2 * r < d then q
  else if d < 2 * r then q + 1
  else q + q % 2

/-- `n * 2 ^ k / d` for a power of either sign, to the nearest
integer. -/
def scaled (n d : Nat) (k : Int) : Nat :=
  nearest (n * 2 ^ k.toNat) (d * 2 ^ (-k).toNat)

/-- The binary64 nearest to `± n / d * 2 ^ e`. The last bit of the
result has weight `2 ^ unit`; a significand that rounds up to
`2 ^ 53` carries into the exponent field by itself. -/
def round (neg : Bool) (n d : Nat) (e : Int) : Binary64 :=
  if n = 0 then pack neg 0
  else
    let guess : Int := Nat.log2 n - Nat.log2 d
    let lead := if n * 2 ^ (-guess).toNat < d * 2 ^ guess.toNat
      then guess - 1 else guess
    let unit : Int := max (lead + e - 52) (-1074)
    let body := (unit + 1074).toNat * 2 ^ 52 + scaled n d (e - unit)
    if 2047 * 2 ^ 52 ≤ body then inf neg else pack neg body

-- ============================================================ operations

def neg (x : Binary64) : Binary64 := pack (!x.negative) x.body

def abs (x : Binary64) : Binary64 := pack false x.body

def add (x y : Binary64) : Binary64 :=
  if x.isNan || y.isNan then nan
  else if !x.isFinite then
    if !y.isFinite && x.negative != y.negative then nan else x
  else if !y.isFinite then y
  else
    let e := min x.exponent y.exponent
    let s := x.signed * 2 ^ (x.exponent - e).toNat
      + y.signed * 2 ^ (y.exponent - e).toNat
    if s = 0 then pack (x.negative && y.negative) 0
    else round (s < 0) s.natAbs 1 e

def sub (x y : Binary64) : Binary64 := add x (neg y)

def mul (x y : Binary64) : Binary64 :=
  let s := x.negative != y.negative
  if x.isNan || y.isNan then nan
  else if !x.isFinite || !y.isFinite then
    if x.isZero || y.isZero then nan else inf s
  else round s (x.significand * y.significand) 1 (x.exponent + y.exponent)

def div (x y : Binary64) : Binary64 :=
  let s := x.negative != y.negative
  if x.isNan || y.isNan then nan
  else if !x.isFinite then if !y.isFinite then nan else inf s
  else if !y.isFinite then pack s 0
  else if y.isZero then if x.isZero then nan else inf s
  else round s x.significand y.significand (x.exponent - y.exponent)

/-- The largest `r` with `r * r ≤ n`, among those with `k` bits. -/
def isqrt (n : Nat) : Nat → Nat → Nat
  | 0, r => r
  | k + 1, r =>
      let r' := r + 2 ^ k
      isqrt n k (if r' * r' ≤ n then r' else r)

/-- The root of a significand scaled to 120 bits and more, with a sticky
bit for what is below it. -/
def sqrt (x : Binary64) : Binary64 :=
  if x.isNan then nan
  else if x.isZero then x
  else if x.negative then nan
  else if !x.isFinite then x
  else
    let e := x.exponent - x.exponent % 2 - 120
    let n := x.significand * 2 ^ (x.exponent - e).toNat
    let r := isqrt n 90 0
    round false (2 * r + if r * r = n then 0 else 1) 1 (e / 2 - 1)

/-- The number a comparison looks at: the two zeros are one. -/
def order (x : Binary64) : Int := if x.negative then -x.body else x.body

def compare (rel : Int → Int → Bool) (x y : Binary64) : Bool :=
  !x.isNan && !y.isNan && rel x.order y.order

def ofInt (n : Int) : Binary64 := round (n < 0) n.natAbs 1 0

end Binary64

instance : DoubleBits Binary64 where
  toBits x := x.bits
  ofBits b := ⟨b⟩
  ofBits_toBits _ := rfl
  toBits_ofBits _ := rfl

instance : DoubleArith Binary64 where
  add := Binary64.add
  sub := Binary64.sub
  mul := Binary64.mul
  div := Binary64.div
  neg := Binary64.neg
  ofScientific m s e :=
    if s then Binary64.round false m (10 ^ e) 0
    else Binary64.round false (m * 10 ^ e) 1 0
  lt := Binary64.compare fun a b => a < b
  le := Binary64.compare fun a b => a ≤ b
  eq := Binary64.compare fun a b => a = b
  isFinite := Binary64.isFinite
  fabs := Binary64.abs
  sqrt := Binary64.sqrt
  ofInt64 n := Binary64.ofInt n.toInt

-- ========================================================= finite results

namespace Binary64

theorem not_isFinite_nan : nan.isFinite = false := by decide +kernel

theorem not_isFinite_inf (neg : Bool) : (inf neg).isFinite = false := by
  cases neg <;> decide +kernel

/-- A finite sum is one of finite numbers. -/
theorem isFinite_of_add {x y : Binary64} (h : (x + y).isFinite = true) :
    x.isFinite = true ∧ y.isFinite = true := by
  change (add x y).isFinite = true at h
  rw [add] at h
  split at h
  · rw [not_isFinite_nan] at h
    cases h
  split at h
  next hx =>
    rw [Bool.not_eq_true'] at hx
    split at h
    · rw [not_isFinite_nan] at h
      cases h
    · rw [hx] at h
      cases h
  next hx =>
    rw [Bool.not_eq_true', Bool.not_eq_false] at hx
    split at h
    next hy =>
      rw [Bool.not_eq_true'] at hy
      rw [hy] at h
      cases h
    next hy =>
      rw [Bool.not_eq_true', Bool.not_eq_false] at hy
      exact ⟨hx, hy⟩

theorem isFinite_of_mul {x y : Binary64} (h : (x * y).isFinite = true) :
    x.isFinite = true ∧ y.isFinite = true := by
  change (mul x y).isFinite = true at h
  rw [mul] at h
  split at h
  · rw [not_isFinite_nan] at h
    cases h
  split at h
  · split at h
    · rw [not_isFinite_nan] at h
      cases h
    · rw [not_isFinite_inf] at h
      cases h
  next hxy =>
    rw [Bool.or_eq_true, not_or, Bool.not_eq_true', Bool.not_eq_true',
      Bool.not_eq_false, Bool.not_eq_false] at hxy
    exact hxy

/-- A finite quotient is one of a finite number by a number that is not
zero. -/
theorem isFinite_of_div {x y : Binary64} (h : (x / y).isFinite = true) :
    x.isFinite = true ∧ y.isNan = false ∧ y.isZero = false := by
  change (div x y).isFinite = true at h
  rw [div] at h
  split at h
  · rw [not_isFinite_nan] at h
    cases h
  next hnan =>
    rw [Bool.not_eq_true, Bool.or_eq_false_iff] at hnan
    split at h
    · split at h
      · rw [not_isFinite_nan] at h
        cases h
      · rw [not_isFinite_inf] at h
        cases h
    next hx =>
      rw [Bool.not_eq_true', Bool.not_eq_false] at hx
      refine ⟨hx, hnan.2, ?_⟩
      split at h
      next hy =>
        rw [Bool.not_eq_true'] at hy
        rw [isFinite, expField, decide_eq_false_iff_not] at hy
        rw [isZero, decide_eq_false_iff_not]
        omega
      · split at h
        · split at h
          · rw [not_isFinite_nan] at h
            cases h
          · rw [not_isFinite_inf] at h
            cases h
        next hzero => exact Bool.not_eq_true _ ▸ hzero

end Binary64

/-- The textbook sum that is not the literal. -/
example : (0.1 + 0.2 : Binary64) ≠ 0.3
    ∧ (0.1 + 0.2 : Binary64) = ⟨0x3FD3333333333334⟩ := by decide +kernel

end Obicall
