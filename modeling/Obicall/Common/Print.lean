/-
`%.9g` of a double, correctly rounded as the C library prints it, and
`strtod` on what it prints.

A positive finite number is a fraction `n / d`. Its first nine significant
digits are an integer, `nineDigits`, with the power of ten of the first of
them; trailing zeros are left out, and an exponent is written below `-4`
and from `9` on.
-/
import Obicall.Common.Args

namespace Obicall

namespace Binary64

/-- The power of ten of the first digit of `n / d`. -/
def firstPower (n d : Nat) : Int :=
  if d ≤ n then (Lib.Decimal.digits (n / d)).length - 1
  else -(Lib.Decimal.digits ((d - 1) / n)).length

/-- Nine digits of `n / d`, and the power of ten of the first of them. -/
def nineDigits (n d : Nat) : Nat × Int :=
  let x := firstPower n d
  let m := nearest (n * 10 ^ (8 - x).toNat) (d * 10 ^ (x - 8).toNat)
  if m = 1000000000 then (100000000, x + 1) else (m, x)

/-- Digits with others behind a point, up to the last that is not zero. -/
def pointed (int fraction : List UInt8) : List UInt8 :=
  let kept := (fraction.reverse.dropWhile (· == 0x30)).reverse
  int ++ if kept = [] then [] else 0x2E :: kept

/-- `e+05` and the like. -/
def exponentText (x : Int) : List UInt8 :=
  0x65 :: (if x < 0 then 0x2D else 0x2B)
    :: ((if x.natAbs < 10 then [0x30] else [])
      ++ Lib.Decimal.digits x.natAbs)

def printPositive (n d : Nat) : List UInt8 :=
  let m := nineDigits n d
  let ds := Lib.Decimal.digits m.1
  if m.2 < -4 ∨ 9 ≤ m.2 then
    pointed (ds.take 1) (ds.drop 1) ++ exponentText m.2
  else if m.2 < 0 then
    pointed [0x30] (List.replicate (-m.2 - 1).toNat 0x30 ++ ds)
  else pointed (ds.take (m.2.toNat + 1)) (ds.drop (m.2.toNat + 1))

def printAbs (x : Binary64) : List UInt8 :=
  if x.isNan then ascii "nan"
  else if !x.isFinite then ascii "inf"
  else if x.isZero then [0x30]
  else printPositive (x.significand * 2 ^ x.exponent.toNat)
    (2 ^ (-x.exponent).toNat)

/-- `%.9g`. -/
def printG9 (x : Binary64) : List UInt8 :=
  if x.negative then 0x2D :: printAbs x else printAbs x

/-- `strtod` on a decimal number, and on the two words that `%.9g` writes
for what is none. -/
def strtodPrefix (text : List UInt8) : Binary64 :=
  let s := signed? text
  if s.2.take 3 = ascii "nan" then nan
  else if s.2.take 3 = ascii "inf" then inf s.1
  else (strtod text).getD (pack false 0)

theorem printAbs_head (x : Binary64) : ∀ c ∈ (printAbs x).head?, c ≠ 0x2D := by
  have hdigits : ∀ m k, ∀ c ∈ ((Lib.Decimal.digits m).take (k + 1)).head?,
      c ≠ 0x2D := by
    intro m k c hc
    rw [List.head?_take, if_neg (Nat.succ_ne_zero k)] at hc
    have hdigit := Lib.Decimal.isDigit_of_mem_digits
      (List.mem_of_mem_head? hc)
    exact (Lib.Decimal.isDigit_plain hdigit).2.1
  have hne : ∀ m k, (Lib.Decimal.digits m).take (k + 1) ≠ [] := by
    intro m k h
    rcases List.take_eq_nil_iff.mp h with hk | hnil
    · cases hk
    · exact Lib.Decimal.digits_ne_nil m hnil
  have hhead : ∀ m k rest,
      ∀ c ∈ ((Lib.Decimal.digits m).take (k + 1) ++ rest).head?,
        c ≠ 0x2D := by
    intro m k rest c hc
    rw [List.head?_append_of_ne_nil _ (hne m k)] at hc
    exact hdigits m k c hc
  unfold printAbs
  split
  · intro c hc
    cases hc
    decide
  split
  · intro c hc
    cases hc
    decide
  split
  · intro c hc
    cases hc
    decide
  unfold printPositive pointed
  dsimp only
  split
  · rw [List.append_assoc]
    exact hhead _ 0 _
  split
  · intro c hc
    obtain rfl := Option.some.inj hc
    decide
  · exact hhead _ _ _

end Binary64

instance : DoublePrint Binary64 where
  printG9 := Binary64.printG9
  strtodPrefix := Binary64.strtodPrefix
  printG9_plain x := by
    have hhead := Binary64.printAbs_head x
    unfold Binary64.printG9
    split
    · intro hopt
      unfold OptionLike at hopt
      rw [List.take_succ_cons] at hopt
      have htail := (List.cons.inj hopt).2
      cases habs : Binary64.printAbs x with
      | nil =>
          rw [habs] at htail
          cases htail
      | cons c rest =>
          rw [habs] at hhead htail
          exact hhead c rfl (List.cons.inj htail).1
    · intro hopt
      unfold OptionLike at hopt
      cases habs : Binary64.printAbs x with
      | nil =>
          rw [habs] at hopt
          cases hopt
      | cons c rest =>
          rw [habs] at hhead hopt
          exact hhead c rfl (List.cons.inj hopt).1

example : Binary64.printG9 0.05 = ascii "0.05"
    ∧ Binary64.printG9 (1.0 / 3.0) = ascii "0.333333333"
    ∧ Binary64.printG9 (1.0 / 3e-20) = ascii "3.33333333e+19"
    ∧ Binary64.strtodPrefix (ascii "0.05") = 0.05 := by decide +kernel

end Obicall
