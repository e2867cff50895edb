/-
Integers as decimal text, written as `printf` does and read as `strtoll`
and `scanf` do: leading white space, a sign, digits, and an end at the
first byte that is none.

`readInt_showInt` is the round trip, with anything behind the digits that
does not go on with one. `length_showInt_le` bounds what is written, so
that a buffer can be known to hold it.
-/
import Mathlib.Algebra.Group.Nat.Defs
import Mathlib.Data.List.Basic

namespace Lib.Decimal

-- ================================================================= digits

def isDigit (c : UInt8) : Bool := 0x30 ≤ c && c ≤ 0x39

/-- The digit of a number below ten. -/
def digit (n : Nat) : UInt8 := UInt8.ofNat (0x30 + n)

def digitValue (c : UInt8) : Nat := c.toNat - 0x30

theorem isDigit_digit {n : Nat} (h : n < 10) : isDigit (digit n) = true := by
  unfold isDigit digit
  rw [Bool.and_eq_true, decide_eq_true_iff, decide_eq_true_iff,
    UInt8.le_iff_toNat_le, UInt8.le_iff_toNat_le, UInt8.toNat_ofNat']
  simp only [UInt8.reduceToNat]
  omega

theorem digitValue_digit {n : Nat} (h : n < 10) : digitValue (digit n) = n := by
  unfold digitValue digit
  rw [UInt8.toNat_ofNat']
  omega

/-- The digits of a number; the fuel is never short. -/
def digitsFuel : Nat → Nat → List UInt8
  | 0, _ => []
  | fuel + 1, n =>
      if n < 10 then [digit n]
      else digitsFuel fuel (n / 10) ++ [digit (n % 10)]

/-- `%llu`. -/
def digits (n : Nat) : List UInt8 := digitsFuel (n + 1) n

theorem digitsFuel_eq {n : Nat} {fuel fuel' : Nat} (h : n < fuel)
    (h' : n < fuel') : digitsFuel fuel n = digitsFuel fuel' n := by
  induction fuel generalizing n fuel' with
  | zero => omega
  | succ fuel ih =>
      cases fuel' with
      | zero => omega
      | succ fuel' =>
          unfold digitsFuel
          by_cases hn : n < 10
          · rw [if_pos hn, if_pos hn]
          · have hrest : digitsFuel fuel (n / 10) = digitsFuel fuel' (n / 10) :=
              ih (by omega) (by omega)
            rw [if_neg hn, if_neg hn, hrest]

theorem digits_lt {n : Nat} (h : n < 10) : digits n = [digit n] := by
  unfold digits digitsFuel
  rw [if_pos h]

theorem digits_ge {n : Nat} (h : ¬ n < 10) :
    digits n = digits (n / 10) ++ [digit (n % 10)] := by
  have hrest : digitsFuel n (n / 10) = digitsFuel (n / 10 + 1) (n / 10) :=
    digitsFuel_eq (by omega) (Nat.lt_succ_self _)
  show digitsFuel (n + 1) n = digitsFuel (n / 10 + 1) (n / 10) ++ _
  rw [digitsFuel, if_neg h, hrest]

/-- The induction along which numbers are written. -/
theorem digits_induct {P : Nat → Prop} (hsmall : ∀ n, n < 10 → P n)
    (hstep : ∀ n, ¬ n < 10 → P (n / 10) → P n) (n : Nat) : P n := by
  induction n using Nat.strongRecOn with
  | ind n ih =>
      by_cases h : n < 10
      · exact hsmall n h
      · exact hstep n h (ih (n / 10) (by omega))

theorem isDigit_of_mem_digits {n : Nat} {c : UInt8} (h : c ∈ digits n) :
    isDigit c = true := by
  induction n using digits_induct with
  | hsmall n hn =>
      rw [digits_lt hn, List.mem_singleton] at h
      rw [h]
      exact isDigit_digit hn
  | hstep n hn ih =>
      rw [digits_ge hn, List.mem_append, List.mem_singleton] at h
      rcases h with h | h
      · exact ih h
      · rw [h]
        exact isDigit_digit (Nat.mod_lt n (by decide))

theorem digits_ne_nil (n : Nat) : digits n ≠ [] := by
  by_cases h : n < 10
  · rw [digits_lt h]
    exact List.cons_ne_nil _ _
  · rw [digits_ge h]
    exact List.append_ne_nil_of_right_ne_nil _ (List.cons_ne_nil _ _)

theorem length_digits_le {n k : Nat} (h : n < 10 ^ (k + 1)) :
    (digits n).length ≤ k + 1 := by
  induction n using digits_induct generalizing k with
  | hsmall n hn =>
      rw [digits_lt hn, List.length_singleton]
      omega
  | hstep n hn ih =>
      cases k with
      | zero => omega
      | succ k =>
          have hdiv : n / 10 < 10 ^ (k + 1) := by
            rw [Nat.pow_succ] at h
            omega
          rw [digits_ge hn, List.length_append, List.length_singleton]
          exact Nat.succ_le_succ (ih hdiv)

/-- The number that digits stand for. -/
def value (s : List UInt8) : Nat :=
  s.foldl (fun n c => n * 10 + digitValue c) 0

theorem value_digits (n : Nat) : value (digits n) = n := by
  induction n using digits_induct with
  | hsmall n hn =>
      rw [digits_lt hn]
      show 0 * 10 + digitValue (digit n) = n
      rw [digitValue_digit hn]
      omega
  | hstep n hn ih =>
      unfold value at ih ⊢
      rw [digits_ge hn, List.foldl_append, ih]
      show n / 10 * 10 + digitValue (digit (n % 10)) = n
      rw [digitValue_digit (Nat.mod_lt n (by decide))]
      omega

-- =============================================================== integers

/-- `isspace`. -/
def isSpace (c : UInt8) : Bool := c == 0x20 || (0x09 ≤ c && c ≤ 0x0D)

/-- `%lld`. -/
def showInt (v : Int) : List UInt8 :=
  if v < 0 then 0x2D :: digits v.natAbs else digits v.natAbs

/-- The digits at the front, `none` where there are none. -/
def readNat (s : List UInt8) : Option Nat :=
  let ds := s.takeWhile isDigit
  if ds = [] then none else some (value ds)

/-- The integer at the front of a text. -/
def readInt (s : List UInt8) : Option Int :=
  match s.dropWhile isSpace with
  | [] => none
  | c :: rest =>
      if c = 0x2D then (readNat rest).map fun n => -Int.ofNat n
      else if c = 0x2B then (readNat rest).map Int.ofNat
      else (readNat (c :: rest)).map Int.ofNat

/-- What follows a number in a text: the end, or no digit. -/
def EndsNumber (rest : List UInt8) : Prop :=
  ∀ c ∈ rest.head?, isDigit c = false

theorem endsNumber_nil : EndsNumber [] := fun _ h => by cases h

theorem readNat_digits {rest : List UInt8} (h : EndsNumber rest) (n : Nat) :
    readNat (digits n ++ rest) = some n := by
  have hrest : rest.takeWhile isDigit = [] := by
    cases rest with
    | nil => rfl
    | cons c rest =>
        rw [List.takeWhile_cons_of_neg]
        rw [h c rfl]
        exact Bool.false_ne_true
  have hdigits : (digits n ++ rest).takeWhile isDigit = digits n := by
    rw [List.takeWhile_append_of_pos fun c hc => isDigit_of_mem_digits hc,
      hrest, List.append_nil]
  unfold readNat
  dsimp only
  rw [hdigits, if_neg (digits_ne_nil n), value_digits]

/-- A digit is neither white space nor a sign. -/
theorem isDigit_plain {c : UInt8} (h : isDigit c = true) :
    isSpace c = false ∧ c ≠ 0x2D ∧ c ≠ 0x2B := by
  unfold isDigit at h
  rw [Bool.and_eq_true, decide_eq_true_iff, decide_eq_true_iff,
    UInt8.le_iff_toNat_le, UInt8.le_iff_toNat_le] at h
  simp only [UInt8.reduceToNat] at h
  refine ⟨?_, ?_, ?_⟩
  · unfold isSpace
    rw [Bool.or_eq_false_iff, Bool.and_eq_false_iff, decide_eq_false_iff_not,
      decide_eq_false_iff_not, beq_eq_false_iff_ne, UInt8.le_iff_toNat_le,
      UInt8.le_iff_toNat_le, Ne, ← UInt8.toNat_inj]
    simp only [UInt8.reduceToNat]
    omega
  · rw [Ne, ← UInt8.toNat_inj]
    simp only [UInt8.reduceToNat]
    omega
  · rw [Ne, ← UInt8.toNat_inj]
    simp only [UInt8.reduceToNat]
    omega

/-- What is written reads back, whatever follows that is no digit. -/
theorem readInt_showInt {rest : List UInt8} (h : EndsNumber rest) (v : Int) :
    readInt (showInt v ++ rest) = some v := by
  by_cases hv : v < 0
  · have hspace : ¬ isSpace 0x2D = true := by decide
    unfold showInt readInt
    rw [if_pos hv, List.cons_append, List.dropWhile_cons_of_neg hspace]
    dsimp only
    rw [if_pos rfl, readNat_digits h, Option.map_some]
    apply congrArg
    rw [Int.ofNat_eq_natCast]
    omega
  · have hne := digits_ne_nil v.natAbs
    have hall : ∀ c ∈ digits v.natAbs, isDigit c = true :=
      fun c hc => isDigit_of_mem_digits hc
    have hread := readNat_digits h v.natAbs
    unfold showInt readInt
    rw [if_neg hv]
    cases hds : digits v.natAbs with
    | nil => exact absurd hds hne
    | cons c ds =>
        rw [hds] at hall hread
        obtain ⟨hspace, hminus, hplus⟩ :=
          isDigit_plain (hall c List.mem_cons_self)
        rw [List.cons_append] at hread ⊢
        rw [List.dropWhile_cons_of_neg (by rw [hspace]; decide)]
        dsimp only
        rw [if_neg hminus, if_neg hplus, hread, Option.map_some]
        apply congrArg
        rw [Int.ofNat_eq_natCast]
        omega

theorem length_showInt_le {v : Int} {k : Nat} (h : v.natAbs < 10 ^ (k + 1)) :
    (showInt v).length ≤ k + 2 := by
  have hlen := length_digits_le h
  unfold showInt
  split
  · rw [List.length_cons]
    omega
  · omega

end Lib.Decimal
