/-
Symmetric elimination, column by column from the first.

A matrix is a function of two naturals, of which the indices from `j` up
to the dimension `d` count, and `form` is its quadratic form there.

# The rules

- `form_schur`: with a pivot that is not zero the form is a square and
  the form of the Schur complement.
- `minor_succ`: so is the determinant, a product.

# With small pivots left out

A numerical factorisation gives a column whose pivot is small no entries
below it, as if there were nothing (`column`, `remnant`).

- `nonneg_remnant`: of a form that is nowhere negative it leaves one at
  every column, so it meets no negative pivot.
- `kept_of_minors`: the pivots are the ratios of the leading minors, so no
  column is left out where these do not fall too much.
- `kept_or_clear`: the same where the diagonal entry of an index that is
  alone may be anything, as there is nothing to lose below it.
- `form_ge_of_kept`: where no entries are lost, a form whose pivots are not
  far below zero is itself not far below.
-/
import Mathlib.Algebra.BigOperators.Field
import Mathlib.Algebra.BigOperators.Fin
import Mathlib.Algebra.BigOperators.Intervals
import Mathlib.Algebra.BigOperators.Ring.Finset
import Mathlib.Algebra.Order.Chebyshev
import Mathlib.Algebra.Order.Field.Basic
import Mathlib.LinearAlgebra.Matrix.Determinant.Basic
import Mathlib.LinearAlgebra.Matrix.Symmetric
import Mathlib.Tactic.FieldSimp
import Mathlib.Tactic.Linarith
import Mathlib.Tactic.Ring

namespace Lib.Cholesky

open Finset

variable {K : Type} [Field K]

-- ================================================================== forms

/-- The quadratic form over the indices from `j` up to `d`. -/
def form (S : Nat → Nat → K) (j d : Nat) (x : Nat → K) : K :=
  ∑ i ∈ Ico j d, ∑ k ∈ Ico j d, x i * S i k * x k

/-- The column below the pivot, against `x`. -/
def below (S : Nat → Nat → K) (j d : Nat) (x : Nat → K) : K :=
  ∑ i ∈ Ico (j + 1) d, S i j * x i

/-- What eliminating column `j` leaves. With a zero pivot that is
everything. -/
def schur (S : Nat → Nat → K) (j : Nat) : Nat → Nat → K :=
  fun i k => S i k - S i j * S k j / S j j

variable {S T : Nat → Nat → K} {j d : Nat} {x y : Nat → K}

theorem form_congr (hS : ∀ i k, j ≤ i → j ≤ k → S i k = T i k)
    (hx : ∀ i, j ≤ i → x i = y i) : form S j d x = form T j d y := by
  refine sum_congr rfl fun i hi => sum_congr rfl fun k hk => ?_
  obtain ⟨hi, -⟩ := mem_Ico.mp hi
  obtain ⟨hk, -⟩ := mem_Ico.mp hk
  rw [hS i k hi hk, hx i hi, hx k hk]

theorem below_congr (hx : ∀ i, j < i → x i = y i) :
    below S j d x = below S j d y := by
  refine sum_congr rfl fun i hi => ?_
  rw [hx i (mem_Ico.mp hi).1]

theorem form_zero : form S j d 0 = 0 :=
  sum_eq_zero fun i _ => sum_eq_zero fun k _ => by
    rw [Pi.zero_apply, Pi.zero_apply, zero_mul, zero_mul]

/-- The terms of the first index. -/
theorem form_head (hS : ∀ i k, S i k = S k i) (hj : j < d) :
    form S j d x
      = S j j * x j ^ 2 + 2 * x j * below S j d x + form S (j + 1) d x := by
  have hrow : ∑ k ∈ Ico (j + 1) d, x j * S j k * x k
      = x j * below S j d x := by
    rw [below, mul_sum]
    refine sum_congr rfl fun k _ => ?_
    rw [hS j k, mul_assoc]
  have hcol : ∑ i ∈ Ico (j + 1) d, x i * S i j * x j
      = x j * below S j d x := by
    rw [below, mul_sum]
    refine sum_congr rfl fun i _ => ?_
    ring
  rw [form, sum_eq_sum_Ico_succ_bot hj, sum_eq_sum_Ico_succ_bot hj, hrow]
  simp only [sum_eq_sum_Ico_succ_bot hj]
  rw [sum_add_distrib, hcol, form]
  ring

theorem form_schur_eq :
    form (schur S j) (j + 1) d x
      = form S (j + 1) d x - below S j d x ^ 2 / S j j := by
  have hterm : ∀ i k, x i * schur S j i k * x k
      = x i * S i k * x k - S i j * x i * (S k j * x k) / S j j := by
    intro i k
    rw [schur]
    ring
  simp only [form, hterm, sum_sub_distrib]
  rw [below, sq, sum_mul_sum, sum_div]
  simp only [sum_div]

/-- The square is completed. -/
theorem form_schur (hS : ∀ i k, S i k = S k i) (hj : j < d)
    (hp : S j j ≠ 0) :
    form S j d x
      = S j j * (x j + below S j d x / S j j) ^ 2
        + form (schur S j) (j + 1) d x := by
  rw [form_head hS hj, form_schur_eq]
  field_simp
  ring

-- ================================================================= minors

/-- The principal minor of the `n` indices from `j` on. -/
def minor (S : Nat → Nat → K) (j n : Nat) : K :=
  Matrix.det (Matrix.of fun i k : Fin n => S (j + i) (j + k))

theorem minor_zero : minor S j 0 = 1 := Matrix.det_fin_zero

theorem minor_one : minor S j 1 = S j j := Matrix.det_fin_one _

theorem minor_congr {n : Nat}
    (h : ∀ i k, j ≤ i → j ≤ k → S i k = T i k) :
    minor S j n = minor T j n := by
  unfold minor
  apply congrArg Matrix.det
  ext i k
  exact h _ _ (Nat.le_add_right ..) (Nat.le_add_right ..)

/-- A pivot that is not zero splits off its Schur complement: every row
below loses its multiple of the first one. -/
theorem minor_succ (hS : ∀ i k, S i k = S k i) (hp : S j j ≠ 0) (n : Nat) :
    minor S j (n + 1) = S j j * minor (schur S j) (j + 1) n := by
  let c (i : Fin (n + 1)) : K := if i = 0 then 0 else S (j + i) j / S j j
  let B : Matrix (Fin (n + 1)) (Fin (n + 1)) K :=
    Matrix.of fun i k => S (j + i) (j + k) - c i * S j (j + k)
  have hdet : minor S j (n + 1) = B.det := by
    apply Matrix.det_eq_of_forall_row_eq_smul_add_const c 0 (if_pos rfl)
    intro i k
    simp [B, c]
  have hcleared : ∀ i : Fin n, B i.succ 0 = 0 := by
    intro i
    simp [B, c, hp]
  have hrest : B.submatrix (Fin.succAbove 0) Fin.succ
      = Matrix.of fun i k : Fin n => schur S j (j + 1 + i) (j + 1 + k) := by
    ext i k
    have hi : j + (i.val + 1) = j + 1 + i.val := by omega
    have hk : j + (k.val + 1) = j + 1 + k.val := by omega
    simp only [B, c, schur, Matrix.submatrix_apply, Matrix.of_apply,
      Fin.zero_succAbove, Fin.val_succ, hi, hk, if_neg (Fin.succ_ne_zero i)]
    rw [hS j (j + 1 + k), div_mul_eq_mul_div]
  rw [hdet, Matrix.det_succ_column_zero, Fin.sum_univ_succ, hrest]
  have hzero : ∑ i : Fin n, (-1) ^ (i.succ : Nat) * B i.succ 0
      * (B.submatrix i.succ.succAbove Fin.succ).det = 0 := by
    apply sum_eq_zero
    intro i _
    rw [hcleared, mul_zero, zero_mul]
  rw [hzero]
  simp [B, c, minor]

-- ======================================================== isolated indices

/-- Index `i` has nothing off the diagonal. -/
def Isolated (S : Nat → Nat → K) (d i : Nat) : Prop :=
  ∀ k < d, k ≠ i → S i k = 0

open Classical in
/-- The matrix with 1 as the diagonal entry of every isolated index. -/
noncomputable def filled (S : Nat → Nat → K) (d i k : Nat) : K :=
  if i = k ∧ Isolated S d i then 1 else S i k

theorem filled_of_ne {i k : Nat} (h : i ≠ k) : filled S d i k = S i k :=
  if_neg fun hik => h hik.1

theorem filled_of_not_isolated {i : Nat} (h : ¬ Isolated S d i) (k : Nat) :
    filled S d i k = S i k :=
  if_neg fun hik => h hik.2

theorem filled_symm (hS : ∀ i k, S i k = S k i) (i k : Nat) :
    filled S d i k = filled S d k i := by
  by_cases hik : i = k
  · rw [hik]
  · rw [filled_of_ne hik, filled_of_ne (Ne.symm hik), hS]

variable [LinearOrder K]

-- =============================================== small pivots left out

section Kept

variable (root : K → K) (ε : K)

/-- The factor's entry for a pivot. -/
def pivotRoot (p : K) : K := if 0 < p then root p else 0

/-- The factor's column for a matrix that `j` columns were taken from.
Where the entry for the pivot is small it has nothing below it. -/
def column (S : Nat → Nat → K) (j i : Nat) : K :=
  if i = j then pivotRoot root (S j j)
  else if ε < pivotRoot root (S j j) then S i j / pivotRoot root (S j j)
  else 0

/-- The matrix without its first `j` columns. -/
def remnant (S : Nat → Nat → K) : Nat → Nat → Nat → K
  | 0 => S
  | j + 1 => fun i k => remnant S j i k
      - column root ε (remnant S j) j i * column root ε (remnant S j) j k

theorem remnant_succ (S : Nat → Nat → K) (j i k : Nat) :
    remnant root ε S (j + 1) i k = remnant root ε S j i k
      - column root ε (remnant root ε S j) j i
        * column root ε (remnant root ε S j) j k := rfl

theorem remnant_symm (hS : ∀ i k, S i k = S k i) (j i k : Nat) :
    remnant root ε S j i k = remnant root ε S j k i := by
  induction j with
  | zero => exact hS i k
  | succ j ih => rw [remnant_succ, remnant_succ, ih, mul_comm (column ..)]

variable {root ε}

/-- A column that is left out takes nothing from the rest. -/
theorem remnant_skipped (hskip : ¬ ε < pivotRoot root (remnant root ε S j j j))
    {i : Nat} (hi : j < i) (k : Nat) :
    remnant root ε S (j + 1) i k = remnant root ε S j i k := by
  have hcol : column root ε (remnant root ε S j) j i = 0 := by
    rw [column, if_neg hi.ne', if_neg hskip]
  rw [remnant_succ, hcol, zero_mul, sub_zero]

/-- A column that is kept takes what its elimination takes. -/
theorem remnant_kept (hε : 0 ≤ ε) (hroot : ∀ p, 0 < p → root p * root p = p)
    (hkept : ε < pivotRoot root (remnant root ε S j j j)) :
    0 < remnant root ε S j j j
      ∧ ∀ i k, j < i → j < k →
        remnant root ε S (j + 1) i k = schur (remnant root ε S j) j i k := by
  have hpos : 0 < remnant root ε S j j j := by
    by_contra hno
    rw [pivotRoot, if_neg hno] at hkept
    exact absurd hkept (not_lt.mpr hε)
  refine ⟨hpos, fun i k hi hk => ?_⟩
  have hsq : pivotRoot root (remnant root ε S j j j)
      * pivotRoot root (remnant root ε S j j j) = remnant root ε S j j j := by
    rw [pivotRoot, if_pos hpos]
    exact hroot _ hpos
  have hcol : ∀ i, j < i → column root ε (remnant root ε S j) j i
      = remnant root ε S j i j
        / pivotRoot root (remnant root ε S j j j) := by
    intro i hi
    rw [column, if_neg hi.ne', if_pos hkept]
  rw [remnant_succ, hcol i hi, hcol k hk, div_mul_div_comm, hsq, schur]

/-- A column with nothing below its pivot takes nothing from the rest. -/
theorem column_of_zero {i : Nat} (hi : j < i) (h : S i j = 0) :
    column root ε S j i = 0 := by
  rw [column, if_neg hi.ne', h, zero_div, ite_self]

section Pivots

variable (hS : ∀ i k, S i k = S k i) (hε : 0 ≤ ε)
  (hroot : ∀ p, 0 < p → root p * root p = p)
include hS hε hroot

/-- Behind `m` kept columns the minors are those of the remnant. -/
theorem minor_remnant {m : Nat}
    (hkept : ∀ j < m, ε < pivotRoot root (remnant root ε S j j j)) (n : Nat) :
    minor S 0 (m + n) = minor S 0 m * minor (remnant root ε S m) m n := by
  induction m generalizing n with
  | zero => rw [minor_zero, one_mul, Nat.zero_add]; rfl
  | succ m ih =>
      have hbefore := ih fun j hj => hkept j (Nat.lt_succ_of_lt hj)
      obtain ⟨hpos, hschur⟩ := remnant_kept hε hroot (hkept m m.lt_succ_self)
      have hone := hbefore 1
      rw [minor_one] at hone
      rw [show m + 1 + n = m + (n + 1) by omega, hbefore,
        minor_succ (remnant_symm root ε hS m) hpos.ne', hone, mul_assoc,
        minor_congr hschur]

/-- A pivot is the ratio of two leading minors, as long as the columns in
front of it are kept. -/
theorem minor_mul_pivot {m : Nat}
    (hkept : ∀ j < m, ε < pivotRoot root (remnant root ε S j j j)) :
    minor S 0 m * remnant root ε S m m m = minor S 0 (m + 1) := by
  rw [minor_remnant hS hε hroot hkept, minor_one]

end Pivots

end Kept

-- ================================================ isolated ones eliminated

section Filled

variable (root : K → K) (ε : K)

/-- An isolated index stays so. -/
theorem remnant_isolated {i : Nat} (hi : Isolated S d i) (hid : i < d) :
    ∀ j k, j ≤ i → j ≤ k → k < d → k ≠ i → remnant root ε S j i k = 0 := by
  intro j
  induction j with
  | zero => exact fun k _ _ hk hne => hi k hk hne
  | succ j ih =>
      intro k hji hjk hk hne
      have hcol : column root ε (remnant root ε S j) j i = 0 :=
        column_of_zero hji (ih j (Nat.le_of_succ_le hji) le_rfl
          (Nat.lt_of_lt_of_le hji hid.le) (Nat.ne_of_lt hji))
      rw [remnant_succ, hcol, zero_mul, sub_zero]
      exact ih k (Nat.le_of_succ_le hji) (Nat.le_of_succ_le hjk) hk hne

/-- The diagonal entries of isolated indices meet no other entry. -/
theorem remnant_filled (hS : ∀ i k, S i k = S k i) :
    ∀ j i k, j ≤ i → j ≤ k → i < d → k < d → (i ≠ k ∨ ¬ Isolated S d i) →
    remnant root ε (filled S d) j i k = remnant root ε S j i k := by
  intro j
  induction j with
  | zero =>
      rintro i k - - - - (hne | hmixed)
      · exact filled_of_ne hne
      · exact filled_of_not_isolated hmixed k
  | succ j ih =>
      intro i k hi hk hid hkd hik
      have hj : j < d := Nat.lt_of_lt_of_le hi hid.le
      have hcol : ∀ i, j < i → i < d →
          column root ε (remnant root ε (filled S d) j) j i
            = column root ε (remnant root ε S j) j i := by
        intro i hi hid
        have hentry := ih i j hi.le le_rfl hid hj (.inl hi.ne')
        by_cases hjalone : Isolated S d j
        · have hzero : remnant root ε S j i j = 0 := by
            rw [remnant_symm root ε hS]
            exact remnant_isolated root ε hjalone hj j i le_rfl hi.le hid
              hi.ne'
          rw [column_of_zero hi hzero, column_of_zero hi (hentry.trans hzero)]
        · unfold column
          rw [hentry, ih j j le_rfl le_rfl hj hj (.inr hjalone)]
      rw [remnant_succ, remnant_succ, hcol i hi hid, hcol k hk hkd,
        ih i k (Nat.le_of_succ_le hi) (Nat.le_of_succ_le hk) hid hkd hik]

end Filled

/-- In front of an index that is not isolated no leading minor falls by more
than the square of `ε`. -/
def MinorsLarge (S : Nat → Nat → K) (d : Nat) (ε : K) : Prop :=
  ∀ j i, j < i → i < d → ¬ Isolated S d i →
    ε * ε * minor (filled S d) 0 j < minor (filled S d) 0 (j + 1)

variable [IsStrictOrderedRing K]

section Nonneg

variable (hS : ∀ i k, S i k = S k i) (h : ∀ x, 0 ≤ form S j d x)
  (hj : j < d)
include hS h hj

theorem pivot_nonneg : 0 ≤ S j j := by
  have hone := h (Function.update 0 j 1)
  have hbelow : below S j d (Function.update 0 j 1) = 0 := by
    rw [below_congr (y := 0) fun i hi => Function.update_of_ne hi.ne' ..]
    exact sum_eq_zero fun i _ => mul_zero _
  have hrest : form S (j + 1) d (Function.update 0 j 1) = 0 := by
    rw [form_congr (T := S) (y := 0) (fun _ _ _ _ => rfl) fun i hi =>
      Function.update_of_ne (Nat.ne_of_gt hi) ..]
    exact form_zero
  rw [form_head hS hj, hbelow, hrest, Function.update_self] at hone
  linarith

/-- Without the first index. -/
theorem nonneg_tail (x : Nat → K) : 0 ≤ form S (j + 1) d x := by
  have hzero := h (Function.update x j 0)
  have hrest : form S (j + 1) d (Function.update x j 0)
      = form S (j + 1) d x :=
    form_congr (fun _ _ _ _ => rfl) fun i hi =>
      Function.update_of_ne (Nat.ne_of_gt hi) ..
  rw [form_head hS hj, Function.update_self, hrest] at hzero
  linarith

/-- With the first index eliminated: it can be chosen to leave the Schur
complement alone. -/
theorem nonneg_schur (hp : 0 < S j j) (x : Nat → K) :
    0 ≤ form (schur S j) (j + 1) d x := by
  have hchosen := h (Function.update x j (-(below S j d x / S j j)))
  have hbelow : below S j d
      (Function.update x j (-(below S j d x / S j j))) = below S j d x :=
    below_congr fun i hi => Function.update_of_ne hi.ne' ..
  have hrest : form (schur S j) (j + 1) d
      (Function.update x j (-(below S j d x / S j j)))
      = form (schur S j) (j + 1) d x :=
    form_congr (fun _ _ _ _ => rfl) fun i hi =>
      Function.update_of_ne (Nat.ne_of_gt hi) ..
  rw [form_schur hS hj hp.ne', hbelow, hrest, Function.update_self] at hchosen
  linarith

end Nonneg

-- ============================================ elimination with columns left

section Kept

variable {root : K → K} {ε : K}
variable (hS : ∀ i k, S i k = S k i) (hε : 0 ≤ ε)
  (hroot : ∀ p, 0 < p → root p * root p = p)
include hS hε hroot

/-- Of a form that is nowhere negative, what is left after any number of
columns is nowhere negative on the rest. -/
theorem nonneg_remnant (h : ∀ x, 0 ≤ form S 0 d x) :
    ∀ j ≤ d, ∀ x, 0 ≤ form (remnant root ε S j) j d x := by
  intro j
  induction j with
  | zero => exact fun _ => h
  | succ j ih =>
      intro hj x
      have hsymm := remnant_symm root ε hS j
      have hprev := ih (Nat.le_of_succ_le hj)
      by_cases hkept : ε < pivotRoot root (remnant root ε S j j j)
      · obtain ⟨hpos, hschur⟩ := remnant_kept hε hroot hkept
        rw [form_congr (y := x) hschur fun _ _ => rfl]
        exact nonneg_schur hsymm hprev hj hpos x
      · rw [form_congr (y := x)
          (fun i k hi _ => remnant_skipped hkept hi k) fun _ _ => rfl]
        exact nonneg_tail hsymm hprev hj x

/-- Where no leading minor falls by more than the square of `ε`, every
column is kept. -/
theorem kept_of_minors (hnonneg : ∀ p, 0 ≤ root p) {n : Nat}
    (h : ∀ j < n, ε * ε * minor S 0 j < minor S 0 (j + 1)) :
    ∀ j < n, ε < pivotRoot root (remnant root ε S j j j) := by
  have hpos : ∀ j ≤ n, 0 < minor S 0 j := by
    intro j
    induction j with
    | zero =>
        intro _
        rw [minor_zero]
        exact one_pos
    | succ j ih =>
        intro hj
        have hle : 0 ≤ ε * ε * minor S 0 j :=
          mul_nonneg (mul_nonneg hε hε) (ih (Nat.le_of_succ_le hj)).le
        exact hle.trans_lt (h j hj)
  intro j
  induction j using Nat.strong_induction_on with
  | h j ih =>
      intro hj
      have hpivot := h j hj
      rw [← minor_mul_pivot hS hε hroot fun i hi => ih i hi (hi.trans hj),
        mul_comm (ε * ε)] at hpivot
      have hlarge : ε * ε < remnant root ε S j j j :=
        lt_of_mul_lt_mul_left hpivot (hpos j hj.le).le
      have hp : 0 < remnant root ε S j j j :=
        (mul_nonneg hε hε).trans_lt hlarge
      rw [pivotRoot, if_pos hp]
      apply lt_of_mul_self_lt_mul_self₀ (hnonneg _)
      rwa [hroot _ hp]

/-- With large minors every column is kept or has nothing below its pivot. -/
theorem kept_or_clear (hnonneg : ∀ p, 0 ≤ root p) (h : MinorsLarge S d ε)
    {j : Nat} (hj : j < d) :
    ε < pivotRoot root (remnant root ε S j j j)
      ∨ ∀ i, j < i → i < d → remnant root ε S j i j = 0 := by
  by_cases hbehind : ∃ i, j < i ∧ i < d ∧ ¬ Isolated S d i
  · obtain ⟨i, hji, hid, hi⟩ := hbehind
    by_cases hjalone : Isolated S d j
    · right
      intro k hjk hkd
      rw [remnant_symm root ε hS]
      exact remnant_isolated root ε hjalone hj j k le_rfl hjk.le hkd
        hjk.ne'
    · left
      rw [← remnant_filled root ε hS j j j le_rfl le_rfl hj hj
        (.inr hjalone)]
      apply kept_of_minors (filled_symm hS) hε hroot hnonneg (n := j + 1) _ j
        j.lt_succ_self
      intro k hk
      exact h k i (Nat.lt_of_le_of_lt (Nat.le_of_lt_succ hk) hji) hid hi
  · right
    intro i hji hid
    have hi : Isolated S d i := by
      by_contra hno
      exact hbehind ⟨i, hji, hid, hno⟩
    exact remnant_isolated root ε hi hid j j hji.le le_rfl hj hji.ne

/-- When every column is kept or clear, the form is at worst what a pivot
is below zero. -/
theorem form_ge_of_kept (hpass : ∀ j < d, -ε ≤ remnant root ε S j j j)
    (hcol : ∀ j < d, ε < pivotRoot root (remnant root ε S j j j)
      ∨ ∀ i, j < i → i < d → remnant root ε S j i j = 0)
    (x : Nat → K) (n : Nat) (j : Nat) (hn : j + n = d) :
    -ε * ∑ i ∈ Ico j d, x i ^ 2 ≤ form (remnant root ε S j) j d x := by
  induction n generalizing j with
  | zero =>
      rw [form, ← hn, Nat.add_zero, Ico_self, sum_empty, sum_empty, mul_zero]
  | succ n ih =>
      have hj : j < d := by omega
      have hsymm := remnant_symm root ε hS j
      have hrest := ih (j + 1) (by omega)
      rw [sum_eq_sum_Ico_succ_bot hj, mul_add]
      by_cases hkept : ε < pivotRoot root (remnant root ε S j j j)
      · obtain ⟨hpos, hschur⟩ := remnant_kept hε hroot hkept
        rw [form_congr (y := x) hschur fun _ _ => rfl] at hrest
        rw [form_schur hsymm hj hpos.ne']
        have hneg : -ε * x j ^ 2 ≤ 0 :=
          mul_nonpos_of_nonpos_of_nonneg (neg_nonpos.mpr hε) (sq_nonneg _)
        exact add_le_add (hneg.trans (mul_nonneg hpos.le (sq_nonneg _))) hrest
      · have hclear := (hcol j hj).resolve_left hkept
        have hbelow : below (remnant root ε S j) j d x = 0 := by
          apply sum_eq_zero
          intro i hi
          obtain ⟨hji, hid⟩ := mem_Ico.mp hi
          rw [hclear i hji hid, zero_mul]
        rw [form_congr (y := x) (fun i k hi _ => remnant_skipped hkept hi k)
          fun _ _ => rfl] at hrest
        rw [form_head hsymm hj, hbelow, mul_zero, add_zero]
        exact add_le_add (mul_le_mul_of_nonneg_right (hpass j hj)
          (sq_nonneg _)) hrest

end Kept

-- ================================================================ vectors

section Vectors

omit [LinearOrder K] [IsStrictOrderedRing K]

/-- A vector as a function of all naturals. -/
def extend (v : Fin d → K) (i : Nat) : K :=
  if h : i < d then v ⟨i, h⟩ else 0

theorem extend_val (v : Fin d → K) (i : Fin d) : extend v i = v i :=
  dif_pos i.isLt

theorem form_extend {M : Matrix (Fin d) (Fin d) K}
    (h : ∀ i k : Fin d, S i k = M i k) (v : Fin d → K) :
    form S 0 d (extend v) = v ⬝ᵥ M.mulVec v := by
  rw [form, ← range_eq_Ico, sum_range, dotProduct]
  refine sum_congr rfl fun i _ => ?_
  rw [sum_range, Matrix.mulVec, dotProduct, mul_sum]
  refine sum_congr rfl fun k _ => ?_
  rw [extend_val, extend_val, h, mul_assoc]

theorem sum_sq_extend (v : Fin d → K) :
    ∑ i ∈ Ico 0 d, extend v i ^ 2 = v ⬝ᵥ v := by
  rw [← range_eq_Ico, sum_range, dotProduct]
  refine sum_congr rfl fun i _ => ?_
  rw [extend_val, sq]

/-- A matrix as a function of all naturals. -/
def entries (M : Matrix (Fin d) (Fin d) K) (i k : Nat) : K :=
  if h : i < d ∧ k < d then M ⟨i, h.1⟩ ⟨k, h.2⟩ else 0

theorem entries_val (M : Matrix (Fin d) (Fin d) K) (i k : Fin d) :
    entries M i k = M i k :=
  dif_pos ⟨i.isLt, k.isLt⟩

/-- The form at a vector is the form of the entries that count. -/
theorem forall_form_iff {M : Matrix (Fin d) (Fin d) K}
    (h : ∀ i k : Fin d, S i k = M i k) {P : K → Prop} :
    (∀ x, P (form S 0 d x)) ↔ ∀ v : Fin d → K, P (v ⬝ᵥ M.mulVec v) := by
  constructor
  · intro hx v
    rw [← form_extend h]
    exact hx (extend v)
  · intro hv x
    have hx : form S 0 d x = form S 0 d (extend fun i : Fin d => x i) := by
      refine sum_congr rfl fun i hi => sum_congr rfl fun k hk => ?_
      rw [extend, extend, dif_pos (mem_Ico.mp hi).2,
        dif_pos (mem_Ico.mp hk).2]
    rw [hx, form_extend h]
    exact hv _

end Vectors

-- ===================================================== matrices close by

/-- Entries that differ by at most `δ` move the form by at most `δ * d`
times the square of the vector. -/
theorem form_near {δ : K} (hδ : 0 ≤ δ)
    (h : ∀ i k, i < d → k < d → |T i k - S i k| ≤ δ) (x : Nat → K) :
    form T 0 d x - δ * d * ∑ i ∈ Ico 0 d, x i ^ 2 ≤ form S 0 d x := by
  have hterm : ∀ i ∈ Ico 0 d, ∀ k ∈ Ico 0 d,
      x i * T i k * x k - x i * S i k * x k ≤ δ * (|x i| * |x k|) := by
    intro i hi k hk
    have hnear := h i k (mem_Ico.mp hi).2 (mem_Ico.mp hk).2
    calc x i * T i k * x k - x i * S i k * x k
        = x i * (T i k - S i k) * x k := by ring
      _ ≤ |x i * (T i k - S i k) * x k| := le_abs_self _
      _ = |T i k - S i k| * (|x i| * |x k|) := by
          rw [abs_mul, abs_mul]
          ring
      _ ≤ δ * (|x i| * |x k|) :=
          mul_le_mul_of_nonneg_right hnear
            (mul_nonneg (abs_nonneg _) (abs_nonneg _))
  have hdiff : form T 0 d x - form S 0 d x
      ≤ δ * (∑ i ∈ Ico 0 d, |x i|) ^ 2 := by
    rw [form, form, ← sum_sub_distrib, sq, sum_mul_sum, mul_sum]
    refine sum_le_sum fun i hi => ?_
    rw [← sum_sub_distrib, mul_sum]
    exact sum_le_sum fun k hk => hterm i hi k hk
  have hsum : (∑ i ∈ Ico 0 d, |x i|) ^ 2 ≤ d * ∑ i ∈ Ico 0 d, x i ^ 2 := by
    have hcheb := sq_sum_le_card_mul_sum_sq (s := Ico 0 d) (f := (|x ·|))
    simpa only [Nat.card_Ico, Nat.sub_zero, sq_abs] using hcheb
  have hscale := mul_le_mul_of_nonneg_left hsum hδ
  rw [← mul_assoc] at hscale
  linarith

end Lib.Cholesky
