/-
What the semi-definite Cholesky attempt computes, in exact arithmetic.

The triple loop of `covariance_is_psd` goes row by row, the elimination
of `Lib.Cholesky` column by column; they fill the same factor
(`FilledTo`), so the loop returns 1 exactly when no pivot of the
elimination is below `-epsilon` (`covarianceIsPsd_iff`).

Of the covariance the loop reads the lower triangle only (`lowerOf`).
-/
import Mathlib.Analysis.Real.Sqrt
import Obicall.Core.Exact
import Obicall.Core.Observation
import Obicall.Lib.Checked
import Obicall.Lib.Cholesky

namespace Obicall

open Lib.Checked Lib.Cholesky SquareRoot

noncomputable instance : SquareRoot ℝ := ⟨Real.sqrt⟩

variable {K : Type}

/-- The symmetric matrix with this lower triangle, stored row by row. -/
def lowerOf (cov : Nat → K) (dim : Nat) (i k : Nat) : K :=
  cov (max i k * dim + min i k)

theorem lowerOf_symm (cov : Nat → K) (dim : Nat) (i k : Nat) :
    lowerOf cov dim i k = lowerOf cov dim k i := by
  rw [lowerOf, lowerOf, max_comm, min_comm]

theorem lowerOf_of_le {cov : Nat → K} {dim i k : Nat} (h : k ≤ i) :
    lowerOf cov dim i k = cov (i * dim + k) := by
  rw [lowerOf, max_eq_left h, min_eq_right h]

variable [Field K] [LinearOrder K] [SquareRoot K]

section Loop

variable (cov : Nat → K) (dim : Nat) (ε : K)

/-- The factor has its entries before place `(i, j)`, row by row. -/
def FilledTo (i j : Nat) (l : Vector K 36) : Prop :=
  ∀ r c, c ≤ r → r < i ∨ r = i ∧ c < j →
    l.getD (r * 6 + c) 0.0
      = column squareRoot ε (remnant squareRoot ε (lowerOf cov dim) c) c r

variable {cov dim ε} {i j : Nat} {l : Vector K 36}

theorem filledTo_zero (l : Vector K 36) : FilledTo cov dim ε 0 0 l := by
  rintro r c - (h | ⟨-, h⟩)
  · exact absurd h (Nat.not_lt_zero r)
  · exact absurd h (Nat.not_lt_zero c)

/-- The end of a row is the start of the next. -/
theorem FilledTo.nextRow (h : FilledTo cov dim ε i (i + 1) l) :
    FilledTo cov dim ε (i + 1) 0 l := by
  rintro r c hc (hr | ⟨-, hc0⟩)
  · refine h r c hc ?_
    omega
  · exact absurd hc0 (Nat.not_lt_zero c)

/-- One more entry. -/
theorem FilledTo.set (h : FilledTo cov dim ε i j l) (hij : j ≤ i)
    (hi : i < 6) {v : K}
    (hv : v = column squareRoot ε
      (remnant squareRoot ε (lowerOf cov dim) j) j i) :
    FilledTo cov dim ε i (j + 1) (l.setIfInBounds (i * 6 + j) v) := by
  intro r c hc hfilled
  have hin : i * 6 + j < 36 := by omega
  by_cases hplace : i * 6 + j = r * 6 + c
  · obtain ⟨rfl, rfl⟩ : r = i ∧ c = j := by omega
    rw [← hv]
    simp [Vector.getD, hin]
  · have hbefore : r < i ∨ r = i ∧ c < j := by omega
    rw [← h r c hc hbefore]
    simp [Vector.getD, hplace]

/-- The sum that an entry starts from is what the columns before it left
at its place. -/
theorem FilledTo.sum_eq (h : FilledTo cov dim ε i j l) (hij : j ≤ i)
    {n : Nat} (hn : n ≤ j) :
    (List.range n).foldl (fun sum k => sum
        - l.getD (i * 6 + k) 0.0 * l.getD (j * 6 + k) 0.0)
      (cov (i * dim + j))
      = remnant squareRoot ε (lowerOf cov dim) n i j := by
  induction n with
  | zero => exact (lowerOf_of_le hij).symm
  | succ n ih =>
      have hlower : n < i := Nat.lt_of_lt_of_le hn hij
      rw [List.range_succ, List.foldl_append, ih (Nat.le_of_succ_le hn),
        remnant_succ, List.foldl_cons, List.foldl_nil,
        h i n hlower.le (.inr ⟨rfl, hn⟩), h j n (Nat.le_of_succ_le hn) ?_]
      rcases hij.lt_or_eq with hlt | rfl
      · exact .inl hlt
      · exact .inr ⟨rfl, hn⟩

variable [IsStrictOrderedRing K]

/-- An entry below the diagonal is always found. -/
theorem psdEntry_below (h : FilledTo cov dim ε i j l) (hij : j < i)
    (hi : i < 6) :
    Succeeds (psdEntry cov dim ε i l j) True (FilledTo cov dim ε i (j + 1)) := by
  refine ⟨fun _ => ?_, fun hno => (hno trivial).elim⟩
  have hpivot : l.getD (j * 6 + j) 0.0 = pivotRoot squareRoot
      (remnant squareRoot ε (lowerOf cov dim) j j j) := by
    rw [h j j le_rfl (.inl hij), column, if_pos rfl]
  rw [psdEntry]
  simp only [if_neg hij.ne']
  refine ⟨_, rfl, h.set hij.le hi ?_⟩
  rw [h.sum_eq hij.le le_rfl, hpivot, column, if_neg hij.ne', exact_lt,
    exact_zero]
  simp only [decide_eq_true_eq]

/-- An entry on it is, unless its pivot is below `-epsilon`. -/
theorem psdEntry_diagonal (h : FilledTo cov dim ε i i l) (hi : i < 6) :
    Succeeds (psdEntry cov dim ε i l i)
      (-ε ≤ remnant squareRoot ε (lowerOf cov dim) i i i)
      (FilledTo cov dim ε i (i + 1)) := by
  rw [psdEntry]
  simp only [if_true, h.sum_eq le_rfl le_rfl, exact_lt, decide_eq_true_eq]
  constructor
  · intro hpass
    rw [if_neg (not_lt.mpr hpass)]
    refine ⟨_, rfl, h.set le_rfl hi ?_⟩
    rw [column, if_pos rfl, pivotRoot, exact_zero]
    rfl
  · intro hfail
    rw [if_pos (not_le.mp hfail)]

/-- A row. -/
theorem psdRow (h : FilledTo cov dim ε i 0 l) (hi : i < 6) :
    Succeeds ((List.range (i + 1)).foldlM (psdEntry cov dim ε i) l)
      (-ε ≤ remnant squareRoot ε (lowerOf cov dim) i i i)
      (FilledTo cov dim ε (i + 1) 0) := by
  have hentry : ∀ j < i + 1, ∀ l, FilledTo cov dim ε i j l →
      Succeeds (psdEntry cov dim ε i l j)
        (j = i → -ε ≤ remnant squareRoot ε (lowerOf cov dim) i i i)
        (FilledTo cov dim ε i (j + 1)) := by
    intro j hj l hl
    rcases (Nat.le_of_lt_succ hj).lt_or_eq with hlt | rfl
    · have hbelow := psdEntry_below hl hlt hi
      exact ⟨fun _ => hbelow.some trivial,
        fun hno => (hno fun heq => absurd heq hlt.ne).elim⟩
    · have hdiag := psdEntry_diagonal hl hi
      exact ⟨fun hpass => hdiag.some (hpass rfl),
        fun hno => hdiag.none fun hpass => hno fun _ => hpass⟩
  have hrow := foldlM_range_succeeds h (i + 1) hentry
  constructor
  · intro hpass
    obtain ⟨l', hl', hfilled⟩ := hrow.some fun j _ _ => hpass
    exact ⟨l', hl', hfilled.nextRow⟩
  · exact fun hfail =>
      hrow.none fun hall => hfail (hall i i.lt_succ_self rfl)

end Loop

variable [IsStrictOrderedRing K]

/-- The attempt succeeds exactly when no pivot is below `-epsilon`. -/
theorem covarianceIsPsd_iff (cov : Nat → K) {dim : Nat} (hdim : dim ≤ 6)
    (ε : K) :
    covarianceIsPsd cov dim ε = true
      ↔ ∀ i < dim, -ε ≤ remnant squareRoot ε (lowerOf cov dim) i i i :=
  Succeeds.isSome_iff (foldlM_range_succeeds
    (P := fun i => FilledTo cov dim ε i 0) (filledTo_zero _) dim
    fun _ hi _ hl => psdRow hl (Nat.lt_of_lt_of_le hi hdim))

end Obicall
