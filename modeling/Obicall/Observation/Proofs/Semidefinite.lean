/-
How far the validator's check of a covariance decides whether it is
positive semidefinite, in real arithmetic.

# What it accepts

Every symmetric positive semidefinite matrix: what the elimination leaves
of it stays positive semidefinite, also past the columns that it skips
(`psd_accepted`).

# What it lets through

A column whose pivot is at most 1e-9 is skipped without a look at what is
below it, and a skipped column may hide any entry (`indefinite_accepted`).
The pivots are the ratios of the leading minors. Where these are large
enough in front of every component that is correlated with another one
(`MinorsLarge`), nothing is hidden: an accepted matrix is within the
tolerances of a product `L Lᵀ`, and so positive semidefinite up to them
(`accepted_nearPsd`).
-/
import Mathlib.Tactic.Positivity
import Obicall.Lib.Psd
import Obicall.Observation.Proofs.Factor

namespace Obicall

open Lib.Cholesky Lib.Psd Matrix SquareRoot

/-- The matrix that is stored row by row. -/
def storedMatrix {K : Type} (cov : Nat → K) (d : Nat) :
    Matrix (Fin d) (Fin d) K :=
  fun i j => cov (i.val * d + j.val)

-- ============================================================= statement

section Statement

variable {d : Nat} (C : Matrix (Fin d) (Fin d) ℝ)

/-- The largest absolute entry. -/
noncomputable def maxAbs : ℝ :=
  Finset.univ.fold max 0 fun p : Fin d × Fin d => |C p.1 p.2|

noncomputable def symmPart : Matrix (Fin d) (Fin d) ℝ :=
  (0.5 : ℝ) • (C + Cᵀ)

/-- How far below zero a form may go, for each unit of the vector's
square. -/
noncomputable def slack : ℝ := 1e-6 * (1 + maxAbs C)

/-- The symmetric part is positive semidefinite up to the slack. -/
def NearPsd : Prop :=
  ∀ x, -slack C * (x ⬝ᵥ x) ≤ x ⬝ᵥ symmPart C *ᵥ x

end Statement

-- ============================================================ acceptance

theorem sqrt_mul_self {p : ℝ} (hp : 0 < p) :
    squareRoot p * squareRoot p = p :=
  Real.mul_self_sqrt hp.le

theorem sqrt_nonneg (p : ℝ) : 0 ≤ squareRoot p := Real.sqrt_nonneg p

theorem tolerance_pos : (0 : ℝ) < 1e-9 := by norm_num

/-- No positive semidefinite matrix is rejected. -/
theorem psd_accepted {d : Nat} (hd : d ≤ 6) {cov : Nat → ℝ}
    (h : IsCovariance (storedMatrix cov d)) :
    covarianceIsPsd cov d 1e-9 = true := by
  have hstored : ∀ i k : Fin d, lowerOf cov d i k = storedMatrix cov d i k := by
    intro i k
    rcases le_total k i with hki | hik
    · exact lowerOf_of_le hki
    · rw [lowerOf_symm, lowerOf_of_le hik]
      exact h.symm.apply i k
  have hnonneg : ∀ x, 0 ≤ form (lowerOf cov d) 0 d x :=
    (forall_form_iff hstored).mpr h.nonneg
  refine (covarianceIsPsd_iff cov hd _).mpr fun i hi => ?_
  have hpivot := pivot_nonneg (remnant_symm _ _ (lowerOf_symm cov d) i)
    (nonneg_remnant (lowerOf_symm cov d) tolerance_pos.le
      (fun _ => sqrt_mul_self) hnonneg i hi.le) hi
  exact le_trans (neg_nonpos.mpr tolerance_pos.le) hpivot

/-- A singular matrix, with a row of zeros. -/
theorem psd_accepted_singular :
    covarianceIsPsd ([1, 1, 0, 1, 1, 0, 0, 0, 0].getD · (0 : ℝ)) 3 1e-9
      = true := by
  refine psd_accepted (by decide) ⟨?_, fun v => ?_⟩
  · refine Matrix.IsSymm.ext fun i j => ?_
    fin_cases i <;> fin_cases j <;> rfl
  · have hform : v ⬝ᵥ storedMatrix
        ([1, 1, 0, 1, 1, 0, 0, 0, 0].getD · (0 : ℝ)) 3 *ᵥ v
        = (v 0 + v 1) ^ 2 := by
      simp [dotProduct, mulVec, Fin.sum_univ_three, storedMatrix]
      ring
    rw [hform]
    exact sq_nonneg _

-- ============================================================= the bound

section Bound

variable {d : Nat}

theorem abs_le_maxAbs (C : Matrix (Fin d) (Fin d) ℝ) (i k : Fin d) :
    |C i k| ≤ maxAbs C :=
  (Finset.le_fold_max _).mpr (.inr ⟨(i, k), Finset.mem_univ _, le_rfl⟩)

theorem maxAbs_nonneg (C : Matrix (Fin d) (Fin d) ℝ) : 0 ≤ maxAbs C :=
  (Finset.le_fold_max _).mpr (.inl le_rfl)

/-- What the symmetry check lets pass. -/
theorem mirrored_near {cov : Nat → ℝ}
    (h : covarianceIsSymmetric cov d = true) (i k : Fin d) :
    |storedMatrix cov d i k - storedMatrix cov d k i|
      ≤ 1e-9 * (1 + 2 * maxAbs (storedMatrix cov d)) := by
  have hall := List.all_eq_true.mp h i.val (List.mem_range.mpr i.isLt)
  have hpair := List.all_eq_true.mp hall k.val (List.mem_range.mpr k.isLt)
  rw [Bool.not_eq_true', exact_lt, decide_eq_false_iff_not, not_lt,
    exact_one] at hpair
  have hik := abs_le_maxAbs (storedMatrix cov d) i k
  have hki := abs_le_maxAbs (storedMatrix cov d) k i
  refine le_trans hpair (mul_le_mul_of_nonneg_left ?_ tolerance_pos.le)
  rw [exact_fabs, exact_fabs]
  simp only [storedMatrix] at hik hki ⊢
  linarith

/-- The lower triangle's matrix is close to the symmetric part. -/
theorem lowerOf_near {cov : Nat → ℝ}
    (h : covarianceIsSymmetric cov d = true) (i k : Fin d) :
    |lowerOf cov d i k - symmPart (storedMatrix cov d) i k|
      ≤ 1e-9 * (1 + maxAbs (storedMatrix cov d)) := by
  have hmax := maxAbs_nonneg (storedMatrix cov d)
  have hpart : symmPart (storedMatrix cov d) i k
      = 1 / 2 * (storedMatrix cov d i k + storedMatrix cov d k i) := by
    rw [symmPart, Matrix.smul_apply, Matrix.add_apply, transpose_apply,
      smul_eq_mul]
    norm_num
  have hlower : |lowerOf cov d i k - symmPart (storedMatrix cov d) i k|
      = 1 / 2 * |storedMatrix cov d i k - storedMatrix cov d k i| := by
    have hhalf : ∀ a b : ℝ, |a - 1 / 2 * (a + b)| = 1 / 2 * |a - b| := by
      intro a b
      rw [show a - 1 / 2 * (a + b) = 1 / 2 * (a - b) by ring, abs_mul,
        abs_of_pos one_half_pos]
    rw [hpart]
    rcases le_total k.val i.val with hki | hik
    · rw [lowerOf_of_le hki]
      exact hhalf _ _
    · rw [lowerOf_symm, lowerOf_of_le hik,
        add_comm (storedMatrix cov d i k),
        abs_sub_comm (storedMatrix cov d i k)]
      exact hhalf _ _
  rw [hlower]
  have hnear := mirrored_near h i k
  norm_num at hnear ⊢
  linarith

/-- Where the minors are large, passing the checks is enough. -/
theorem nearPsd_of_minors {cov : Nat → ℝ} (hd : d ≤ 4)
    (hsymm : covarianceIsSymmetric cov d = true)
    (hpsd : covarianceIsPsd cov d 1e-9 = true)
    (hminors : MinorsLarge (lowerOf cov d) d 1e-9) :
    NearPsd (storedMatrix cov d) := by
  intro v
  have hpass := (covarianceIsPsd_iff cov (by omega) _).mp hpsd
  have hcol : ∀ j < d, _ := fun j hj =>
    kept_or_clear (lowerOf_symm cov d) tolerance_pos.le
      (fun _ => sqrt_mul_self) sqrt_nonneg hminors hj
  have hform := form_ge_of_kept (lowerOf_symm cov d) tolerance_pos.le
    (fun _ => sqrt_mul_self) hpass hcol (extend v) d 0 (Nat.zero_add d)
  have hmax := maxAbs_nonneg (storedMatrix cov d)
  have hnear := form_near (d := d) (T := lowerOf cov d)
    (S := entries (symmPart (storedMatrix cov d)))
    (δ := 1e-9 * (1 + maxAbs (storedMatrix cov d))) (by positivity)
    (fun i k hi hk => by
      have hik := lowerOf_near hsymm ⟨i, hi⟩ ⟨k, hk⟩
      rwa [← entries_val (symmPart _)] at hik) (extend v)
  rw [sum_sq_extend] at hform hnear
  rw [form_extend (entries_val _)] at hnear
  have hsq : 0 ≤ v ⬝ᵥ v := by
    rw [← sum_sq_extend]
    exact Finset.sum_nonneg fun i _ => sq_nonneg _
  have hd' : (d : ℝ) ≤ 4 := by exact_mod_cast hd
  have hslack : 1e-9 + 1e-9 * (1 + maxAbs (storedMatrix cov d)) * d
      ≤ slack (storedMatrix cov d) := by
    rw [slack]
    norm_num
    nlinarith
  have hscale := mul_le_mul_of_nonneg_right hslack hsq
  change -1e-9 * (v ⬝ᵥ v) ≤ form (lowerOf cov d) 0 d (extend v) at hform
  linarith

end Bound

/-- An accepted covariance is positive semidefinite up to the slack, as long
as every leading minor in front of a correlated component is more than
`1e-18` times the one before it. The variance of a component that is
correlated with no other one does not enter these minors. -/
theorem accepted_nearPsd {obs : Observation ℝ}
    (h : obicallObservationValidate obs = .ok) :
    let d := obicallPayloadShapeDimension obs.payloadShape
    let cov (i : Nat) : ℝ := obs.covariance.getD i 0.0
    MinorsLarge (lowerOf cov d) d 1e-9 → NearPsd (storedMatrix cov d) := by
  intro d cov hminors
  obtain ⟨hsymm, hpsd⟩ := covariance_of_valid h
  exact nearPsd_of_minors (payloadShapeDimension_le _) hsymm hpsd hminors

-- =============================================================== samples

/-- A position in two dimensions with this covariance. -/
noncomputable def positionWith (a b c d : ℝ) : Observation ℝ where
  structSize := sizeofObservation
  schemaVersion := 1
  sensorId := strncpy31 [112]
  sourceBootId := 1
  sequence := 1
  sampleTimeNs := 1000000000
  arrivalTimeNs := 1000000000
  clockDomain := 1
  timeUncertaintyS := 0
  coordinateFrame := 1
  units := 1
  calibrationVersion := 1
  payloadShape := shapePosition2d
  payloadCount := 2
  payload := Vector.replicate _ 0
  covarianceCount := 4
  covariance := Vector.ofFn fun i => [a, b, c, d].getD i.val 0

theorem covariance_positionWith (a b c d : ℝ) :
    (fun i => (positionWith a b c d).covariance.getD i 0.0)
      = ([a, b, c, d].getD · 0) := by
  funext i
  by_cases hi : i < maxCovDoubles
  · simp [positionWith, Vector.getD, hi]
  · have hlen : [a, b, c, d].length ≤ i := by
      simp only [List.length_cons, List.length_nil]
      simp only [maxCovDoubles] at hi
      omega
    simp [positionWith, Vector.getD, hi, List.getElem?_eq_none hlen]

theorem symmetric_positionWith (a b d : ℝ) :
    covarianceIsSymmetric ([a, b, b, d].getD · (0 : ℝ)) 2 = true := by
  simp only [covarianceIsSymmetric, List.range_succ, List.range_zero,
    List.nil_append, List.all_append, List.all_cons, List.all_nil]
  simp
  refine ⟨⟨?_, ?_⟩, ?_, ?_⟩ <;> positivity

theorem valid_positionWith {a b d : ℝ}
    (h : covarianceIsPsd ([a, b, b, d].getD · (0 : ℝ)) 2 1e-9 = true) :
    obicallObservationValidate (positionWith a b b d) = .ok := by
  have hdim : obicallPayloadShapeDimension shapePosition2d = 2 := rfl
  have hsymm := symmetric_positionWith a b d
  have hid : (strncpy31 [112]).getD 0 0 ≠ 0 ∧ 0 ∈ strncpy31 [112] := by
    decide +kernel
  simp only [List.getD_eq_getElem?_getD] at hsymm h
  rw [validate_eq_ok_iff, Observation.issues, covariance_positionWith]
  simp [positionWith, hdim, hsymm, h, hid, maxCovDoubles]

/-- Two correlated components, the first one with a variance of 2. -/
theorem accepted_nearPsd_correlated :
    obicallObservationValidate (positionWith 2 1 1 1) = .ok
    ∧ NearPsd (storedMatrix (fun i => (positionWith 2 1 1 1).covariance.getD
      i 0.0) 2) := by
  have hpsd : covarianceIsPsd ([2, 1, 1, 1].getD · (0 : ℝ)) 2 1e-9 = true := by
    refine psd_accepted (by decide) ⟨?_, fun v => ?_⟩
    · refine Matrix.IsSymm.ext fun i j => ?_
      fin_cases i <;> fin_cases j <;> rfl
    · have hform : v ⬝ᵥ storedMatrix ([2, 1, 1, 1].getD · (0 : ℝ)) 2 *ᵥ v
          = v 0 ^ 2 + (v 0 + v 1) ^ 2 := by
        simp [dotProduct, mulVec, Fin.sum_univ_two, storedMatrix]
        ring
      rw [hform]
      positivity
  have hvalid := valid_positionWith hpsd
  refine ⟨hvalid, accepted_nearPsd hvalid ?_⟩
  rw [covariance_positionWith]
  change MinorsLarge (lowerOf _ 2) 2 1e-9
  intro j i hji hi _
  obtain rfl : j = 0 := by omega
  have hmixed : ¬ Isolated (lowerOf ([2, 1, 1, 1].getD · (0 : ℝ)) 2) 2 0 := by
    intro halone
    have hentry := halone 1 (by decide) (by decide)
    change (1 : ℝ) = 0 at hentry
    exact one_ne_zero hentry
  rw [minor_zero, minor_one, filled_of_not_isolated hmixed]
  change (1e-9 * 1e-9 * 1 : ℝ) < 2
  norm_num

/-- Below a zero pivot anything passes. -/
theorem zero_pivot_accepted (m : ℝ) :
    covarianceIsPsd ([0, m, m, 0].getD · (0 : ℝ)) 2 1e-9 = true := by
  have hlow : (-1e-9 : ℝ) ≤ 0 := by norm_num
  have hskip : ¬ 1e-9 < pivotRoot squareRoot
      (lowerOf ([0, m, m, 0].getD · (0 : ℝ)) 2 0 0) := by
    change ¬ 1e-9 < if (0 : ℝ) < 0 then squareRoot 0 else 0
    rw [if_neg (lt_irrefl 0)]
    exact not_lt.mpr tolerance_pos.le
  refine (covarianceIsPsd_iff _ (by decide) _).mpr fun i hi => ?_
  rcases Nat.le_one_iff_eq_zero_or_eq_one.mp (Nat.le_of_lt_succ hi)
    with rfl | rfl
  · exact hlow
  · rw [remnant_skipped hskip Nat.one_pos]
    exact hlow

/-- The validator accepts a covariance with a form as far below zero as
its entries are large. -/
theorem indefinite_accepted :
    obicallObservationValidate (positionWith 0 1000000 1000000 0) = .ok
    ∧ ¬ NearPsd (storedMatrix
      (fun i => (positionWith 0 1000000 1000000 0).covariance.getD i 0.0)
      2) := by
  refine ⟨valid_positionWith (zero_pivot_accepted _), fun h => ?_⟩
  rw [covariance_positionWith] at h
  have hx := h ![1, -1]
  have hmax : maxAbs (storedMatrix
      ([0, 1000000, 1000000, 0].getD · (0 : ℝ)) 2) ≤ 1000000 := by
    refine (Finset.fold_max_le _).mpr ⟨by norm_num, fun p _ => ?_⟩
    obtain ⟨i, k⟩ := p
    fin_cases i <;> fin_cases k <;> simp [storedMatrix]
  have hform : (![1, -1] : Fin 2 → ℝ) ⬝ᵥ symmPart (storedMatrix
      ([0, 1000000, 1000000, 0].getD · (0 : ℝ)) 2) *ᵥ ![1, -1]
      = -2000000 := by
    simp [symmPart, storedMatrix, dotProduct, mulVec, Fin.sum_univ_two]
    norm_num
  have hsq : (![1, -1] : Fin 2 → ℝ) ⬝ᵥ ![1, -1] = 2 := by
    simp [dotProduct, Fin.sum_univ_two]
    norm_num
  rw [hform, hsq, slack] at hx
  generalize maxAbs _ = largest at hx hmax
  norm_num at hx
  linarith

end Obicall
