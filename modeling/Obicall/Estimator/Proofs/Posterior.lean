/-
The measurement update is the Kalman posterior, in exact arithmetic.

The inverse that the code makes by hand is the inverse of the innovation
covariance `S = H P Hᵀ + R`, so its gain is `P Hᵀ S⁻¹` (`gainMatrix_eq`),
and with that gain the Joseph form is `P - P Hᵀ S⁻¹ H P`. What is taken
from `P` is a covariance itself: no direction is less certain after a
measurement than before (`update_is_posterior`).
-/
import Mathlib.Tactic.Positivity
import Obicall.Estimator.Proofs.Covariance

namespace Obicall

open Lib.Psd Matrix

variable {K : Type} [Field K] [LinearOrder K] [SquareRoot K]

-- ============================================================= statement

/-- The state. -/
def KalmanState.meanVec (s : KalmanState K) : Fin 4 → K := fun i => s.x i

/-- `S`, the covariance of what a measurement brings. -/
def KalmanState.innovationCov (s : KalmanState K) (r : Vector K 4) :
    Matrix (Fin 2) (Fin 2) K :=
  positions K * s.cov * (positions K)ᵀ + measurementCov r

-- ================================================================== gain

variable {s : KalmanState K} {r : Vector K 4}

theorem crossCov_apply (i : Fin 4) (b : Fin 2) :
    (s.cov * (positions K)ᵀ) i b = s.p i b := by
  rw [Matrix.mul_apply, Fin.sum_univ_four]
  fin_cases b <;> simp [positions, KalmanState.cov]

theorem innovationCov_apply (a b : Fin 2) :
    s.innovationCov r a b
      = s.p a b + !![r.get 0, r.get 1; r.get 2, r.get 3] a b := by
  have hpos : (positions K * s.cov * (positions K)ᵀ) a b = s.p a b := by
    rw [Matrix.mul_assoc, Matrix.mul_apply, Fin.sum_univ_four]
    simp only [crossCov_apply]
    fin_cases a <;> simp [positions]
  rw [KalmanState.innovationCov, Matrix.add_apply, hpos, measurementCov_eq]

theorem det_innovationCov :
    (s.innovationCov r).det = s.innovationDet r := by
  rw [det_fin_two, innovationCov_apply, innovationCov_apply,
    innovationCov_apply, innovationCov_apply]
  rfl

/-- The gain is the one for `S`. -/
theorem gainMatrix_eq :
    s.gainMatrix r
      = s.cov * (positions K)ᵀ * (s.innovationCov r)⁻¹ := by
  ext i b
  rw [Matrix.mul_apply, Fin.sum_univ_two, crossCov_apply, crossCov_apply,
    Matrix.inv_def, det_innovationCov, Ring.inverse_eq_inv',
    adjugate_fin_two, Matrix.smul_apply, Matrix.smul_apply, smul_eq_mul,
    smul_eq_mul]
  fin_cases b
  · simp [KalmanState.gainMatrix, KalmanState.gain, innovationCov_apply,
      div_eq_inv_mul]
  · simp [KalmanState.gainMatrix, KalmanState.gain, innovationCov_apply,
      div_eq_inv_mul]

theorem regular_iff :
    s.singular r = false ↔ 1e-15 ≤ |(s.innovationCov r).det| := by
  rw [det_innovationCov, KalmanState.singular, exact_isFinite, exact_lt,
    exact_fabs, Bool.not_true, Bool.false_or, decide_eq_false_iff_not,
    not_lt]

-- ================================================================ update

variable [IsStrictOrderedRing K]

/-- The mean moves by the gain times what the measurement says beyond what
was expected. -/
theorem mean_correct (h : s.singular r = false) (zx zy : K) :
    (s.correct zx zy r).2.meanVec = s.meanVec
      + s.gainMatrix r *ᵥ (![zx, zy] - positions K *ᵥ s.meanVec) := by
  have hfill := congrArg (fun out => out.2.mean) (correct_regular h zx zy)
  dsimp only at hfill
  have hexpected : positions K *ᵥ s.meanVec = ![s.x 0, s.x 1] := by
    ext a
    rw [mulVec, dotProduct, Fin.sum_univ_four]
    fin_cases a <;> simp [positions, KalmanState.meanVec]
  ext i
  rw [KalmanState.meanVec, KalmanState.x, hfill, fillMean, hexpected,
    Pi.add_apply, mulVec, dotProduct, Fin.sum_univ_two]
  simp [Vector.getD, KalmanState.meanVec, KalmanState.gainMatrix]

/-- From a predicted filter with covariance `P` and mean `m`, a measurement
`z` with covariance `R` whose innovation covariance `S` can be inverted
gives covariance `P - P Hᵀ S⁻¹ H P` and mean `m + P Hᵀ S⁻¹ (z - H m)`, and
takes a positive semidefinite part from `P`. -/
theorem update_is_posterior {params : KalmanParams K} {timeNs : Int64}
    {measCov : Vector K 4} {sp : KalmanState K}
    (hpredict : obicallKalmanPredict s params timeNs = (.ok, sp))
    (hP : IsCovariance sp.cov) (hR : IsCovariance (measurementCov measCov))
    (hdet : 1e-15 ≤ |(sp.innovationCov measCov).det|) (zx zy : K) :
    let gain := sp.cov * (positions K)ᵀ * (sp.innovationCov measCov)⁻¹
    ∃ s', obicallKalmanUpdatePosition s params timeNs zx zy measCov = (.ok, s')
      ∧ s'.cov = sp.cov - gain * positions K * sp.cov
      ∧ s'.meanVec
        = sp.meanVec + gain *ᵥ (![zx, zy] - positions K *ᵥ sp.meanVec)
      ∧ IsCovariance (sp.cov - s'.cov) := by
  intro gain
  have hregular := regular_iff.mpr hdet
  have hunit : IsUnit (sp.innovationCov measCov).det := by
    refine isUnit_iff_ne_zero.mpr fun hzero => ?_
    rw [hzero, abs_zero] at hdet
    norm_num at hdet
  have hgain : gain * sp.innovationCov measCov = sp.cov * (positions K)ᵀ :=
    nonsing_inv_mul_cancel_right _ _ hunit
  have hcov : (sp.correct zx zy measCov).2.cov
      = sp.cov - gain * positions K * sp.cov := by
    rw [cov_correct hregular, gainMatrix_eq]
    exact joseph_eq hgain
  refine ⟨(sp.correct zx zy measCov).2, ?_, hcov, ?_, ?_⟩
  · rw [obicallKalmanUpdatePosition, hpredict]
    simp [← correct_of_regular hregular zx zy]
  · rw [mean_correct hregular, gainMatrix_eq]
  · rw [hcov, sub_sub_cancel]
    exact hP.explained hR hunit

-- =============================================================== samples

/-- A second after the first fix, when positions and velocities are
correlated. -/
def secondLater : Status × KalmanState ℚ :=
  obicallKalmanPredict (obicallKalmanInit ⟨1, 1, 25, 4, 2⟩ 0 0 0)
    ⟨1, 1, 25, 4, 2⟩ 1000000000

/-- A measurement whose coordinates are correlated. -/
theorem update_is_posterior_correlated :
    let sp := secondLater.2
    let r : Vector ℚ 4 := #v[2, 1, 1, 2]
    let gain := sp.cov * (positions ℚ)ᵀ * (sp.innovationCov r)⁻¹
    ∃ s', obicallKalmanUpdatePosition
        (obicallKalmanInit ⟨1, 1, 25, 4, 2⟩ 0 0 0) ⟨1, 1, 25, 4, 2⟩
        1000000000 3 4 r = (.ok, s')
      ∧ s'.cov = sp.cov - gain * positions ℚ * sp.cov
      ∧ s'.meanVec
        = sp.meanVec + gain *ᵥ (![3, 4] - positions ℚ *ᵥ sp.meanVec)
      ∧ IsCovariance (sp.cov - s'.cov) := by
  intro sp r
  have hpredict : secondLater = (.ok, sp) :=
    Prod.ext (by decide +kernel) rfl
  have hparams : (⟨1, 1, 25, 4, 2⟩ : KalmanParams ℚ).Nonneg := by
    constructor <;> norm_num
  have hinit : IsCovariance (obicallKalmanInit
      (⟨1, 1, 25, 4, 2⟩ : KalmanParams ℚ) 0 0 0).cov := by
    rw [cov_init]
    exact isCovariance_diagonal fun i => by split <;> norm_num
  have hR : IsCovariance (measurementCov r) := by
    refine ⟨Matrix.IsSymm.ext fun i j => ?_, fun v => ?_⟩
    · fin_cases i <;> fin_cases j <;> rfl
    · have hform : v ⬝ᵥ measurementCov r *ᵥ v
          = v 0 ^ 2 + v 1 ^ 2 + (v 0 + v 1) ^ 2 := by
        simp [dotProduct, mulVec, Fin.sum_univ_two, measurementCov, r,
          Vector.getD]
        ring
      rw [hform]
      positivity
  have hdet : 1e-15 ≤ |(sp.innovationCov r).det| := by
    rw [det_innovationCov]
    decide +kernel
  exact update_is_posterior hpredict
    (predict_isCovariance hparams hinit 1000000000) hR hdet 3 4

end Obicall
