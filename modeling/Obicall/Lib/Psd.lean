/-
Covariance matrices over an ordered field: symmetric, with a quadratic
form that is nowhere negative. Sums, diagonals of nonnegative entries and
congruences `A * P * Aᵀ` are covariances again, which is all that linear
filters make of them.

A linear measurement `H` with noise `R` has the innovation covariance
`H * P * Hᵀ + R`. With the gain that belongs to it, the Joseph form of the
update is `P` less what the measurement explains (`joseph_eq`), and that
is a covariance (`IsCovariance.explained`).

`Matrix.PosSemidef` is about rings with a star; the numbers here have
none.
-/
import Mathlib.Algebra.Order.BigOperators.Ring.Finset
import Mathlib.LinearAlgebra.Matrix.NonsingularInverse
import Mathlib.LinearAlgebra.Matrix.Symmetric

namespace Lib.Psd

open Matrix

variable {m n : Type} [Fintype m] [Fintype n]
  {K : Type} [Field K] [LinearOrder K]

/-- Symmetric positive semidefinite. -/
structure IsCovariance (P : Matrix n n K) : Prop where
  symm : P.IsSymm
  nonneg : ∀ v, 0 ≤ v ⬝ᵥ P *ᵥ v

theorem IsCovariance.congr {P : Matrix n n K} (h : IsCovariance P)
    (A : Matrix m n K) : IsCovariance (A * P * Aᵀ) where
  symm := by
    rw [Matrix.IsSymm, transpose_mul, transpose_mul, transpose_transpose,
      h.symm, Matrix.mul_assoc]
  nonneg v := by
    have hv : v ⬝ᵥ (A * P * Aᵀ) *ᵥ v = (Aᵀ *ᵥ v) ⬝ᵥ P *ᵥ (Aᵀ *ᵥ v) := by
      rw [← mulVec_mulVec, ← mulVec_mulVec, dotProduct_mulVec, mulVec_transpose]
    rw [hv]
    exact h.nonneg _

variable [IsStrictOrderedRing K]

theorem IsCovariance.add {P Q : Matrix n n K} (hP : IsCovariance P)
    (hQ : IsCovariance Q) : IsCovariance (P + Q) where
  symm := hP.symm.add hQ.symm
  nonneg v := by
    rw [add_mulVec, dotProduct_add]
    exact add_nonneg (hP.nonneg v) (hQ.nonneg v)

theorem isCovariance_diagonal [DecidableEq n] {d : n → K}
    (hd : ∀ i, 0 ≤ d i) : IsCovariance (diagonal d) where
  symm := isSymm_diagonal d
  nonneg v := by
    refine Finset.sum_nonneg fun i _ => ?_
    rw [mulVec_diagonal, mul_left_comm]
    exact mul_nonneg (hd i) (mul_self_nonneg (v i))

-- =========================================================== measurements

section Measurement

variable {P : Matrix n n K} {H : Matrix m n K} {R : Matrix m m K}

omit [LinearOrder K] [IsStrictOrderedRing K] in
/-- The Joseph form, with a gain that maps the innovation covariance to the
cross covariance. -/
theorem joseph_eq [DecidableEq n] {G : Matrix n m K}
    (hG : G * (H * P * Hᵀ + R) = P * Hᵀ) :
    (1 - G * H) * P * (1 - G * H)ᵀ + G * R * Gᵀ = P - G * H * P := by
  have hexpand : (1 - G * H) * P * (1 - G * H)ᵀ + G * R * Gᵀ
      = P - G * H * P - P * Hᵀ * Gᵀ + G * (H * P * Hᵀ + R) * Gᵀ := by
    rw [transpose_sub, transpose_one, transpose_mul]
    simp only [Matrix.sub_mul, Matrix.mul_sub, Matrix.one_mul,
      Matrix.mul_one, Matrix.mul_add, Matrix.add_mul, Matrix.mul_assoc]
    abel
  rw [hexpand, hG, sub_add_cancel]

/-- What a measurement explains is a covariance. -/
theorem IsCovariance.explained [DecidableEq m] (hP : IsCovariance P)
    (hR : IsCovariance R) (hS : IsUnit (H * P * Hᵀ + R).det) :
    IsCovariance (P * Hᵀ * (H * P * Hᵀ + R)⁻¹ * H * P) := by
  have hScov : IsCovariance (H * P * Hᵀ + R) := (hP.congr H).add hR
  generalize H * P * Hᵀ + R = S at hS hScov
  have hinv : (S⁻¹)ᵀ = S⁻¹ := by
    rw [transpose_nonsing_inv, hScov.symm]
  have hcongr : P * Hᵀ * S⁻¹ * S * (P * Hᵀ * S⁻¹)ᵀ
      = P * Hᵀ * S⁻¹ * H * P := by
    rw [nonsing_inv_mul_cancel_right _ _ hS, transpose_mul, transpose_mul,
      transpose_transpose, hinv, hP.symm]
    simp only [Matrix.mul_assoc]
  rw [← hcongr]
  exact hScov.congr _

end Measurement

end Lib.Psd
