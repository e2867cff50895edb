/-
Static fusion in exact arithmetic.

The two sums of the loop are the information of the readings
(`staticFuse_eq`), so what `Lib.Fusion` says of information holds of the
function: the order of the readings and their grouping do not matter, and
the result is no worse than any of them (`static_fusion`).
-/
import Obicall.Core.Estimator
import Obicall.Core.Exact
import Obicall.Lib.Fusion

namespace Obicall

open Lib.Fusion

variable {K : Type} [Field K] [LinearOrder K] [SquareRoot K]
  [IsStrictOrderedRing K]

/-- What fusing these readings is like. -/
structure FusesWell (readings : List (K × K)) : Prop where
  /-- Their order does not matter. -/
  perm : ∀ readings', readings'.Perm readings →
    obicallStaticFuse1d readings' = obicallStaticFuse1d readings
  /-- Two parts may be fused first, each by itself. -/
  split : ∀ left right, left ≠ [] → right ≠ [] →
    (left ++ right).Perm readings →
    ∃ l r, obicallStaticFuse1d left = .ok l
      ∧ obicallStaticFuse1d right = .ok r
      ∧ obicallStaticFuse1d [l, r] = obicallStaticFuse1d readings
  /-- The mean is between the means, the variance below the variances. -/
  bounds : ∃ mean variance,
    obicallStaticFuse1d readings = .ok (mean, variance)
      ∧ (∃ p ∈ readings, p.1 ≤ mean) ∧ (∃ p ∈ readings, mean ≤ p.1)
      ∧ ∀ p ∈ readings, variance ≤ p.2

-- =================================================================== loop

theorem staticFuseStep_eq {p : K × K} (hp : 0 < p.2) (sums : K × K) :
    staticFuseStep sums p = .ok (sums + information p) := by
  rw [staticFuseStep, exact_isFinite, exact_isFinite, exact_le, exact_zero,
    exact_one, decide_eq_false (not_le.mpr hp)]
  rfl

theorem staticFuse_foldlM {readings : List (K × K)}
    (hpos : ∀ p ∈ readings, 0 < p.2) (sums : K × K) :
    readings.foldlM staticFuseStep sums = .ok (sums + total readings) := by
  induction readings generalizing sums with
  | nil => exact congrArg Except.ok (add_zero sums).symm
  | cons p readings ih =>
      obtain ⟨hp, hpos⟩ := List.forall_mem_cons.mp hpos
      rw [List.foldlM_cons, staticFuseStep_eq hp, total_cons, ← add_assoc]
      exact ih hpos _

/-- Positive variances are fused to the estimate with all their
information. -/
theorem staticFuse_eq {readings : List (K × K)} (hne : readings ≠ [])
    (hpos : ∀ p ∈ readings, 0 < p.2) :
    obicallStaticFuse1d readings = .ok (estimate (total readings)) := by
  have hempty : readings.isEmpty = false := by
    cases readings with
    | nil => exact (hne rfl).elim
    | cons => rfl
  have hstart : ((0.0, 0.0) : K × K) = 0 := by
    rw [exact_zero]
    rfl
  rw [obicallStaticFuse1d, hempty, hstart, staticFuse_foldlM hpos, zero_add,
    exact_one]
  rfl

-- ================================================================= fusion

/-- Readings with positive variances fuse well. -/
theorem static_fusion {readings : List (K × K)} (hne : readings ≠ [])
    (hpos : ∀ p ∈ readings, 0 < p.2) : FusesWell readings where
  perm readings' hperm := by
    have hne' : readings' ≠ [] := by
      rintro rfl
      exact hne hperm.symm.eq_nil
    rw [staticFuse_eq hne hpos, staticFuse_eq hne' fun p hp =>
      hpos p (hperm.mem_iff.mp hp), total_perm hperm]
  split left right hleft hright hperm := by
    have hposl : ∀ p ∈ left, 0 < p.2 := fun p hp =>
      hpos p (hperm.mem_iff.mp (List.mem_append_left _ hp))
    have hposr : ∀ p ∈ right, 0 < p.2 := fun p hp =>
      hpos p (hperm.mem_iff.mp (List.mem_append_right _ hp))
    have hpair : ∀ p ∈ [estimate (total left), estimate (total right)],
        0 < p.2 := by
      intro p hp
      rcases List.mem_pair.mp hp with rfl | rfl
      · exact one_div_pos.mpr (precision_pos hleft hposl)
      · exact one_div_pos.mpr (precision_pos hright hposr)
    refine ⟨_, _, staticFuse_eq hleft hposl, staticFuse_eq hright hposr, ?_⟩
    rw [staticFuse_eq (List.cons_ne_nil _ _) hpair, staticFuse_eq hne hpos,
      total_pair_estimate (precision_pos hleft hposl).ne'
        (precision_pos hright hposr).ne', ← total_append,
      total_perm hperm]
  bounds := ⟨_, _, staticFuse_eq hne hpos, exists_mean_le hne hpos,
    exists_le_mean hne hpos, fun _ => variance_le hpos⟩

/-- Ten metres and ten forty, the second four times as uncertain. -/
theorem static_fusion_two :
    FusesWell [((10 : ℚ), 4 / 100), (104 / 10, 16 / 100)] :=
  static_fusion (List.cons_ne_nil _ _) (by decide +kernel)

example : obicallStaticFuse1d [((10 : ℚ), 4 / 100), (104 / 10, 16 / 100)]
    = .ok (1008 / 100, 32 / 1000) := by decide +kernel

end Obicall
