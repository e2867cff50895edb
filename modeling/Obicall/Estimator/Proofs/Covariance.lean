/-
The filter's covariance stays one: in exact arithmetic it is symmetric
and positive semidefinite after every call (`covariance_kept`).

# The two updates as matrices

The loops over four states and two measurements are matrix products. A
prediction leaves `F P Fᵀ + Q`, an update `A P Aᵀ + K R Kᵀ` with
`A = I - K H`. Both keep a covariance whatever `F`, `A` and `K` are, so
neither the gain nor the inverse it is made from matters here.
-/
import Mathlib.Algebra.BigOperators.Fin
import Obicall.Core.Estimator
import Obicall.Core.Exact
import Obicall.Lib.Psd
import Obicall.Lib.Run

namespace Obicall

open Lib.Psd Lib.Run Matrix

variable {K : Type} [Field K] [LinearOrder K] [SquareRoot K]

-- ============================================================= statement

/-- The state covariance. -/
def KalmanState.cov (s : KalmanState K) : Matrix (Fin 4) (Fin 4) K :=
  fun i j => s.p i j

/-- A measurement covariance, as the code stores it row by row. -/
def measurementCov (r : Vector K 4) : Matrix (Fin 2) (Fin 2) K :=
  fun a b => r.getD (2 * a.val + b.val) 0

/-- `H`: a measurement is of the two positions. -/
def positions (K : Type) [Field K] : Matrix (Fin 2) (Fin 4) K :=
  fun a i => if i.val = a.val then 1 else 0

/-- The filter after a call, whatever the call returns. -/
def KalmanState.call (params : KalmanParams K) (s : KalmanState K) :
    KalmanCall K → KalmanState K
  | .predict timeNs => (obicallKalmanPredict s params timeNs).2
  | .updatePosition timeNs zx zy measCov =>
      (obicallKalmanUpdatePosition s params timeNs zx zy measCov).2

/-- A measurement comes with a covariance. -/
def KalmanCall.Measures : KalmanCall K → Prop
  | .predict _ => True
  | .updatePosition _ _ _ measCov => IsCovariance (measurementCov measCov)

/-- No noise or initial variance is negative. -/
structure KalmanParams.Nonneg (params : KalmanParams K) : Prop where
  processNoisePosition : 0 ≤ params.processNoisePosition
  processNoiseVelocity : 0 ≤ params.processNoiseVelocity
  initialPositionVariance : 0 ≤ params.initialPositionVariance
  initialVelocityVariance : 0 ≤ params.initialVelocityVariance

-- =============================================================== matrices

/-- The gain, from the inverse of the innovation covariance. -/
def KalmanState.gain (s : KalmanState K) (r : Vector K 4) (i b : Nat) : K :=
  let det := s.innovationDet r
  if b = 0 then
    s.p i 0 * ((s.p 1 1 + r.get 3) / det)
      + s.p i 1 * (-(s.p 1 0 + r.get 2) / det)
  else
    s.p i 0 * (-(s.p 0 1 + r.get 1) / det)
      + s.p i 1 * ((s.p 0 0 + r.get 0) / det)

def KalmanState.gainMatrix (s : KalmanState K) (r : Vector K 4) :
    Matrix (Fin 4) (Fin 2) K :=
  fun i b => s.gain r i b

omit [LinearOrder K] [SquareRoot K] in
/-- Row by row. -/
theorem measurementCov_eq (r : Vector K 4) :
    measurementCov r = !![r.get 0, r.get 1; r.get 2, r.get 3] := by
  ext a b
  fin_cases a <;> fin_cases b <;> simp [measurementCov, Vector.getD] <;> rfl

/-- What is filled in is what is read. -/
theorem p_fillCovariance {s : KalmanState K} {p : Nat → Nat → K}
    (h : s.covariance = fillCovariance p) (i j : Fin 4) :
    s.p i j = p i j := by
  have hlt : i.val * 4 + j.val < 16 := by omega
  have hdiv : (i.val * 4 + j.val) / 4 = i.val := by omega
  have hmod : (i.val * 4 + j.val) % 4 = j.val := by omega
  rw [KalmanState.p, h, fillCovariance]
  simp [Vector.getD, hlt, hdiv, hmod]

variable [IsStrictOrderedRing K]

theorem accumulate_four (term : Nat → K) :
    accumulate 4 term = ∑ k : Fin 4, term k := by
  simp [accumulate, List.range_succ, Fin.sum_univ_four]

/-- The prediction: `F P Fᵀ + Q`. -/
theorem cov_propagate (s : KalmanState K) (params : KalmanParams K) (dt : K)
    (timeNs : Int64) :
    ∃ f : Matrix (Fin 4) (Fin 4) K,
      (s.propagate params dt timeNs).cov = f * s.cov * fᵀ
        + diagonal fun i => if i.val < 2 then params.processNoisePosition * dt
          else params.processNoiseVelocity * dt := by
  have hfill : (s.propagate params dt timeNs).covariance
      = fillCovariance fun i j =>
        (accumulate 4 fun k =>
            (accumulate 4 fun l => transition dt i l * s.p l k)
              * transition dt j k)
          + if i = j then if i < 2 then params.processNoisePosition * dt
              else params.processNoiseVelocity * dt
            else 0.0 := rfl
  refine ⟨Matrix.of fun i j => transition dt i j, ?_⟩
  ext i j
  rw [KalmanState.cov, p_fillCovariance hfill]
  simp only [accumulate_four]
  rw [Matrix.add_apply, Matrix.mul_apply, diagonal_apply]
  refine congrArg₂ (· + ·) ?_ ?_
  · refine Finset.sum_congr rfl fun k _ => ?_
    rw [Matrix.mul_apply]
    rfl
  · by_cases hij : i = j
    · rw [if_pos hij, if_pos (congrArg Fin.val hij)]
    · rw [if_neg hij, if_neg fun h => hij (Fin.ext h), exact_zero]

omit [IsStrictOrderedRing K] in
/-- `K`, as the code computes it from the inverse by hand. -/
theorem correct_regular {s : KalmanState K} {r : Vector K 4}
    (h : s.singular r = false) (zx zy : K) :
    let k (b i : Nat) : K := s.gain r i b
    let ikh (i j : Nat) : K := (if i = j then 1.0 else 0.0)
      - if j = 0 then k 0 i else if j = 1 then k 1 i else 0.0
    s.correct zx zy r = (.ok, { s with
      mean := fillMean fun i =>
        s.x i + (k 0 i * (zx - s.x 0) + k 1 i * (zy - s.x 1))
      covariance := fillCovariance fun i j =>
        (accumulate 4 fun n =>
            (accumulate 4 fun l => ikh i l * s.p l n) * ikh j n)
          + ((k 0 i * r.get 0 + k 1 i * r.get 2) * k 0 j
            + (k 0 i * r.get 1 + k 1 i * r.get 3) * k 1 j) }) :=
  if_neg (Bool.eq_false_iff.mp h)

/-- `I - K H`. -/
theorem one_sub_gain_apply (s : KalmanState K) (r : Vector K 4)
    (i j : Fin 4) :
    (1 - s.gainMatrix r * positions K : Matrix (Fin 4) (Fin 4) K) i j
      = (if i.val = j.val then 1.0 else 0.0)
        - if j.val = 0 then s.gain r i 0
          else if j.val = 1 then s.gain r i 1 else 0.0 := by
  have hgain : (s.gainMatrix r * positions K) i j
      = if j.val = 0 then s.gain r i 0
        else if j.val = 1 then s.gain r i 1 else 0.0 := by
    rw [Matrix.mul_apply, Fin.sum_univ_two]
    fin_cases j <;> simp [positions, KalmanState.gainMatrix]
  rw [Matrix.sub_apply, hgain, one_apply, exact_one, exact_zero]
  simp only [Fin.ext_iff]

/-- The correction: `A P Aᵀ + K R Kᵀ` with `A = I - K H`. -/
theorem cov_correct {s : KalmanState K} {r : Vector K 4}
    (h : s.singular r = false) (zx zy : K) :
    (s.correct zx zy r).2.cov
      = (1 - s.gainMatrix r * positions K) * s.cov
          * (1 - s.gainMatrix r * positions K)ᵀ
        + s.gainMatrix r * measurementCov r * (s.gainMatrix r)ᵀ := by
  have hfill := congrArg (fun out => out.2.covariance)
    (correct_regular h zx zy)
  dsimp only at hfill
  ext i j
  rw [KalmanState.cov, p_fillCovariance hfill]
  simp only [accumulate_four, ← one_sub_gain_apply]
  rw [Matrix.add_apply, Matrix.mul_apply]
  refine congrArg₂ (· + ·) ?_ ?_
  · refine Finset.sum_congr rfl fun k _ => ?_
    rw [Matrix.mul_apply]
    rfl
  · simp [Matrix.mul_apply, Fin.sum_univ_two, measurementCov_eq,
      KalmanState.gainMatrix]

theorem cov_init (params : KalmanParams K) (x0 y0 : K) (timeNs : Int64) :
    (obicallKalmanInit params x0 y0 timeNs).cov = diagonal fun i : Fin 4 =>
      if i.val < 2 then params.initialPositionVariance
      else params.initialVelocityVariance := by
  have hfill : (obicallKalmanInit params x0 y0 timeNs).covariance
      = fillCovariance fun i j =>
        if i ≠ j then 0.0
        else if i < 2 then params.initialPositionVariance
        else params.initialVelocityVariance := rfl
  ext i j
  rw [KalmanState.cov, p_fillCovariance hfill, diagonal_apply]
  by_cases hij : i = j
  · rw [if_pos hij, if_neg fun h => h (congrArg Fin.val hij)]
  · rw [if_neg hij, if_pos fun h => hij (Fin.ext h), exact_zero]

-- ================================================================== calls

theorem correct_isCovariance {s : KalmanState K} (h : IsCovariance s.cov)
    (zx zy : K) {r : Vector K 4} (hr : IsCovariance (measurementCov r)) :
    IsCovariance (s.correct zx zy r).2.cov := by
  cases hsing : s.singular r with
  | true =>
      rw [correct_of_singular hsing]
      exact h
  | false =>
      rw [cov_correct hsing]
      exact (h.congr _).add (hr.congr _)

variable {params : KalmanParams K} (hparams : params.Nonneg)
include hparams

theorem propagate_isCovariance {s : KalmanState K} (h : IsCovariance s.cov)
    {dt : K} (hdt : 0 ≤ dt) (timeNs : Int64) :
    IsCovariance (s.propagate params dt timeNs).cov := by
  obtain ⟨f, hcov⟩ := cov_propagate s params dt timeNs
  rw [hcov]
  refine (h.congr f).add (isCovariance_diagonal fun i => ?_)
  split
  · exact mul_nonneg hparams.processNoisePosition hdt
  · exact mul_nonneg hparams.processNoiseVelocity hdt

/-- Of the ways out of a prediction only the last moves the filter, and
the checks before it have seen that time does not run back. -/
theorem predict_isCovariance {s : KalmanState K} (h : IsCovariance s.cov)
    (timeNs : Int64) :
    IsCovariance (obicallKalmanPredict s params timeNs).2.cov := by
  rw [obicallKalmanPredict]
  split
  · exact h
  split
  · exact h
  dsimp only
  split
  case isTrue => exact h
  case isFalse hdt =>
    split
    · exact h
    · refine propagate_isCovariance hparams h (not_lt.mp ?_) timeNs
      simpa using hdt

theorem call_isCovariance {s : KalmanState K} (h : IsCovariance s.cov)
    {c : KalmanCall K} (hc : c.Measures) :
    IsCovariance (s.call params c).cov := by
  cases c with
  | predict timeNs => exact predict_isCovariance hparams h timeNs
  | updatePosition timeNs zx zy measCov =>
      have hpredict := predict_isCovariance hparams h timeNs
      rw [KalmanState.call, obicallKalmanUpdatePosition]
      split
      · exact h
      split
      · exact h
      split
      next heq =>
        rw [heq] at hpredict
        exact correct_isCovariance hpredict zx zy hc
      next heq =>
        rw [heq] at hpredict
        exact hpredict

/-- The covariance is symmetric and positive semidefinite after
initialisation and after every call, whatever the times, the measurements
and the calls' results. -/
theorem covariance_kept (x0 y0 : K) (t0 : Int64) {calls : List (KalmanCall K)}
    (hcalls : ∀ c ∈ calls, c.Measures) :
    IsCovariance (run (KalmanState.call params)
      (obicallKalmanInit params x0 y0 t0) calls).cov := by
  have hinit : IsCovariance (obicallKalmanInit params x0 y0 t0).cov := by
    rw [cov_init]
    refine isCovariance_diagonal fun i => ?_
    split
    · exact hparams.initialPositionVariance
    · exact hparams.initialVelocityVariance
  exact run_inv_of_mem (P := fun s : KalmanState K => IsCovariance s.cov)
    (C := KalmanCall.Measures)
    (fun _ _ hc h => call_isCovariance hparams h hc) hinit hcalls

omit hparams in
/-- A prediction asked for the past, and a fix half a second later. -/
theorem covariance_kept_fix :
    IsCovariance (run
      (KalmanState.call (⟨1, 1, 25, 4, 2⟩ : KalmanParams ℚ))
      (obicallKalmanInit ⟨1, 1, 25, 4, 2⟩ 0 0 1000000000)
      [.predict 0, .updatePosition 1500000000 1 2 #v[4, 0, 0, 9]]).cov := by
  have hmeas :
      IsCovariance (measurementCov (#v[4, 0, 0, 9] : Vector ℚ 4)) := by
    have hdiag : measurementCov (#v[4, 0, 0, 9] : Vector ℚ 4)
        = diagonal fun i => if i = 0 then 4 else 9 := by
      ext i j
      fin_cases i <;> fin_cases j <;> rfl
    rw [hdiag]
    exact isCovariance_diagonal fun i => by split <;> norm_num
  refine covariance_kept ⟨?_, ?_, ?_, ?_⟩ 0 0 1000000000
    (List.forall_mem_cons.mpr
      ⟨trivial, List.forall_mem_singleton.mpr hmeas⟩)
  all_goals norm_num

end Obicall
