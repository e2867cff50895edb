/-
When the filter takes a position: the time test of
`obicall_kalman_predict`.

A measurement not before the filter's time is taken exactly when it is
within the gap (`KalmanParams.WithinGap`), and then the filter has its
time, whatever becomes of the correction. Otherwise nothing changes. The
test is monotone: what is too late for the filter leaves everything
later too late as well (`WithinGap.of_le`).
-/
import Mathlib.Data.List.Basic
import Obicall.Core.Clock
import Obicall.Core.Estimator
import Obicall.Lib.Elapsed

namespace Obicall

open DoubleArith Lib.Elapsed

variable {F : Type} [DoubleArith F]

-- ============================================================= statement

/-- `b` comes at most `max_prediction_gap_s` after `a`, as the code
measures it: the difference fits an `int64_t`, and its seconds pass the
test. -/
structure KalmanParams.WithinGap (params : KalmanParams F) (a b : Int64) :
    Prop where
  fits : b.toInt - a.toInt < 2 ^ 63
  passes : lt params.maxPredictionGapS (seconds (b - a)) = false

variable [ClockArith F] {params : KalmanParams F}

theorem KalmanParams.WithinGap.refl
    (hgap : lt 0.0 params.maxPredictionGapS = true) (a : Int64) :
    params.WithinGap a a where
  fits := by omega
  passes := by
    rw [Int64.sub_self]
    exact ClockArith.seconds_zero _ hgap

theorem KalmanParams.WithinGap.of_le {a b c : Int64} (hab : a ≤ b)
    (hbc : b ≤ c) (h : params.WithinGap a c) : params.WithinGap a b := by
  have hab' := Int64.le_iff_toInt_le.mp hab
  have hbc' := Int64.le_iff_toInt_le.mp hbc
  have hfits := h.fits
  refine ⟨by omega, Bool.eq_false_iff.mpr fun hlate => ?_⟩
  have hsub := toInt_sub_of_le (Int64.le_trans hab hbc) hfits
  have hsub' := toInt_sub_of_le hab (by omega)
  have := ClockArith.seconds_mono _ (b - a) (c - a) (by omega) (by omega)
    hlate
  rw [h.passes] at this
  cases this

-- ================================================================= calls

/-- The time test, for a time that is not before the filter's. -/
theorem predict_iff_withinGap {s : KalmanState F} {timeNs : Int64}
    (hinit : s.initialized = true)
    (hgap : lt 0.0 params.maxPredictionGapS = true)
    (hle : s.lastUpdateTimeNs ≤ timeNs) :
    (obicallKalmanPredict s params timeNs).1 = .ok
      ↔ params.WithinGap s.lastUpdateTimeNs timeNs := by
  rw [obicallKalmanPredict, hinit]
  by_cases heq : timeNs = s.lastUpdateTimeNs
  · rw [if_neg (by decide), if_pos heq, heq]
    exact iff_of_true rfl (.refl hgap _)
  · rw [if_neg (by decide), if_neg heq]
    have hdt : (ofInt64 (timeNs - s.lastUpdateTimeNs) / 1e9 : F)
        = seconds (timeNs - s.lastUpdateTimeNs) := rfl
    dsimp only
    rw [hdt, hgap, Bool.true_and]
    by_cases hfits : timeNs.toInt - s.lastUpdateTimeNs.toInt < 2 ^ 63
    · have hsub := toInt_sub_of_le hle hfits
      have hle' := Int64.le_iff_toInt_le.mp hle
      rw [ClockArith.seconds_nonneg _ (by omega), if_neg (by decide)]
      cases hlate : lt params.maxPredictionGapS
          (seconds (timeNs - s.lastUpdateTimeNs)) with
      | false => exact iff_of_true rfl ⟨hfits, hlate⟩
      | true =>
          rw [if_pos rfl]
          refine iff_of_false nofun fun h => ?_
          rw [h.passes] at hlate
          cases hlate
    · rw [ClockArith.seconds_neg _ (toInt_sub_neg_of_wraps hfits),
        if_pos rfl]
      exact iff_of_false nofun fun h => hfits h.fits

section

variable {s : KalmanState F} {timeNs : Int64} {zx zy : F}
  {measCov : Vector F 4} (hinit : s.initialized = true)
  (hgap : lt 0.0 params.maxPredictionGapS = true)
  (hle : s.lastUpdateTimeNs ≤ timeNs)
include hinit hgap hle

/-- A finite measurement within the gap moves the filter to its time. -/
theorem update_of_withinGap
    (hzx : isFinite zx = true) (hzy : isFinite zy = true)
    (hcov : measCov.toList.all isFinite = true)
    (h : params.WithinGap s.lastUpdateTimeNs timeNs) :
    let s' := (obicallKalmanUpdatePosition s params timeNs zx zy measCov).2
    s'.initialized = true ∧ s'.lastUpdateTimeNs = timeNs := by
  have hok := (predict_iff_withinGap hinit hgap hle).mpr h
  have houtcome := obicallKalmanPredict_outcome s params timeNs
  rw [obicallKalmanUpdatePosition, hzx, hzy, hcov]
  generalize obicallKalmanPredict s params timeNs = r at hok houtcome
  obtain ⟨st, s'⟩ := r
  dsimp only at hok houtcome
  subst hok
  obtain ⟨hinit', htime'⟩ := houtcome
  obtain ⟨hinit'', htime''⟩ := correct_frame s' zx zy measCov
  exact ⟨hinit''.trans hinit', htime''.trans htime'⟩

/-- One that is not within it leaves the filter as it is. -/
theorem update_of_not_withinGap
    (h : ¬ params.WithinGap s.lastUpdateTimeNs timeNs) :
    (obicallKalmanUpdatePosition s params timeNs zx zy measCov).2 = s := by
  have hok := mt (predict_iff_withinGap hinit hgap hle).mp h
  have houtcome := obicallKalmanPredict_outcome s params timeNs
  rw [obicallKalmanUpdatePosition]
  generalize obicallKalmanPredict s params timeNs = r at hok houtcome
  obtain ⟨st, s'⟩ := r
  dsimp only at hok houtcome
  rw [if_neg hok] at houtcome
  split
  · rfl
  split
  · rfl
  split
  next heq => exact absurd (congrArg Prod.fst heq) hok
  next heq =>
    rw [← houtcome]
    exact (congrArg Prod.snd heq).symm

end

end Obicall
