/-
What a measurement update that fails leaves behind.

Four of its five ways out come before the filter is touched. The fifth,
an innovation covariance that cannot be inverted, comes after the
prediction, which is kept: the filter is then at the measurement's time,
as if it had only been predicted there (`failed_update`).
-/
import Mathlib.Data.List.Basic
import Obicall.Core.Binary64
import Obicall.Core.Estimator

namespace Obicall

variable {F : Type} [DoubleArith F]

/-- A prediction has its own ways to fail. -/
theorem predict_status_ne (s : KalmanState F) (params : KalmanParams F)
    (timeNs : Int64) :
    (obicallKalmanPredict s params timeNs).1 ≠ .errValidationCovariance := by
  rw [obicallKalmanPredict]
  dsimp only
  repeat' split
  all_goals exact nofun

theorem predict_initialized (s : KalmanState F) (params : KalmanParams F)
    (timeNs : Int64) :
    (obicallKalmanPredict s params timeNs).2.initialized
      = s.initialized := by
  rw [obicallKalmanPredict]
  dsimp only
  repeat' split
  all_goals rfl

/-- An update that fails leaves the filter as it was, or, when the
innovation covariance is singular, as the prediction to the measurement's
time left it. -/
theorem failed_update {s : KalmanState F} {params : KalmanParams F}
    {timeNs : Int64} {zx zy : F} {measCov : Vector F 4} {st : Status}
    {s' : KalmanState F}
    (h : obicallKalmanUpdatePosition s params timeNs zx zy measCov = (st, s'))
    (hfail : st ≠ .ok) :
    s'.initialized = s.initialized
      ∧ (st ≠ .errValidationCovariance → s' = s)
      ∧ (st = .errValidationCovariance →
        obicallKalmanPredict s params timeNs = (.ok, s')
          ∧ s'.singular measCov = true) := by
  have hstatus := predict_status_ne s params timeNs
  have hinit := predict_initialized s params timeNs
  have houtcome := obicallKalmanPredict_outcome s params timeNs
  rw [obicallKalmanUpdatePosition] at h
  split at h
  · cases h
    exact ⟨rfl, fun _ => rfl, fun hcov => absurd hcov (by decide)⟩
  split at h
  · cases h
    exact ⟨rfl, fun _ => rfl, fun hcov => absurd hcov (by decide)⟩
  split at h
  next s₁ heq =>
    rw [heq] at hinit
    cases hsing : s₁.singular measCov with
    | false =>
        have hok := correct_of_regular hsing zx zy
        rw [h] at hok
        exact (hfail hok).elim
    | true =>
        rw [correct_of_singular hsing] at h
        cases h
        exact ⟨hinit, fun hne => (hne rfl).elim, fun _ => ⟨heq, hsing⟩⟩
  next st₁ s₁ hne heq =>
    cases h
    rw [heq] at hstatus houtcome
    have hsame : s' = s := by simpa only [if_neg hfail] using houtcome
    exact ⟨congrArg KalmanState.initialized hsame, fun _ => hsame,
      fun hcov => (hstatus hcov).elim⟩

-- =============================================================== samples

/-- A filter that is sure of its state, without process noise. -/
def sureState : KalmanState Binary64 where
  initialized := true
  mean := #v[0.0, 0.0, 1.0, 0.0]
  covariance := Vector.replicate _ 0.0
  lastUpdateTimeNs := 0

def noNoise : KalmanParams Binary64 := ⟨0.0, 0.0, 0.0, 0.0, 30.0⟩

/-- A measurement that claims to be exact, one second later. -/
def sureUpdate : Status × KalmanState Binary64 :=
  obicallKalmanUpdatePosition sureState noNoise 1000000000 5.0 5.0
    (Vector.replicate _ 0.0)

theorem failed_update_sure :
    sureUpdate.1 ≠ .ok
      ∧ sureUpdate.2.initialized = sureState.initialized
      ∧ (sureUpdate.1 ≠ .errValidationCovariance → sureUpdate.2 = sureState)
      ∧ (sureUpdate.1 = .errValidationCovariance →
        obicallKalmanPredict sureState noNoise 1000000000
            = (.ok, sureUpdate.2)
          ∧ sureUpdate.2.singular (Vector.replicate _ 0.0) = true) := by
  have hfail : sureUpdate.1 ≠ .ok := by decide +kernel
  have hout : obicallKalmanUpdatePosition sureState noNoise 1000000000 5.0 5.0
      (Vector.replicate _ 0.0) = (sureUpdate.1, sureUpdate.2) := by
    rw [← sureUpdate]
  exact ⟨hfail, failed_update hout hfail⟩

/-- It fails, and the filter has moved: to the measurement's time, and to
where it would be then. -/
theorem failed_update_moves :
    sureUpdate.1 = .errValidationCovariance
      ∧ sureUpdate.2.lastUpdateTimeNs ≠ sureState.lastUpdateTimeNs
      ∧ sureUpdate.2.mean ≠ sureState.mean := by
  decide +kernel

end Obicall
