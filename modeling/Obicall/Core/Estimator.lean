/-
`estimator.c`: the constant-velocity Kalman filter over
`[px, py, vx, vy]`, and static fusion.

Covariances are stored row by row. The loops over the four states are
sums in index order from `0.0`, as the code accumulates them, so that
the model rounds where the code rounds.
-/
import Mathlib.Data.List.Basic
import Obicall.Core.Types

namespace Obicall

open DoubleArith

variable {F : Type}

-- ================================================================= state

/-- `obicall_kalman_params_t`. -/
structure KalmanParams (F : Type) where
  processNoisePosition : F
  processNoiseVelocity : F
  initialPositionVariance : F
  initialVelocityVariance : F
  maxPredictionGapS : F
  deriving DecidableEq

/-- `obicall_kalman_state_t`. -/
structure KalmanState (F : Type) where
  initialized : Bool
  mean : Vector F 4
  covariance : Vector F 16
  lastUpdateTimeNs : Int64
  deriving DecidableEq

/-- A filter after `memset(.., 0, ..)`. -/
def KalmanState.zero (F : Type) [DoubleBits F] : KalmanState F :=
  ⟨false, Vector.replicate _ (zeroDouble F),
    Vector.replicate _ (zeroDouble F), 0⟩

variable [DoubleArith F]

/-- The 4 by 4 matrix `p` the functions copy the covariance into. -/
def KalmanState.p (s : KalmanState F) (i j : Nat) : F :=
  s.covariance.getD (i * 4 + j) 0.0

def KalmanState.x (s : KalmanState F) (i : Nat) : F := s.mean.getD i 0.0

/-- A vector filled by `v[i] = ..`. -/
def fillMean (x : Nat → F) : Vector F 4 := Vector.ofFn fun i => x i.val

/-- A matrix filled by `p[i * 4 + j] = ..`. -/
def fillCovariance (p : Nat → Nat → F) : Vector F 16 :=
  Vector.ofFn fun n => p (n.val / 4) (n.val % 4)

/-- `0.0`, and `+=` for each of the first `n` terms. -/
def accumulate (n : Nat) (term : Nat → F) : F :=
  (List.range n).foldl (fun acc k => acc + term k) 0.0

-- ========================================================= initialisation

/-- `obicall_kalman_init`. -/
def obicallKalmanInit (params : KalmanParams F) (x0 y0 : F)
    (timeNs : Int64) : KalmanState F where
  initialized := true
  mean := #v[x0, y0, 0.0, 0.0]
  covariance := fillCovariance fun i j =>
    if i ≠ j then 0.0
    else if i < 2 then params.initialPositionVariance
    else params.initialVelocityVariance
  lastUpdateTimeNs := timeNs

-- ============================================================= prediction

/-- `f`, the constant-velocity transition. -/
def transition (dt : F) (i j : Nat) : F :=
  if i = j then 1.0 else if j = i + 2 then dt else 0.0

/-- The part of `obicall_kalman_predict` past its checks. -/
def KalmanState.propagate (s : KalmanState F) (params : KalmanParams F)
    (dt : F) (timeNs : Int64) : KalmanState F :=
  let f := transition dt
  let fp (i j : Nat) := accumulate 4 fun k => f i k * s.p k j
  let fpft (i j : Nat) := accumulate 4 fun k => fp i k * f j k
  let qPos := params.processNoisePosition * dt
  let qVel := params.processNoiseVelocity * dt
  { s with
    mean := fillMean fun i => accumulate 4 fun j => f i j * s.x j
    covariance := fillCovariance fun i j =>
      fpft i j + if i = j then if i < 2 then qPos else qVel else 0.0
    lastUpdateTimeNs := timeNs }

/-- `obicall_kalman_predict`: the status and the filter it leaves. -/
def obicallKalmanPredict (s : KalmanState F) (params : KalmanParams F)
    (timeNs : Int64) : Status × KalmanState F :=
  if !s.initialized then (.errInvalidArgument, s)
  else if timeNs = s.lastUpdateTimeNs then (.ok, s)
  else
    let dt : F := ofInt64 (timeNs - s.lastUpdateTimeNs) / 1e9
    if lt dt 0.0 then (.errValidationTiming, s)
    else if lt 0.0 params.maxPredictionGapS
        && lt params.maxPredictionGapS dt then
      (.errValidationTiming, s)
    else (.ok, s.propagate params dt timeNs)

-- ================================================================= update

/-- The part of `obicall_kalman_update_position` past the prediction:
the innovation covariance and its inverse, the gain, and the Joseph
form. -/
def KalmanState.correct (s : KalmanState F) (zx zy : F) (r : Vector F 4) :
    Status × KalmanState F :=
  let y0 := zx - s.x 0
  let y1 := zy - s.x 1
  let s00 := s.p 0 0 + r[0]
  let s01 := s.p 0 1 + r[1]
  let s10 := s.p 1 0 + r[2]
  let s11 := s.p 1 1 + r[3]
  let det := s00 * s11 - s01 * s10
  if !isFinite det || lt (fabs det) 1e-15 then
    (.errValidationCovariance, s)
  else
    let k0 (i : Nat) := s.p i 0 * (s11 / det) + s.p i 1 * (-s10 / det)
    let k1 (i : Nat) := s.p i 0 * (-s01 / det) + s.p i 1 * (s00 / det)
    let kh (i j : Nat) := if j = 0 then k0 i else if j = 1 then k1 i else 0.0
    let ikh (i j : Nat) := (if i = j then 1.0 else 0.0) - kh i j
    let tmp (i j : Nat) := accumulate 4 fun k => ikh i k * s.p k j
    let kr0 (i : Nat) := k0 i * r[0] + k1 i * r[2]
    let kr1 (i : Nat) := k0 i * r[1] + k1 i * r[3]
    (.ok, { s with
      mean := fillMean fun i => s.x i + (k0 i * y0 + k1 i * y1)
      covariance := fillCovariance fun i j =>
        (accumulate 4 fun k => tmp i k * ikh j k)
          + (kr0 i * k0 j + kr1 i * k1 j) })

/-- `obicall_kalman_update_position`. -/
def obicallKalmanUpdatePosition (s : KalmanState F)
    (params : KalmanParams F) (timeNs : Int64) (zx zy : F)
    (measCov : Vector F 4) : Status × KalmanState F :=
  if !isFinite zx || !isFinite zy then (.errValidationNonFinite, s)
  else if !measCov.toList.all isFinite then (.errValidationNonFinite, s)
  else
    match obicallKalmanPredict s params timeNs with
    | (.ok, s) => s.correct zx zy measCov
    | (st, s) => (st, s)

-- ========================================================== static fusion

/-- One turn of the loop over `(mean, variance)`: both sums, or the status
of a reading that is refused. -/
def staticFuseStep (sums : F × F) (reading : F × F) : Except Status (F × F) :=
  if !isFinite reading.1 || !isFinite reading.2 || le reading.2 0.0 then
    .error .errValidationNonFinite
  else
    let w := 1.0 / reading.2
    .ok (sums.1 + w, sums.2 + reading.1 * w)

/-- `obicall_static_fuse_1d`: `out_mean` and `out_variance`. -/
def obicallStaticFuse1d (readings : List (F × F)) : Except Status (F × F) :=
  if readings.isEmpty then .error .errInvalidArgument
  else match readings.foldlM staticFuseStep (0.0, 0.0) with
    | .error st => .error st
    | .ok (sumInvVar, sumMeanOverVar) =>
        .ok (sumMeanOverVar / sumInvVar, 1.0 / sumInvVar)

-- ================================================================== calls

inductive KalmanCall (K : Type) where
  | predict (timeNs : Int64)
  | updatePosition (timeNs : Int64) (zx zy : K) (measCov : Vector K 4)

-- =============================================================== outcomes

/-- A prediction that fails changes nothing, and one that succeeds has
moved the filter to the time it was asked for. -/
theorem obicallKalmanPredict_outcome (s : KalmanState F)
    (params : KalmanParams F) (timeNs : Int64) :
    let (st, s') := obicallKalmanPredict s params timeNs
    if st = .ok then s'.initialized = true ∧ s'.lastUpdateTimeNs = timeNs
    else s' = s := by
  unfold obicallKalmanPredict
  cases hinit : s.initialized with
  | false => rfl
  | true =>
      rw [if_neg (by decide)]
      by_cases htime : timeNs = s.lastUpdateTimeNs
      · rw [if_pos htime]
        exact ⟨hinit, htime.symm⟩
      · rw [if_neg htime]
        dsimp only
        split
        · rfl
        split
        · rfl
        · exact ⟨hinit, rfl⟩

/-- The innovation covariance's determinant. -/
def KalmanState.innovationDet (s : KalmanState F) (r : Vector F 4) : F :=
  (s.p 0 0 + r[0]) * (s.p 1 1 + r[3]) - (s.p 0 1 + r[1]) * (s.p 1 0 + r[2])

/-- It is no number, or too small to divide by. -/
def KalmanState.singular (s : KalmanState F) (r : Vector F 4) : Bool :=
  !isFinite (s.innovationDet r) || lt (fabs (s.innovationDet r)) 1e-15

/-- A correction fails on that alone, and then changes nothing. -/
theorem correct_of_singular {s : KalmanState F} {r : Vector F 4}
    (h : s.singular r = true) (zx zy : F) :
    s.correct zx zy r = (.errValidationCovariance, s) :=
  if_pos h

theorem correct_of_regular {s : KalmanState F} {r : Vector F 4}
    (h : s.singular r = false) (zx zy : F) :
    (s.correct zx zy r).1 = .ok :=
  congrArg Prod.fst (if_neg (Bool.eq_false_iff.mp h))

/-- A correction does not move the filter in time. -/
theorem correct_frame (s : KalmanState F) (zx zy : F) (r : Vector F 4) :
    (s.correct zx zy r).2.initialized = s.initialized
      ∧ (s.correct zx zy r).2.lastUpdateTimeNs = s.lastUpdateTimeNs := by
  rw [KalmanState.correct]
  dsimp only
  split
  · exact ⟨rfl, rfl⟩
  · exact ⟨rfl, rfl⟩

/-- No call resets a filter. -/
theorem initialized_update {s : KalmanState F} (hinit : s.initialized = true)
    (params : KalmanParams F) (timeNs : Int64) (zx zy : F) (measCov : Vector F 4) :
    (obicallKalmanUpdatePosition s params timeNs zx zy measCov).2.initialized
      = true := by
  have houtcome := obicallKalmanPredict_outcome s params timeNs
  rw [obicallKalmanUpdatePosition]
  generalize obicallKalmanPredict s params timeNs = r at houtcome
  obtain ⟨st, s'⟩ := r
  dsimp only at houtcome
  split
  · exact hinit
  split
  · exact hinit
  split
  next heq =>
    cases heq
    exact (correct_frame s' zx zy measCov).1.trans houtcome.1
  next hne heq =>
    cases heq
    rw [if_neg hne] at houtcome
    exact houtcome ▸ hinit

end Obicall
