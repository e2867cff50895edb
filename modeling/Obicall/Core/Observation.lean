/-
`observation.c`: what an observation must satisfy to be admitted.

The validator reports every issue it finds to an optional callback and
returns the status of the first one. The model lists the issues in the
order of the checks; both the callback's calls and the status are read
off that list.
-/
import Mathlib.Data.List.Basic
import Obicall.Core.Binary64

namespace Obicall

open DoubleArith

variable {F : Type} [DoubleArith F]

/-- `obicall_payload_shape_dimension`. -/
def obicallPayloadShapeDimension (shape : UInt32) : Nat :=
  if shape = shapePosition1d then 1
  else if shape = shapePosition2d then 2
  else if shape = shapePosition2dVelocity then 4
  else if shape = shapeRange1d then 1
  else 0

/-- `obicall_validation_issue_t`. -/
inductive ValidationIssue where
  | none | nonFinitePayload | nonFiniteCovariance | dimensionMismatch
  | payloadCountOutOfRange | covarianceCountOutOfRange
  | covarianceNotSymmetric | covarianceNotPsd | sensorIdEmpty
  | unsupportedFrameOrUnits | timeUncertaintyNegative
  | structSizeMismatch
  deriving DecidableEq, Repr

-- ============================================================ covariance

/-- One turn of the inner loop of `covariance_is_psd`: entry `(i, j)` of
the factor, or `none` where the C function returns 0. -/
def psdEntry (cov : Nat → F) (dim : Nat) (epsilon : F) (i : Nat)
    (l : Vector F 36) (j : Nat) : Option (Vector F 36) :=
  let at' (r c : Nat) : F := l.getD (r * 6 + c) 0.0
  let sum := (List.range j).foldl (fun sum k => sum - at' i k * at' j k)
    (cov (i * dim + j))
  if i = j then
    if lt sum (-epsilon) then none
    else some (l.setIfInBounds (i * 6 + j)
      (if lt 0.0 sum then sqrt sum else 0.0))
  else
    some (l.setIfInBounds (i * 6 + j)
      (if lt epsilon (at' j j) then sum / at' j j else 0.0))

/-- `covariance_is_psd`: a semi-definite Cholesky attempt, row by row
over the lower triangle of a zeroed 6 by 6 factor. -/
def covarianceIsPsd (cov : Nat → F) (dim : Nat) (epsilon : F) : Bool :=
  ((List.range dim).foldlM (fun l i =>
    (List.range (i + 1)).foldlM (psdEntry cov dim epsilon i) l)
    (Vector.replicate 36 0.0)).isSome

/-- The symmetry loop: no pair of mirrored entries further apart than a
relative 1e-9. -/
def covarianceIsSymmetric (cov : Nat → F) (dim : Nat) : Bool :=
  (List.range dim).all fun i => (List.range dim).all fun j =>
    let a := cov (i * dim + j)
    let b := cov (j * dim + i)
    !lt (1e-9 * (1.0 + fabs a + fabs b)) (fabs (a - b))

-- ============================================================ validation

/-- The issues of an observation, each with the status it stands for, in
the order the validator notes them. -/
def Observation.issues (obs : Observation F) :
    List (ValidationIssue × Status) :=
  let note (bad : Bool) (issue : ValidationIssue) (err : Status) :=
    if bad then [(issue, err)] else []
  let dim := obicallPayloadShapeDimension obs.payloadShape
  let payload (i : Nat) : F := obs.payload.getD i 0.0
  let cov (i : Nat) : F := obs.covariance.getD i 0.0
  note (obs.structSize != sizeofObservation) .structSizeMismatch
    .errInvalidArgument
  ++ note (obs.sensorId.getD 0 0 == 0) .sensorIdEmpty .errInvalidArgument
  ++ note (!obs.sensorId.contains 0) .sensorIdEmpty .errInvalidArgument
  ++ note (obs.coordinateFrame == 0 || obs.units == 0)
    .unsupportedFrameOrUnits .errUnsupported
  ++ note (!isFinite obs.timeUncertaintyS || lt obs.timeUncertaintyS 0.0)
    .timeUncertaintyNegative .errValidationTiming
  ++ (if dim = 0 || obs.payloadCount.toNat != dim
        || obs.payloadCount.toNat > maxPayloadDoubles then
      [(.payloadCountOutOfRange, .errValidationDimension)]
    else
      note (!(List.range obs.payloadCount.toNat).all fun i =>
        isFinite (payload i)) .nonFinitePayload .errValidationNonFinite)
  ++ (if dim = 0 || obs.covarianceCount.toNat != dim * dim
        || obs.covarianceCount.toNat > maxCovDoubles then
      [(.covarianceCountOutOfRange, .errValidationCovariance)]
    else if !(List.range obs.covarianceCount.toNat).all fun i =>
        isFinite (cov i) then
      [(.nonFiniteCovariance, .errValidationNonFinite)]
    else if !covarianceIsSymmetric cov dim then
      [(.covarianceNotSymmetric, .errValidationCovariance)]
    else note (!covarianceIsPsd cov dim 1e-9) .covarianceNotPsd
      .errValidationCovariance)

/-- `obicall_observation_validate`: the status of the first issue. -/
def obicallObservationValidate (obs : Observation F) : Status :=
  match obs.issues with
  | [] => .ok
  | (_, err) :: _ => err

-- =============================================================== results

/-- An issue never stands for success. -/
theorem issue_status_ne_ok {obs : Observation F}
    {p : ValidationIssue × Status} (h : p ∈ obs.issues) : p.2 ≠ .ok := by
  have hnote : ∀ (bad : Bool) (issue : ValidationIssue) (err : Status),
      err ≠ .ok → p ∈ (if bad then [(issue, err)] else []) → p.2 ≠ .ok := by
    intro bad issue err herr hp
    cases bad with
    | false => cases hp
    | true =>
        rw [List.mem_singleton.mp hp]
        exact herr
  simp only [Observation.issues, List.mem_append] at h
  rcases h with (((((h | h) | h) | h) | h) | h) | h
  · exact hnote _ _ _ (by decide) h
  · exact hnote _ _ _ (by decide) h
  · exact hnote _ _ _ (by decide) h
  · exact hnote _ _ _ (by decide) h
  · exact hnote _ _ _ (by decide) h
  · split at h
    · rw [List.mem_singleton.mp h]
      decide
    · exact hnote _ _ _ (by decide) h
  · split at h
    · rw [List.mem_singleton.mp h]
      decide
    split at h
    · rw [List.mem_singleton.mp h]
      decide
    split at h
    · rw [List.mem_singleton.mp h]
      decide
    · exact hnote _ _ _ (by decide) h

/-- An observation is valid exactly when there is no issue. -/
theorem validate_eq_ok_iff (obs : Observation F) :
    obicallObservationValidate obs = .ok ↔ obs.issues = [] := by
  rw [obicallObservationValidate]
  cases h : obs.issues with
  | nil => exact iff_of_true rfl rfl
  | cons p ps =>
      have hne : p.2 ≠ .ok := issue_status_ne_ok (h ▸ List.mem_cons_self)
      exact iff_of_false hne (List.cons_ne_nil p ps)

theorem payloadShapeDimension_le (shape : UInt32) :
    obicallPayloadShapeDimension shape ≤ 4 := by
  rw [obicallPayloadShapeDimension]
  split
  · decide
  split
  · decide
  split
  · decide
  split
  · decide
  · decide

/-- A valid observation's covariance has passed both its checks. -/
theorem covariance_of_valid {obs : Observation F}
    (h : obicallObservationValidate obs = .ok) :
    let dim := obicallPayloadShapeDimension obs.payloadShape
    let cov (i : Nat) : F := obs.covariance.getD i 0.0
    covarianceIsSymmetric cov dim = true
      ∧ covarianceIsPsd cov dim 1e-9 = true := by
  intro dim cov
  rw [validate_eq_ok_iff] at h
  simp only [Observation.issues, List.append_eq_nil_iff] at h
  obtain ⟨-, hcov⟩ := h
  split at hcov
  · cases hcov
  split at hcov
  · cases hcov
  split at hcov
  · cases hcov
  next hsymm =>
    split at hcov
    · cases hcov
    next hpsd =>
      rw [Bool.not_eq_true', Bool.not_eq_false] at hsymm hpsd
      exact ⟨hsymm, hpsd⟩

/-- A valid observation's sensor id is a terminated string. -/
theorem sensorId_terminated_of_valid {obs : Observation F}
    (h : obicallObservationValidate obs = .ok) :
    obs.sensorId.contains 0 = true := by
  rw [validate_eq_ok_iff] at h
  by_contra hno
  have hmem : (ValidationIssue.sensorIdEmpty, Status.errInvalidArgument)
      ∈ obs.issues := by
    simp only [Observation.issues, List.mem_append]
    refine .inl (.inl (.inl (.inl (.inr ?_))))
    rw [Bool.eq_false_iff.mpr hno]
    exact List.mem_singleton.mpr rfl
  rw [h] at hmem
  cases hmem

/-- A valid observation's numbers are finite, as many as its shape
has. -/
theorem isFinite_of_valid {obs : Observation F}
    (h : obicallObservationValidate obs = .ok) :
    let dim := obicallPayloadShapeDimension obs.payloadShape
    (∀ i < dim, isFinite (obs.payload.getD i 0.0) = true)
      ∧ ∀ i < dim * dim, isFinite (obs.covariance.getD i 0.0) = true := by
  intro dim
  rw [validate_eq_ok_iff] at h
  simp only [Observation.issues, List.append_eq_nil_iff] at h
  obtain ⟨⟨-, hpayload⟩, hcovariance⟩ := h
  constructor
  · intro i hi
    split at hpayload
    · cases hpayload
    next hcount =>
      simp only [Bool.or_eq_true, decide_eq_true_eq, bne_iff_ne,
        not_or, not_not] at hcount
      have hall : ∀ j < obs.payloadCount.toNat,
          isFinite (obs.payload.getD j 0.0) = true := by
        simpa using hpayload
      exact hall i (hcount.1.2 ▸ hi)
  · intro i hi
    split at hcovariance
    · cases hcovariance
    next hcount =>
      split at hcovariance
      · cases hcovariance
      next hfinite =>
        simp only [Bool.or_eq_true, decide_eq_true_eq, bne_iff_ne,
          not_or, not_not] at hcount
        have hall : ∀ j < obs.covarianceCount.toNat,
            isFinite (obs.covariance.getD j 0.0) = true := by
          simpa using hfinite
        exact hall i (hcount.1.2 ▸ hi)

-- =============================================================== samples

/-- `make_obs` of the unit tests, with the position as a parameter. -/
def makeObs (sensorId : List UInt8) (bootId seq : UInt64) (sampleNs : Int64)
    (px py : Binary64) : Observation Binary64 :=
  { Observation.zero Binary64 with
    structSize := sizeofObservation
    schemaVersion := 1
    sensorId := strncpy31 sensorId
    sourceBootId := bootId
    sequence := seq
    sampleTimeNs := sampleNs
    arrivalTimeNs := sampleNs
    clockDomain := 1
    coordinateFrame := 1
    units := 1
    calibrationVersion := 1
    payloadShape := shapePosition2d
    payloadCount := 2
    payload := #v[px, py, 0.0, 0.0, 0.0, 0.0]
    covarianceCount := 4
    covariance := fillCov [0.1, 0.0, 0.0, 0.1] }
where
  fillCov (l : List Binary64) : Vector Binary64 maxCovDoubles :=
    Vector.ofFn fun i => l.getD i.val 0.0

example : obicallObservationValidate (makeObs [99, 97, 109] 1 1 1000000000
    1.0 2.0) = .ok := by decide +kernel

end Obicall
