/-
The broker's per-entry work (`broker_main.c`, the loop over a batch):
sensor freshness, the policy's choice of sensors, the estimator, and the
result published for the window.

`BrokerCtx` is `g_ctx` without the intake, which `Broker.Intake` models,
together with `main`'s `dgt_enabled`. What an entry meets from outside
comes in as arguments: the clock (`now`) and the epoch the broker
believes in, which the gate's replies set.

The scenario names and action names of the default table are labels that
nothing reads.
-/
import Mathlib.Data.List.Basic
import Obicall.Broker.Intake
import Obicall.Core.Dgt
import Obicall.Core.Digest
import Obicall.Core.Estimator

namespace Obicall

open DoubleArith

variable {F : Type}

-- =============================================================== sensors

/-- `MAX_TRACKED_SENSORS`. -/
abbrev maxTrackedSensors : Nat := 8

/-- The used part of an array of `MAX_TRACKED_SENSORS`. -/
abbrev Tracked (α : Type) : Type :=
  { l : List α // l.length ≤ maxTrackedSensors }

/-- `sensor_freshness_t`. -/
structure SensorFreshness where
  sensorId : SensorId
  lastSeenNs : Int64
  deriving DecidableEq

/-- `sensor_bit`. -/
def sensorBit (sensorNames : Tracked SensorId) (sensorId : SensorId) :
    UInt32 :=
  match sensorNames.val.findIdx? fun name => strncmpEq name sensorId with
  | some i => 1 <<< UInt32.ofNat i
  | none => 0

/-- `touch_sensor_locked`. -/
def touchSensorLocked (sensors : Tracked SensorFreshness)
    (sensorId : SensorId) (now : Int64) : Tracked SensorFreshness :=
  match sensors.val.findIdx? fun s => strncmpEq s.sensorId sensorId with
  | some i =>
      ⟨sensors.val.modify i fun s => { s with lastSeenNs := now },
        by rw [List.length_modify]; exact sensors.property⟩
  | none =>
      if h : sensors.val.length < maxTrackedSensors then
        ⟨sensors.val ++ [⟨strncpy31 (cString sensorId), now⟩],
          by rw [List.length_append]; exact h⟩
      else sensors

/-- `sensor_observable_locked`. -/
def sensorObservableLocked (sensors : Tracked SensorFreshness)
    (freshWindowNs : Int64) (sensorId : SensorId) (now : Int64) : Bool :=
  match sensors.val.find? fun s => strncmpEq s.sensorId sensorId with
  | some s => now - s.lastSeenNs ≤ freshWindowNs
  | none => false

-- ================================================================== table

variable [DoubleArith F]

/-- The `costs` of `init_default_dgt_table`, a row for each action. -/
def defaultCosts : List (List (DgtCostComponents F)) := [
  [⟨0.20, 0.10, 0.30, 0.10⟩, ⟨0.90, 0.10, 0.90, 0.10⟩,
    ⟨0.20, 0.10, 0.30, 0.10⟩, ⟨0.30, 0.60, 0.30, 0.10⟩],
  [⟨0.35, 0.10, 0.30, 0.10⟩, ⟨0.35, 0.10, 0.30, 0.10⟩,
    ⟨0.90, 0.10, 0.30, 0.10⟩, ⟨0.35, 0.10, 0.30, 0.10⟩],
  [⟨0.15, 0.10, 0.10, 0.20⟩, ⟨0.40, 0.10, 0.50, 0.20⟩,
    ⟨0.40, 0.10, 0.20, 0.20⟩, ⟨0.30, 0.35, 0.15, 0.20⟩]]

variable [DoubleBits F]

/-- `init_default_dgt_table`: position only, inertial only, balanced. -/
def initDefaultDgtTable (F : Type) [DoubleArith F] [DoubleBits F] :
    DgtPolicyTable F where
  structSize := sizeofDgtPolicyTable
  schemaVersion := dgtPolicySchemaVersion
  actionCount := 3
  actions := Vector.ofFn fun a =>
    [⟨0, 0x1⟩, ⟨1, 0x2⟩, ⟨2, 0x3⟩].getD a.val ⟨0, 0⟩
  scenarioCount := 4
  weights := ⟨0.5, 0.2, 0.2, 0.1⟩
  cost := Vector.ofFn fun a => Vector.ofFn fun s =>
    (defaultCosts.getD a.val []).getD s.val
      ⟨zeroDouble F, zeroDouble F, zeroDouble F, zeroDouble F⟩
  scaleEstimationError := 1.0
  scaleDelay := 1.0
  scaleCoverageLoss := 1.0
  scaleResourceCost := 1.0

-- =============================================================== context

/-- `broker_ctx_t`, the intake apart, and `dgt_enabled`. -/
structure BrokerCtx (F : Type) where
  brokerId : UInt32
  pipelineId : PipelineId
  configDigest : DigestBytes
  resultValidityNs : Int64
  sensorFreshWindowNs : Int64
  sensors : Tracked SensorFreshness
  sensorNames : Tracked SensorId
  kf : KalmanState F
  kfParams : KalmanParams F
  kfReady : Bool
  lastProcessedWindowSeq : UInt64
  dgt : DgtPolicyTable F
  dgtHyst : DgtHysteresisState F
  dgtHasHyst : Bool
  dgtHysteresisMargin : F
  dgtEnabled : Bool

/-- The configuration `main` reads from its command line: everything but
the broker's letter and the connections. `sensorIds` is the text of
`--sensor-ids`. -/
structure BrokerOptions (F : Type) where
  pipelineId : List UInt8
  configDigest : DigestBytes
  resultValidityMs : Int64
  sensorFreshWindowMs : Int64
  dgtEnabled : Bool
  dgtHysteresisMargin : F
  kfParams : KalmanParams F
  sensorIds : List UInt8

/-- The `strtok` loop of `main` over the first 255 characters of
`--sensor-ids`: its non-empty pieces between commas, at most eight. -/
def parseSensorIds (sensorIds : List UInt8) : Tracked SensorId :=
  let toks := ((sensorIds.take 255).splitOn 44).filter (· ≠ [])
  ⟨(toks.take maxTrackedSensors).map strncpy31, by
    rw [List.length_map, List.length_take]
    exact Nat.min_le_left ..⟩

/-- `g_ctx` when `main` enters its loop. -/
def BrokerCtx.start (brokerId : UInt32) (opts : BrokerOptions F) :
    BrokerCtx F where
  brokerId := brokerId
  pipelineId := strncpy31 opts.pipelineId
  configDigest := opts.configDigest
  resultValidityNs := opts.resultValidityMs * 1000000
  sensorFreshWindowNs := opts.sensorFreshWindowMs * 1000000
  sensors := ⟨[], Nat.zero_le _⟩
  sensorNames := parseSensorIds opts.sensorIds
  kf := .zero F
  kfParams := opts.kfParams
  kfReady := false
  lastProcessedWindowSeq := 0
  dgt := initDefaultDgtTable F
  dgtHyst := .zero F
  dgtHasHyst := false
  dgtHysteresisMargin := opts.dgtHysteresisMargin
  dgtEnabled := opts.dgtEnabled

-- ============================================================== one entry

/-- `mask & (1ull << b)`. -/
def maskHas (mask : UInt64) (b : Nat) : Bool :=
  mask &&& (1 <<< UInt64.ofNat b) != 0

omit [DoubleArith F] [DoubleBits F] in
/-- Whether the broker finds a sensor observable. -/
def BrokerCtx.observable (g : BrokerCtx F) (now : Int64) (name : SensorId) :
    Bool :=
  sensorObservableLocked g.sensors g.sensorFreshWindowNs name now

omit [DoubleArith F] [DoubleBits F] in
/-- The `touch_sensor_locked` of an admitted entry. -/
def BrokerCtx.touch (g : BrokerCtx F) (e : QueueEntry F) (now : Int64) :
    BrokerCtx F :=
  if e.admitted ≠ 0 then
    { g with sensors := touchSensorLocked g.sensors e.obs.sensorId now }
  else g

omit [DoubleArith F] [DoubleBits F] in
/-- An action needs every configured sensor of its mask, and a mask. -/
def BrokerCtx.actionOk (g : BrokerCtx F) (now : Int64) (mask : UInt64) :
    Bool :=
  (g.sensorNames.val.zipIdx.all fun p =>
    !maskHas mask p.2 || g.observable now p.1) && mask != 0

omit [DoubleArith F] [DoubleBits F] in
/-- The eligibility loop. -/
def BrokerCtx.eligibility (g : BrokerCtx F) (now : Int64) : DgtEligibility :=
  Vector.ofFn fun a => a.val < g.dgt.actionCount.toNat
    && g.actionOk now g.dgt.actions[a].sensorSubsetMask

omit [DoubleArith F] [DoubleBits F] in
/-- Some action of the table needs the sensor configured at this
place. -/
def DgtPolicyTable.needs (t : DgtPolicyTable F) (b : Nat) : Bool :=
  (List.finRange dgtMaxActions).any fun a =>
    a.val < t.actionCount.toNat && maskHas t.actions[a].sensorSubsetMask b

omit [DoubleArith F] [DoubleBits F] in
/-- The sensors used when the policy does not say: all that are
configured, or any. -/
def BrokerCtx.defaultMask (g : BrokerCtx F) : UInt32 :=
  if 0 < g.sensorNames.val.length then
    (1 <<< UInt32.ofNat g.sensorNames.val.length) - 1
  else 0xFFFFFFFF

omit [DoubleArith F] [DoubleBits F] in
/-- `dgt_enabled && g_ctx.configured_sensor_count > 0`. -/
def BrokerCtx.policyOn (g : BrokerCtx F) : Bool :=
  g.dgtEnabled && 0 < g.sensorNames.val.length

/-- The call of `obicall_dgt_select_action`, the first action the
baseline. -/
def BrokerCtx.selection (g : BrokerCtx F) (elig : DgtEligibility) :
    Status × DgtDecision F × DgtHysteresisState F :=
  let hin := if g.dgtHasHyst then some g.dgtHyst else none
  obicallDgtSelectAction g.dgt elig hin g.dgtHysteresisMargin 0

/-- The policy's turn: the context with its hysteresis, the decision, and
`selected_mask`. -/
def BrokerCtx.applyPolicy (g : BrokerCtx F) (elig : DgtEligibility) :
    BrokerCtx F × DgtDecision F × UInt32 :=
  if g.policyOn then
    let (st, decision, hout) := g.selection elig
    if st = .ok then
      ({ g with dgtHyst := hout, dgtHasHyst := true }, decision,
        (g.dgt.action decision.selectedActionIndex).sensorSubsetMask.toUInt32)
    else (g, decision, g.defaultMask)
  else (g, .zero F, g.defaultMask)

omit [DoubleArith F] [DoubleBits F] in
/-- The observations that go to the estimator: admitted positions of a
selected sensor. -/
def BrokerCtx.feeds (g : BrokerCtx F) (e : QueueEntry F)
    (selectedMask : UInt32) : Bool :=
  e.admitted != 0
    && selectedMask &&& sensorBit g.sensorNames e.obs.sensorId != 0
    && e.obs.payloadShape == shapePosition2d

omit [DoubleBits F] in
/-- The estimator's turn: the context and `used_in_estimator`. -/
def BrokerCtx.estimate (g : BrokerCtx F) (e : QueueEntry F)
    (selectedMask : UInt32) : BrokerCtx F × Bool :=
  let zx := e.obs.payload[0]
  let zy := e.obs.payload[1]
  let cov := e.obs.covariance
  if g.feeds e selectedMask then
    if !g.kfReady then
      ({ g with
        kf := obicallKalmanInit g.kfParams zx zy e.obs.sampleTimeNs
        kfReady := true }, true)
    else
      let (st, kf) := obicallKalmanUpdatePosition g.kf g.kfParams
        e.obs.sampleTimeNs zx zy #v[cov[0], cov[1], cov[2], cov[3]]
      ({ g with kf := kf }, st = .ok)
  else (g, false)

omit [DoubleArith F] [DoubleBits F] in
/-- What the calls take of an observation: the position, and the `cov` of
four that is copied for the update. -/
def Observation.zx (obs : Observation F) : F := obs.payload[0]

omit [DoubleArith F] [DoubleBits F] in
def Observation.zy (obs : Observation F) : F := obs.payload[1]

omit [DoubleArith F] [DoubleBits F] in
def Observation.cov (obs : Observation F) : Vector F 4 :=
  let cov := obs.covariance
  #v[cov[0], cov[1], cov[2], cov[3]]

omit [DoubleArith F] in
/-- `compute_result_digest_from_obs`. -/
def computeResultDigestFromObs (obs : Observation F) : DigestBytes :=
  match obicallWireEncodeObservation obs 1200 with
  | .ok buf => obicallSha256 buf
  | .error _ => Vector.replicate 32 0

/-- The `degraded` test. -/
def BrokerCtx.degraded (g : BrokerCtx F) (decision : DgtDecision F) : Bool :=
  lt (4.0 : F) (g.kf.covariance[0] + g.kf.covariance[5])
    || (g.dgtEnabled && 0 < decision.eligibleCount
      && decision.eligibleCount < g.dgt.actionCount)

/-- The result of the window. -/
def BrokerCtx.result (g : BrokerCtx F) (e : QueueEntry F)
    (decision : DgtDecision F) (used : Bool) (now : Int64)
    (epochBelief : UInt64) : Result F :=
  let zero := Result.zero F
  let cov := g.kf.covariance
  { structSize := sizeofResult
    schemaVersion := resultSchemaVersion
    pipelineId := strncpy31 (cString g.pipelineId)
    windowSeq := e.windowSeq
    brokerId := g.brokerId
    epoch := epochBelief
    status :=
      if !g.kfReady then resultInvalid
      else if g.degraded decision then resultDegraded
      else resultValid
    payloadShape := if g.kfReady then shapePosition2d else 0
    payloadCount := if g.kfReady then 2 else 0
    payload :=
      if g.kfReady then
        (zero.payload.set 0 (g.kf.x 0)).set 1 (g.kf.x 1)
      else zero.payload
    covarianceCount := if g.kfReady then 4 else 0
    covariance :=
      if g.kfReady then
        (((zero.covariance.set 0 cov[0]).set 1 cov[1]).set 2 cov[4]).set 3
          cov[5]
      else zero.covariance
    inputDigest := computeResultDigestFromObs e.obs
    configDigest := g.configDigest
    timestampNs := now
    validUntilNs := now + g.resultValidityNs
    sourceCount := if used then 1 else 0
    sources :=
      if used then zero.sources.set 0 (strncpy31 (cString e.obs.sensorId))
      else zero.sources
    dgtActionId :=
      if g.dgtEnabled then decision.selectedActionId else 0xFFFFFFFF }

/-- The rest of an entry's turn, from the eligibility on. -/
def BrokerCtx.conclude (g : BrokerCtx F) (e : QueueEntry F)
    (elig : DgtEligibility) (now : Int64) (epochBelief : UInt64) :
    BrokerCtx F × Result F :=
  let (g, decision, selectedMask) := g.applyPolicy elig
  let (g, used) := g.estimate e selectedMask
  let g := { g with lastProcessedWindowSeq := e.windowSeq }
  (g, g.result e decision used now epochBelief)

/-- One turn of the loop over a batch: the context and the result it
sends. -/
def BrokerCtx.processEntry (g : BrokerCtx F) (e : QueueEntry F)
    (now : Int64) (epochBelief : UInt64) : BrokerCtx F × Result F :=
  let g := g.touch e now
  g.conclude e (g.eligibility now) now epochBelief

/-- What a broker brings to an entry itself. -/
structure LocalInput where
  now : Int64
  epochBelief : UInt64

/-- What the turn makes of the context. -/
def BrokerCtx.turn (g : BrokerCtx F) (t : QueueEntry F × LocalInput) :
    BrokerCtx F :=
  (g.processEntry t.1 t.2.now t.2.epochBelief).1

-- ================================================================= frame

omit [DoubleArith F] [DoubleBits F] in
theorem touch_frame (g : BrokerCtx F) (e : QueueEntry F) (now : Int64) :
    ∃ sensors, g.touch e now = { g with sensors } := by
  rw [BrokerCtx.touch]
  split
  · exact ⟨_, rfl⟩
  · exact ⟨_, rfl⟩

omit [DoubleBits F] in
theorem applyPolicy_frame (g : BrokerCtx F) (elig : DgtEligibility) :
    ∃ dgtHyst dgtHasHyst,
      (g.applyPolicy elig).1 = { g with dgtHyst, dgtHasHyst } := by
  rw [BrokerCtx.applyPolicy]
  split
  · dsimp only
    split
    · exact ⟨_, _, rfl⟩
    · exact ⟨_, _, rfl⟩
  · exact ⟨_, _, rfl⟩

omit [DoubleBits F] in
theorem estimate_frame (g : BrokerCtx F) (e : QueueEntry F)
    (selectedMask : UInt32) :
    ∃ kf kfReady, (g.estimate e selectedMask).1 = { g with kf, kfReady } := by
  rw [BrokerCtx.estimate]
  split
  · split
    · exact ⟨_, _, rfl⟩
    · exact ⟨_, _, rfl⟩
  · exact ⟨_, _, rfl⟩

/-- What an entry's turn changes: the sensors, the estimator, the
hysteresis and the window. The configuration stays. -/
theorem processEntry_frame (g : BrokerCtx F) (e : QueueEntry F)
    (now : Int64) (epochBelief : UInt64) :
    ∃ sensors kf kfReady lastProcessedWindowSeq dgtHyst dgtHasHyst,
      (g.processEntry e now epochBelief).1
        = { g with
            sensors, kf, kfReady, lastProcessedWindowSeq, dgtHyst,
            dgtHasHyst } := by
  obtain ⟨sensors, htouch⟩ := touch_frame g e now
  rw [BrokerCtx.processEntry, BrokerCtx.conclude, htouch]
  dsimp only
  obtain ⟨dgtHyst, dgtHasHyst, hpolicy⟩ := applyPolicy_frame
    { g with sensors } (BrokerCtx.eligibility { g with sensors } now)
  generalize BrokerCtx.applyPolicy { g with sensors }
    (BrokerCtx.eligibility { g with sensors } now) = policy at hpolicy ⊢
  obtain ⟨kf, kfReady, hestimate⟩ := estimate_frame policy.1 e policy.2.2
  rw [hestimate, hpolicy]
  exact ⟨_, _, _, _, _, _, rfl⟩

end Obicall
