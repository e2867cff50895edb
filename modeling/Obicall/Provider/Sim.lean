/-
The reference provider (`provider_c_sim.c`): a simulated position sensor.

# What comes from outside

The monotonic clock, which `sim_create` reads twice and `sim_poll_events`
once, and `log` and `cos` of the C library (`Libm`). There is always
memory.

# Random numbers

`xorshift32` is the word after the next one; what `uniform01` and
`gaussian` leave of it is passed on.
-/
import Mathlib.Data.Vector.Basic
import Obicall.Core.Fields
import Obicall.Core.Observation
import Obicall.Core.Wire
import Obicall.Lib.Overlay
import Obicall.Lib.Run

namespace Obicall

open DoubleArith Lib.Overlay

-- ================================================================== state

/-- The functions of `<math.h>` that only the provider uses. -/
structure Libm (F : Type) where
  log : F → F
  cos : F → F

/-- `sim_provider_t`. -/
structure SimProvider (F : Type) where
  sensorId : SensorId
  noiseStd : F
  updatePeriodNs : Int64
  originX : F
  originY : F
  speedX : F
  speedY : F
  sourceBootId : UInt64
  nextSequence : UInt64
  startTimeNs : Int64
  lastEmitTimeNs : Int64
  rngState : UInt32
  faultMode : UInt32
  faultBias : F
  faultDropoutProb : F
  faultExtraDelayNs : Int64

/-- `sim_fault_mode`. -/
def simFaultNone : UInt32 := 0
def simFaultDropout : UInt32 := 1
def simFaultBias : UInt32 := 2
def simFaultDelay : UInt32 := 3

/-- `OBICALL_C_SIM_EVENT_OBSERVATION`. -/
def cSimEventObservation : UInt32 := 1

/-- `obicall_event_t`, without its sizes and version, which nothing
reads. -/
structure ProviderEvent where
  eventType : UInt32
  timestampNs : Int64
  payload : List UInt8
  deriving DecidableEq

-- ========================================================= random numbers

/-- `xorshift32`. -/
def xorshift32 (state : UInt32) : UInt32 :=
  let x := state ^^^ (state <<< 13)
  let x := x ^^^ (x >>> 17)
  x ^^^ (x <<< 5)

variable {F : Type} [DoubleArith F]

/-- `uniform01`. -/
def uniform01 (state : UInt32) : F × UInt32 :=
  let x := xorshift32 state
  (ofInt64 (Int64.ofNat (x >>> 8).toNat) / ofInt64 (Int64.ofNat 16777216), x)

/-- `gaussian`. -/
def gaussian (libm : Libm F) (state : UInt32) (mean stddev : F) :
    F × UInt32 :=
  let u1 := uniform01 state
  let u2 := uniform01 u1.2
  let r1 : F := if lt u1.1 1e-12 then 1e-12 else u1.1
  let twoPi : F := 6.283185307179586
  let z := sqrt (-2.0 * libm.log r1) * libm.cos (twoPi * u2.1)
  (mean + stddev * z, u2.2)

-- ================================================================== create

variable [DoubleBits F] [DoubleText F]

/-- `sim_create` on the text of `config_json`, with the clock as the boot
id is drawn and as the provider starts. -/
def simCreate (configJson : List UInt8) (instanceSeed : UInt64)
    (bootClock startClock : Int64) : SimProvider F where
  sensorId := (getStr configJson (ascii "sensor_id")
    (strncpy31 (ascii "sim_sensor"))).1
  noiseStd := (getNum configJson (ascii "noise_std_m")).getD 0.2
  updatePeriodNs :=
    ((getNum configJson (ascii "update_period_ms")).map fun num : F =>
      DoubleText.toInt64 (num * 1e6)).getD 100000000
  originX := (getNum configJson (ascii "origin_x")).getD 0.0
  originY := (getNum configJson (ascii "origin_y")).getD 0.0
  speedX := (getNum configJson (ascii "speed_x")).getD 1.0
  speedY := (getNum configJson (ascii "speed_y")).getD 0.5
  sourceBootId := bootClock.toUInt64 ^^^ instanceSeed
  nextSequence := 1
  startTimeNs := startClock
  lastEmitTimeNs := 0
  rngState :=
    if instanceSeed.toUInt32 = 0 then 0x9E3779B9 else instanceSeed.toUInt32
  faultMode := simFaultNone
  faultBias := zeroDouble F
  faultDropoutProb := zeroDouble F
  faultExtraDelayNs := 0

-- ================================================================== submit

/-- The sensor id of a control observation. -/
def ctrlFault : List UInt8 := ascii "$ctrl:fault"

/-- `sim_submit`. -/
def simSubmit (p : SimProvider F) (obs : Observation F) : SimProvider F :=
  if cString obs.sensorId = ctrlFault ∧ obs.payloadCount ≥ 1 then
    let payload (i : Nat) : F := obs.payload.getD i 0.0
    { p with
      faultMode := DoubleText.toUInt32 (payload 0)
      faultBias := if obs.payloadCount ≥ 2 then payload 1 else p.faultBias
      faultDropoutProb :=
        if obs.payloadCount ≥ 3 then payload 2 else p.faultDropoutProb
      faultExtraDelayNs :=
        if obs.payloadCount ≥ 4 then DoubleText.toInt64 (payload 3 * 1e9)
        else p.faultExtraDelayNs }
  else p

-- ==================================================================== poll

omit [DoubleText F] in
/-- The observation that `sim_poll_events` fills in. -/
def simReading (p : SimProvider F) (now : Int64) (zx zy : F) :
    Observation F :=
  let var := p.noiseStd * p.noiseStd
  { Observation.zero F with
    structSize := sizeofObservation
    schemaVersion := 1
    sensorId := strncpy31 (cString p.sensorId)
    sourceBootId := p.sourceBootId
    sequence := p.nextSequence
    sampleTimeNs :=
      if p.faultMode = simFaultDelay then now - p.faultExtraDelayNs else now
    arrivalTimeNs := now
    clockDomain := 1
    timeUncertaintyS := 0.01
    coordinateFrame := 1
    units := 1
    calibrationVersion := 1
    payloadShape := shapePosition2d
    payloadCount := 2
    payload := place 0 [zx, zy] (Observation.zero F).payload
    covarianceCount := 4
    covariance := place 0 [var, 0.0, 0.0, var] (Observation.zero F).covariance }

omit [DoubleText F] in
/-- The second half of `sim_poll_events`: a reading, its event, and the
provider after it. -/
def simEmit (libm : Libm F) (p : SimProvider F) (now : Int64) :
    (Status × Option ProviderEvent) × SimProvider F :=
  let t : F := ofInt64 (now - p.startTimeNs) / 1e9
  let bias : F := if p.faultMode = simFaultBias then p.faultBias else 0.0
  let gx := gaussian libm p.rngState 0.0 p.noiseStd
  let gy := gaussian libm gx.2 0.0 p.noiseStd
  let zx := p.originX + p.speedX * t + bias + gx.1
  let zy := p.originY + p.speedY * t + bias + gy.1
  let after := { p with nextSequence := p.nextSequence + 1, rngState := gy.2 }
  match obicallWireEncodeObservation (simReading p now zx zy) 1024 with
  | .error _ => ((.errInternal, none), after)
  | .ok wireBuf => ((.ok, some ⟨cSimEventObservation, now, wireBuf⟩), after)

omit [DoubleText F] in
/-- `sim_poll_events`: its status, the event it delivers, and the provider
after it. -/
def simPollEvents (libm : Libm F) (p : SimProvider F) (now : Int64) :
    (Status × Option ProviderEvent) × SimProvider F :=
  if p.lastEmitTimeNs ≠ 0 ∧ now - p.lastEmitTimeNs < p.updatePeriodNs then
    ((.ok, none), p)
  else
    let p := { p with lastEmitTimeNs := now }
    if p.faultMode = simFaultDropout then
      let u : F × UInt32 := uniform01 p.rngState
      let p := { p with rngState := u.2 }
      if lt u.1 p.faultDropoutProb then ((.ok, none), p)
      else simEmit libm p now
    else simEmit libm p now

-- ============================================================= checkpoints

/-- `sim_checkpoint_blob_t`. -/
structure SimCheckpointBlob where
  version : UInt32
  nextSequence : UInt64
  rngState : UInt32
  lastEmitTimeNs : Int64
  deriving DecidableEq

/-- `OBICALL_C_SIM_CHECKPOINT_VERSION`. -/
def cSimCheckpointVersion : UInt32 := 1

/-- `sizeof(sim_checkpoint_blob_t)`, which is packed. -/
def sizeofSimCheckpointBlob : Nat := 24

/-- The bytes of a blob. -/
def SimCheckpointBlob.bytes (b : SimCheckpointBlob) : List UInt8 :=
  u32Bytes b.version ++ (u64Bytes b.nextSequence ++
  (u32Bytes b.rngState ++ u64Bytes b.lastEmitTimeNs.toUInt64))

/-- The blob that bytes are copied into. -/
def rcSimCheckpointBlob : StateM RCursor (Status × SimCheckpointBlob) := do
  let version ← rcU32
  let nextSequence ← rcU64
  let rngState ← rcU32
  let lastEmitTimeNs ← rcI64
  let ok ← rcOk
  return (if ok then .ok else .errInvalidArgument,
    { version, nextSequence, rngState, lastEmitTimeNs })

omit [DoubleArith F] [DoubleBits F] [DoubleText F] in
/-- `sim_checkpoint`. -/
def simCheckpoint (p : SimProvider F) : List UInt8 :=
  SimCheckpointBlob.bytes
    { version := cSimCheckpointVersion
      nextSequence := p.nextSequence
      rngState := p.rngState
      lastEmitTimeNs := p.lastEmitTimeNs }

omit [DoubleArith F] [DoubleBits F] [DoubleText F] in
/-- `sim_restore`: its status, and the provider after it. -/
def simRestore (p : SimProvider F) (blob : List UInt8) :
    Status × SimProvider F :=
  if blob.length ≠ sizeofSimCheckpointBlob then (.errInvalidArgument, p)
  else
    let b := (rcSimCheckpointBlob (RCursor.start blob)).1.2
    if b.version ≠ cSimCheckpointVersion then (.errUnsupported, p)
    else (.ok,
      { p with
        nextSequence := b.nextSequence
        rngState := b.rngState
        lastEmitTimeNs := b.lastEmitTimeNs })

-- ==================================================================== runs

/-- What can happen to a sensor. -/
inductive SimEvent (F : Type) where
  | poll (now : Int64)
  | submit (obs : Observation F)
  /-- an instance of the same configuration takes over, restored from a
  checkpoint of the last one -/
  | restart (instanceSeed : UInt64) (bootClock startClock : Int64)

omit [DoubleArith F] [DoubleBits F] [DoubleText F] in
/-- The clock that an event's poll reads. -/
def SimEvent.clock : SimEvent F → Option Int64
  | .poll now => some now
  | _ => none

/-- A sensor's instance, and the events it and those before it have
delivered. -/
structure SimLife (F : Type) where
  provider : SimProvider F
  delivered : List ProviderEvent

def SimLife.step (libm : Libm F) (configJson : List UInt8) (s : SimLife F) :
    SimEvent F → SimLife F
  | .poll now =>
      let out := simPollEvents libm s.provider now
      ⟨out.2, s.delivered ++ out.1.2.toList⟩
  | .submit obs => ⟨simSubmit s.provider obs, s.delivered⟩
  | .restart instanceSeed bootClock startClock =>
      let fresh := simCreate configJson instanceSeed bootClock startClock
      ⟨(simRestore fresh (simCheckpoint s.provider)).2, s.delivered⟩

/-- A sensor from its creation. -/
def simRun (libm : Libm F) (configJson : List UInt8) (instanceSeed : UInt64)
    (bootClock startClock : Int64) (es : List (SimEvent F)) : SimLife F :=
  Lib.Run.run (SimLife.step libm configJson)
    ⟨simCreate configJson instanceSeed bootClock startClock, []⟩ es

end Obicall
