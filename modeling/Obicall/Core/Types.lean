/-
The data model shared by every process: status codes, the array bounds
of `types.h`, and the structs that cross a process boundary
(observations, results, checkpoints, events, the control messages of
`wire.h`, and the header of the frame they travel in).

# Doubles

The code computes in C `double`s and ships them as their 64-bit
patterns. The model keeps the number type abstract: `DoubleBits` is the
`memcpy` in and out of a `uint64_t`, `DoubleArith` the operators and
`<math.h>` calls the code uses. What is proved about the wire or about a
protocol holds for any such type; `Binary64` is the one the machine has.

# Structs and arrays

Fields keep the source's names in camel case. A fixed-width integer
keeps its width, a fixed array is a `Vector`, and `sizeof` of a struct
that the code stores in a field is the constant of the LP64 layout the
build targets.
-/
import Mathlib.Data.List.Basic
import Mathlib.Data.Vector.Basic

namespace Obicall

-- ================================================================ status

/-- `obicall_status_t`. -/
inductive Status where
  | ok
  | errInvalidArgument | errNullPointer | errOutOfRange
  | errBufferTooSmall | errNotFound | errAlreadyExists | errUnsupported
  | errAbiVersionMismatch | errAbiStructSizeMismatch | errSymbolNotFound
  | errArchitectureMismatch | errArtifactIntegrity | errDependencyCycle
  | errDependencyMissing | errConformanceFailed | errLoadFailed
  | errValidationNonFinite | errValidationDimension
  | errValidationCovariance | errValidationSequence | errValidationTiming
  | errAdmissionDuplicate | errAdmissionLate | errAdmissionOverflow
  | errWireMalformed | errWireTooLarge | errWireVersionUnsupported
  | errWireChecksum | errIo | errTimeout | errAuth | errConnectionClosed
  | errGateNotOwner | errGateStaleEpoch | errGateDuplicateWindow
  | errGateExpired | errGateIncompatible | errGateNotReady
  | errGatePersistence
  | errProcessSpawn | errProcessNotRunning | errAlreadyRunning
  | errDgtNoEligibleAction | errDgtInvalidScore
  | errInternal
  deriving DecidableEq, Repr

/-- The numbers behind the enumerators, which a `RESULT_ACK` carries. -/
def Status.code : Status → Int32
  | ok => 0
  | errInvalidArgument => 1 | errNullPointer => 2 | errOutOfRange => 3
  | errBufferTooSmall => 4 | errNotFound => 5 | errAlreadyExists => 6
  | errUnsupported => 7
  | errAbiVersionMismatch => 20 | errAbiStructSizeMismatch => 21
  | errSymbolNotFound => 22 | errArchitectureMismatch => 23
  | errArtifactIntegrity => 24 | errDependencyCycle => 25
  | errDependencyMissing => 26 | errConformanceFailed => 27
  | errLoadFailed => 28
  | errValidationNonFinite => 40 | errValidationDimension => 41
  | errValidationCovariance => 42 | errValidationSequence => 43
  | errValidationTiming => 44 | errAdmissionDuplicate => 45
  | errAdmissionLate => 46 | errAdmissionOverflow => 47
  | errWireMalformed => 60 | errWireTooLarge => 61
  | errWireVersionUnsupported => 62 | errWireChecksum => 63 | errIo => 64
  | errTimeout => 65 | errAuth => 66 | errConnectionClosed => 67
  | errGateNotOwner => 80 | errGateStaleEpoch => 81
  | errGateDuplicateWindow => 82 | errGateExpired => 83
  | errGateIncompatible => 84 | errGateNotReady => 85
  | errGatePersistence => 86
  | errProcessSpawn => 100 | errProcessNotRunning => 101
  | errAlreadyRunning => 102
  | errDgtNoEligibleAction => 120 | errDgtInvalidScore => 121
  | errInternal => 255

-- =============================================================== doubles

/-- A number type with the bit patterns of a C `double`. -/
class DoubleBits (F : Type) where
  toBits : F → UInt64
  ofBits : UInt64 → F
  ofBits_toBits : ∀ x, ofBits (toBits x) = x
  toBits_ofBits : ∀ b, toBits (ofBits b) = b

attribute [simp] DoubleBits.ofBits_toBits DoubleBits.toBits_ofBits

/-- The operators, comparisons and `<math.h>` calls on `double`s.
`eq` is the C `==`, which is not equality: it is false on a NaN. -/
class DoubleArith (F : Type) extends
    Add F, Sub F, Mul F, Div F, Neg F, OfScientific F where
  lt : F → F → Bool
  le : F → F → Bool
  eq : F → F → Bool
  isFinite : F → Bool
  fabs : F → F
  sqrt : F → F
  ofInt64 : Int64 → F

/-- The double that `memset(.., 0, ..)` leaves. -/
def zeroDouble (F : Type) [DoubleBits F] : F := DoubleBits.ofBits 0

-- ================================================================ bounds

/-- `OBICALL_MAX_PAYLOAD_DOUBLES`. -/
abbrev maxPayloadDoubles : Nat := 6

/-- `OBICALL_MAX_COV_DOUBLES`. -/
abbrev maxCovDoubles : Nat := 36

/-- `OBICALL_MAX_SOURCES`. -/
abbrev maxSources : Nat := 8

/-- `OBICALL_SENSOR_ID_LEN`, `OBICALL_PIPELINE_ID_LEN` and
`OBICALL_DIGEST_LEN` are all 32. -/
abbrev SensorId : Type := Vector UInt8 32

abbrev PipelineId : Type := Vector UInt8 32

abbrev DigestBytes : Type := Vector UInt8 32

-- ============================================================= C strings

/-- The string a fixed character array holds: the bytes before the first
NUL. One that has none ends with the array here; a function of C that takes
a pointer to it reads on (`textIn`). -/
def cString {n : Nat} (v : Vector UInt8 n) : List UInt8 :=
  v.toList.takeWhile (· != 0)

/-- What a function of C reads at an array with the bytes `behind` after it
in memory: everything before the first NUL, be it in the array or not. -/
def textIn {n : Nat} (v : Vector UInt8 n) (behind : List UInt8) : List UInt8 :=
  (v.toList ++ behind).takeWhile (· != 0)

/-- `strncmp(a, b, n) == 0` on two arrays of `n` characters. -/
def strncmpEq {n : Nat} (a b : Vector UInt8 n) : Bool :=
  cString a == cString b

/-- `strncpy(dst, src, 31)` into a zeroed 32-byte array: at most 31
characters of the string, the rest zero. -/
def strncpy31 (src : List UInt8) : Vector UInt8 32 :=
  Vector.ofFn fun i => if i.val < 31 then src.getD i.val 0 else 0

theorem toList_strncpy31 (src : List UInt8) :
    (strncpy31 src).toList
      = src.take 31 ++ List.replicate (32 - (src.take 31).length) 0 := by
  have hlen : (src.take 31).length = min 31 src.length := List.length_take ..
  refine List.ext_getElem ?_ fun i hi hi' => ?_
  · rw [Vector.length_toList, List.length_append, List.length_replicate]
    omega
  · rw [Vector.length_toList] at hi
    rw [Vector.getElem_toList]
    simp only [strncpy31, Vector.getElem_ofFn]
    by_cases hin : i < (src.take 31).length
    · have hsrc : i < src.length := by omega
      rw [List.getElem_append_left hin, List.getElem_take, if_pos (by omega),
        List.getD_eq_getElem?_getD, List.getElem?_eq_getElem hsrc,
        Option.getD_some]
    · rw [List.getElem_append_right (by omega), List.getElem_replicate]
      by_cases h31 : i < 31
      · rw [if_pos h31, List.getD_eq_getElem?_getD,
          List.getElem?_eq_none (by omega), Option.getD_none]
      · rw [if_neg h31]

/-- Of a string, the first 31 characters are kept. -/
theorem cString_strncpy31 {src : List UInt8} (h : ∀ b ∈ src, b ≠ 0) :
    cString (strncpy31 src) = src.take 31 := by
  have hall : ∀ b ∈ src.take 31, (b != 0) = true := fun b hb =>
    bne_iff_ne.mpr (h b (List.mem_of_mem_take hb))
  have hzero : (List.replicate (32 - (src.take 31).length)
      (0 : UInt8)).takeWhile (· != 0) = [] := by
    rw [List.takeWhile_replicate]
    rfl
  rw [cString, toList_strncpy31, List.takeWhile_append_of_pos hall, hzero,
    List.append_nil]

theorem ne_zero_of_mem_cString {n : Nat} {v : Vector UInt8 n} {b : UInt8}
    (h : b ∈ cString v) : b ≠ 0 := by
  have hall : (cString v).all (· != 0) = true := List.all_takeWhile
  exact bne_iff_ne.mp (List.all_eq_true.mp hall b h)

/-- A terminated array holds a shorter string. -/
theorem length_cString_lt {n : Nat} {v : Vector UInt8 n}
    (h : v.contains 0 = true) : (cString v).length < n := by
  have hle : (cString v).length ≤ v.toList.length :=
    (List.takeWhile_prefix _).length_le
  rw [Vector.length_toList] at hle
  refine Nat.lt_of_le_of_ne hle fun heq => ?_
  have hall : cString v = v.toList := by
    refine (List.takeWhile_prefix _).eq_of_length ?_
    rw [Vector.length_toList]
    exact heq
  have hmem : (0 : UInt8) ∈ cString v := by
    rw [hall]
    exact Vector.mem_toList_iff.mpr (Vector.contains_iff_mem.mp h)
  exact ne_zero_of_mem_cString hmem rfl

theorem length_cString_le {n : Nat} (v : Vector UInt8 n) :
    (cString v).length ≤ n := by
  have hle := (List.takeWhile_prefix (fun c => c != 0)
    (l := v.toList)).length_le
  rwa [Vector.length_toList] at hle

/-- A string that ends in its array is what is read there. -/
theorem textIn_of_length_lt {n : Nat} {v : Vector UInt8 n}
    (h : (cString v).length < n) (behind : List UInt8) :
    textIn v behind = cString v := by
  unfold textIn
  rw [List.takeWhile_append, if_neg]
  · rfl
  · rw [Vector.length_toList]
    exact Nat.ne_of_lt h

theorem textIn_of_mem {n : Nat} {v : Vector UInt8 n} (h : 0 ∈ v)
    (behind : List UInt8) : textIn v behind = cString v :=
  textIn_of_length_lt (length_cString_lt (Vector.contains_iff_mem.mpr h))
    behind

/-- What is read goes on where the array ends. -/
theorem cString_prefix_textIn {n : Nat} (v : Vector UInt8 n)
    (behind : List UInt8) : cString v <+: textIn v behind := by
  unfold textIn
  rw [List.takeWhile_append]
  split
  · exact (List.takeWhile_prefix _).trans (List.prefix_append ..)
  · exact List.prefix_rfl

-- ========================================================== observations

/-- `obicall_observation_t`. -/
structure Observation (F : Type) where
  structSize : UInt32
  schemaVersion : UInt32
  sensorId : SensorId
  sourceBootId : UInt64
  sequence : UInt64
  sampleTimeNs : Int64
  arrivalTimeNs : Int64
  clockDomain : UInt32
  timeUncertaintyS : F
  coordinateFrame : UInt32
  units : UInt32
  calibrationVersion : UInt32
  payloadShape : UInt32
  payloadCount : UInt32
  payload : Vector F maxPayloadDoubles
  covarianceCount : UInt32
  covariance : Vector F maxCovDoubles
  deriving DecidableEq

/-- `sizeof(obicall_observation_t)`. -/
def sizeofObservation : UInt32 := 456

/-- An observation after `memset(.., 0, ..)`. -/
def Observation.zero (F : Type) [DoubleBits F] : Observation F where
  structSize := 0
  schemaVersion := 0
  sensorId := Vector.replicate 32 0
  sourceBootId := 0
  sequence := 0
  sampleTimeNs := 0
  arrivalTimeNs := 0
  clockDomain := 0
  timeUncertaintyS := zeroDouble F
  coordinateFrame := 0
  units := 0
  calibrationVersion := 0
  payloadShape := 0
  payloadCount := 0
  payload := Vector.replicate _ (zeroDouble F)
  covarianceCount := 0
  covariance := Vector.replicate _ (zeroDouble F)

/-- `obicall_payload_shape_t`. -/
def shapePosition1d : UInt32 := 1
def shapePosition2d : UInt32 := 2
def shapePosition2dVelocity : UInt32 := 3
def shapeRange1d : UInt32 := 4

-- =============================================================== results

/-- `obicall_result_t`. -/
structure Result (F : Type) where
  structSize : UInt32
  schemaVersion : UInt32
  pipelineId : PipelineId
  windowSeq : UInt64
  brokerId : UInt32
  epoch : UInt64
  status : UInt32
  payloadShape : UInt32
  payloadCount : UInt32
  payload : Vector F maxPayloadDoubles
  covarianceCount : UInt32
  covariance : Vector F maxCovDoubles
  inputDigest : DigestBytes
  configDigest : DigestBytes
  timestampNs : Int64
  validUntilNs : Int64
  sourceCount : UInt32
  sources : Vector SensorId maxSources
  dgtActionId : UInt32
  deriving DecidableEq

/-- `sizeof(obicall_result_t)`. -/
def sizeofResult : UInt32 := 768

/-- `OBICALL_RESULT_SCHEMA_VERSION`. -/
def resultSchemaVersion : UInt32 := 1

/-- A result after `memset(.., 0, ..)`. -/
def Result.zero (F : Type) [DoubleBits F] : Result F where
  structSize := 0
  schemaVersion := 0
  pipelineId := Vector.replicate 32 0
  windowSeq := 0
  brokerId := 0
  epoch := 0
  status := 0
  payloadShape := 0
  payloadCount := 0
  payload := Vector.replicate _ (zeroDouble F)
  covarianceCount := 0
  covariance := Vector.replicate _ (zeroDouble F)
  inputDigest := Vector.replicate 32 0
  configDigest := Vector.replicate 32 0
  timestampNs := 0
  validUntilNs := 0
  sourceCount := 0
  sources := Vector.replicate _ (Vector.replicate 32 0)
  dgtActionId := 0

/-- `obicall_result_status_t`. -/
def resultInvalid : UInt32 := 0
def resultDegraded : UInt32 := 1
def resultValid : UInt32 := 2

/-- `obicall_broker_id_t`. -/
def brokerNone : UInt32 := 0
def brokerA : UInt32 := 1
def brokerB : UInt32 := 2

-- ============================================ checkpoints and events

/-- `OBICALL_MAX_TRACKED_SOURCES`. -/
abbrev maxTrackedSources : Nat := 16

/-- `OBICALL_MAX_STATE_DIM`. -/
abbrev maxStateDim : Nat := 6

/-- `obicall_source_position_t`. -/
structure SourcePosition where
  sensorId : SensorId
  sourceBootId : UInt64
  lastSequence : UInt64
  deriving DecidableEq

/-- A position after `memset(.., 0, ..)`. -/
def SourcePosition.zero : SourcePosition where
  sensorId := Vector.replicate 32 0
  sourceBootId := 0
  lastSequence := 0

/-- `obicall_checkpoint_t`. -/
structure Checkpoint (F : Type) where
  structSize : UInt32
  schemaVersion : UInt32
  pipelineId : PipelineId
  windowSeq : UInt64
  estimatorMode : UInt32
  stateDim : UInt32
  stateMean : Vector F maxStateDim
  stateCovariance : Vector F (maxStateDim * maxStateDim)
  calibrationVersion : UInt32
  policyVersion : UInt32
  dgtActionId : UInt32
  sourceCount : UInt32
  sources : Vector SourcePosition maxTrackedSources
  createdAtNs : Int64
  deriving DecidableEq

/-- `sizeof(obicall_checkpoint_t)`. -/
def sizeofCheckpoint : UInt32 := 1184

/-- A checkpoint after `memset(.., 0, ..)`. -/
def Checkpoint.zero (F : Type) [DoubleBits F] : Checkpoint F where
  structSize := 0
  schemaVersion := 0
  pipelineId := Vector.replicate 32 0
  windowSeq := 0
  estimatorMode := 0
  stateDim := 0
  stateMean := Vector.replicate _ (zeroDouble F)
  stateCovariance := Vector.replicate _ (zeroDouble F)
  calibrationVersion := 0
  policyVersion := 0
  dgtActionId := 0
  sourceCount := 0
  sources := Vector.replicate _ .zero
  createdAtNs := 0

/-- `obicall_buffer_t`: the bytes a borrowed view shows, as many as a
32-bit length can count. -/
structure Buffer where
  data : List UInt8
  length_lt : data.length < 2 ^ 32
  deriving DecidableEq

/-- The `len` of a buffer. -/
def Buffer.len (b : Buffer) : UInt32 := UInt32.ofNat b.data.length

/-- `{NULL, 0}`. -/
def Buffer.empty : Buffer := ⟨[], by decide⟩

/-- `obicall_event_t`. -/
structure Event where
  structSize : UInt32
  schemaVersion : UInt32
  eventType : UInt32
  reserved : UInt32
  timestampNs : Int64
  payload : Buffer
  deriving DecidableEq

/-- `sizeof(obicall_event_t)`. -/
def sizeofEvent : UInt32 := 40

-- ============================================================== messages

/-- `OBICALL_WIRE_MAGIC0` and so on: "OBWF". -/
def wireMagic0 : UInt8 := 0x4F
def wireMagic1 : UInt8 := 0x42
def wireMagic2 : UInt8 := 0x57
def wireMagic3 : UInt8 := 0x46

/-- `OBICALL_WIRE_VERSION`, `OBICALL_WIRE_HEADER_LEN` and
`OBICALL_WIRE_MAX_PAYLOAD`. -/
def wireVersion : UInt8 := 1

abbrev wireHeaderLen : Nat := 16

abbrev wireMaxPayload : Nat := 2 ^ 20

/-- `obicall_wire_header_t`. -/
structure WireHeader where
  wireVersion : UInt8
  msgType : UInt8
  flags : UInt16
  payloadLen : UInt32
  crc32 : UInt32
  deriving DecidableEq

/-- `obicall_wire_msg_type_t`, the types the modelled processes act on. -/
def msgHeartbeat : UInt8 := 2
def msgObservationSubmit : UInt8 := 3
def msgAdmissionDecision : UInt8 := 5
def msgResultPublish : UInt8 := 6
def msgResultAck : UInt8 := 7
def msgReplayRequest : UInt8 := 12
def msgReplayData : UInt8 := 13
def msgReplayEnd : UInt8 := 14
def msgStatusQuery : UInt8 := 15
def msgStatusReply : UInt8 := 16

/-- `obicall_wire_role_t`. -/
def roleUnknown : UInt32 := 0
def roleWorker : UInt32 := 1
def roleBroker : UInt32 := 2
def roleCli : UInt32 := 5

/-- `obicall_msg_auth_hello_t`. -/
structure MsgAuthHello where
  protocolVersion : UInt32
  role : UInt32
  runToken : Vector UInt8 32
  deriving DecidableEq

/-- `obicall_msg_heartbeat_t`. -/
structure MsgHeartbeat where
  brokerId : UInt32
  epoch : UInt64
  lastWindowSeq : UInt64
  configDigest : DigestBytes
  checkpointSchemaVersion : UInt32
  healthy : UInt32
  sentAtNs : Int64
  deriving DecidableEq

/-- `obicall_msg_epoch_grant_t`. -/
structure MsgEpochGrant where
  newEpoch : UInt64
  grantedToBrokerId : UInt32
  grantedAtNs : Int64
  deriving DecidableEq

/-- `obicall_msg_epoch_revoke_t`. -/
structure MsgEpochRevoke where
  revokedEpoch : UInt64
  revokedBrokerId : UInt32
  revokedAtNs : Int64
  reasonCode : UInt32
  deriving DecidableEq

/-- `obicall_msg_readiness_report_t`. -/
structure MsgReadinessReport where
  brokerId : UInt32
  configDigest : DigestBytes
  checkpointSchemaVersion : UInt32
  lastProcessedWindowSeq : UInt64
  healthy : UInt32
  deriving DecidableEq

/-- `obicall_msg_replay_request_t`. -/
structure MsgReplayRequest where
  pipelineId : PipelineId
  fromWindowSeq : UInt64
  deriving DecidableEq

/-- `obicall_msg_admission_decision_t`. -/
structure MsgAdmissionDecision where
  pipelineId : PipelineId
  windowSeq : UInt64
  sensorId : SensorId
  sequence : UInt64
  admitted : UInt32
  reasonCode : UInt32
  decidedAtNs : Int64
  deriving DecidableEq

/-- `obicall_msg_result_ack_t`. -/
structure MsgResultAck where
  pipelineId : PipelineId
  windowSeq : UInt64
  accepted : UInt32
  rejectStatus : Int32
  deriving DecidableEq

/-- `obicall_msg_status_reply_t`. -/
structure MsgStatusReply where
  running : UInt32
  gateEpoch : UInt64
  ownerBrokerId : UInt32
  lastCommittedWindowSeq : UInt64
  uptimeNs : Int64
  deriving DecidableEq

end Obicall
