/-
The control messages of `wire.c`: nine structs of fixed layout, whose
codecs differ in their fields only.

Every decoder reads its fields in order and reports malformed input only
when the bytes ran out; bytes after the last field are not looked at.
-/
import Mathlib.Data.List.Basic
import Obicall.Core.Cursor

namespace Obicall

open Lib.Codec

variable {M : Type → Type} [Monad M] [ReadCursor M]

-- ============================================================== auth hello

/-- The stores of `obicall_wire_encode_auth_hello`. -/
def wcAuthHello (m : MsgAuthHello) : StateM WCursor Unit := do
  wcU32 m.protocolVersion
  wcU32 m.role
  wcFixed m.runToken

/-- `obicall_wire_encode_auth_hello`. -/
def obicallWireEncodeAuthHello (m : MsgAuthHello) (outCap : Nat) :
    Except Status (List UInt8) := wcFinish outCap (wcAuthHello m)

/-- The loads of `obicall_wire_decode_auth_hello`. -/
def rcAuthHello : M (Status × MsgAuthHello) := do
  let protocolVersion ← rcU32
  let role ← rcU32
  let runToken ← rcBytes 32
  let status ← rcStatus
  return (status, { protocolVersion, role, runToken })

/-- `obicall_wire_decode_auth_hello`. -/
def obicallWireDecodeAuthHello (inp : List UInt8) : Status × MsgAuthHello :=
  ((rcAuthHello : StateM RCursor _) (RCursor.start inp)).1

/-- The bytes of a hello. -/
def MsgAuthHello.bytes (m : MsgAuthHello) : List UInt8 :=
  u32Bytes m.protocolVersion ++ (u32Bytes m.role ++ m.runToken.toList)

theorem writes_wcAuthHello (m : MsgAuthHello) :
    Writes (wcAuthHello m) m.bytes :=
  .bind (writes_wcU32 _) <| .bind (writes_wcU32 _) (writes_wcFixed _)

theorem reads_rcAuthHello (m : MsgAuthHello) :
    ReadsBack rcAuthHello m.bytes (.ok, m) :=
  .bind (reads_rcU32 _) <| .bind (reads_rcU32 _) <|
  .last (reads_rcBytes _) <| .last reads_rcStatus (Reads.pure _)

theorem parses_rcAuthHello : Parses rcAuthHello fun m bs => bs = m.bytes :=
  .read takes_rcU32 fun _ => .read takes_rcU32 fun _ =>
  .read (takes_rcBytes _) fun _ =>
  accepts_status <| by
    rw [List.append_nil]
    rfl

-- =============================================================== heartbeat

/-- The stores of `obicall_wire_encode_heartbeat`. -/
def wcHeartbeat (m : MsgHeartbeat) : StateM WCursor Unit := do
  wcU32 m.brokerId
  wcU64 m.epoch
  wcU64 m.lastWindowSeq
  wcFixed m.configDigest
  wcU32 m.checkpointSchemaVersion
  wcU32 m.healthy
  wcI64 m.sentAtNs

/-- `obicall_wire_encode_heartbeat`. -/
def obicallWireEncodeHeartbeat (m : MsgHeartbeat) (outCap : Nat) :
    Except Status (List UInt8) := wcFinish outCap (wcHeartbeat m)

/-- The loads of `obicall_wire_decode_heartbeat`. -/
def rcHeartbeat : M (Status × MsgHeartbeat) := do
  let brokerId ← rcU32
  let epoch ← rcU64
  let lastWindowSeq ← rcU64
  let configDigest ← rcBytes 32
  let checkpointSchemaVersion ← rcU32
  let healthy ← rcU32
  let sentAtNs ← rcI64
  let status ← rcStatus
  return (status,
    { brokerId, epoch, lastWindowSeq, configDigest
      checkpointSchemaVersion, healthy, sentAtNs })

/-- `obicall_wire_decode_heartbeat`. -/
def obicallWireDecodeHeartbeat (inp : List UInt8) : Status × MsgHeartbeat :=
  ((rcHeartbeat : StateM RCursor _) (RCursor.start inp)).1

/-- The bytes of a heartbeat. -/
def MsgHeartbeat.bytes (m : MsgHeartbeat) : List UInt8 :=
  u32Bytes m.brokerId ++ (u64Bytes m.epoch ++ (u64Bytes m.lastWindowSeq ++
  (m.configDigest.toList ++ (u32Bytes m.checkpointSchemaVersion ++
  (u32Bytes m.healthy ++ u64Bytes m.sentAtNs.toUInt64)))))

theorem writes_wcHeartbeat (m : MsgHeartbeat) :
    Writes (wcHeartbeat m) m.bytes :=
  .bind (writes_wcU32 _) <| .bind (writes_wcU64 _) <|
  .bind (writes_wcU64 _) <| .bind (writes_wcFixed _) <|
  .bind (writes_wcU32 _) <| .bind (writes_wcU32 _) (writes_wcI64 _)

theorem reads_rcHeartbeat (m : MsgHeartbeat) :
    ReadsBack rcHeartbeat m.bytes (.ok, m) :=
  .bind (reads_rcU32 _) <| .bind (reads_rcU64 _) <| .bind (reads_rcU64 _) <|
  .bind (reads_rcBytes _) <| .bind (reads_rcU32 _) <|
  .bind (reads_rcU32 _) <| .last (reads_rcI64 _) <|
  .last reads_rcStatus (Reads.pure _)

theorem parses_rcHeartbeat : Parses rcHeartbeat fun m bs => bs = m.bytes :=
  .read takes_rcU32 fun _ => .read takes_rcU64 fun _ =>
  .read takes_rcU64 fun _ => .read (takes_rcBytes _) fun _ =>
  .read takes_rcU32 fun _ => .read takes_rcU32 fun _ =>
  .read takes_rcI64 fun _ =>
  accepts_status <| by
    rw [List.append_nil]
    rfl

-- ============================================================= epoch grant

/-- The stores of `obicall_wire_encode_epoch_grant`. -/
def wcEpochGrant (m : MsgEpochGrant) : StateM WCursor Unit := do
  wcU64 m.newEpoch
  wcU32 m.grantedToBrokerId
  wcI64 m.grantedAtNs

/-- `obicall_wire_encode_epoch_grant`. -/
def obicallWireEncodeEpochGrant (m : MsgEpochGrant) (outCap : Nat) :
    Except Status (List UInt8) := wcFinish outCap (wcEpochGrant m)

/-- The loads of `obicall_wire_decode_epoch_grant`. -/
def rcEpochGrant : M (Status × MsgEpochGrant) := do
  let newEpoch ← rcU64
  let grantedToBrokerId ← rcU32
  let grantedAtNs ← rcI64
  let status ← rcStatus
  return (status, { newEpoch, grantedToBrokerId, grantedAtNs })

/-- `obicall_wire_decode_epoch_grant`. -/
def obicallWireDecodeEpochGrant (inp : List UInt8) :
    Status × MsgEpochGrant :=
  ((rcEpochGrant : StateM RCursor _) (RCursor.start inp)).1

/-- The bytes of a grant. -/
def MsgEpochGrant.bytes (m : MsgEpochGrant) : List UInt8 :=
  u64Bytes m.newEpoch ++ (u32Bytes m.grantedToBrokerId ++
  u64Bytes m.grantedAtNs.toUInt64)

theorem writes_wcEpochGrant (m : MsgEpochGrant) :
    Writes (wcEpochGrant m) m.bytes :=
  .bind (writes_wcU64 _) <| .bind (writes_wcU32 _) (writes_wcI64 _)

theorem reads_rcEpochGrant (m : MsgEpochGrant) :
    ReadsBack rcEpochGrant m.bytes (.ok, m) :=
  .bind (reads_rcU64 _) <| .bind (reads_rcU32 _) <| .last (reads_rcI64 _) <|
  .last reads_rcStatus (Reads.pure _)

theorem parses_rcEpochGrant : Parses rcEpochGrant fun m bs => bs = m.bytes :=
  .read takes_rcU64 fun _ => .read takes_rcU32 fun _ =>
  .read takes_rcI64 fun _ =>
  accepts_status <| by
    rw [List.append_nil]
    rfl

-- ============================================================ epoch revoke

/-- The stores of `obicall_wire_encode_epoch_revoke`. -/
def wcEpochRevoke (m : MsgEpochRevoke) : StateM WCursor Unit := do
  wcU64 m.revokedEpoch
  wcU32 m.revokedBrokerId
  wcI64 m.revokedAtNs
  wcU32 m.reasonCode

/-- `obicall_wire_encode_epoch_revoke`. -/
def obicallWireEncodeEpochRevoke (m : MsgEpochRevoke) (outCap : Nat) :
    Except Status (List UInt8) := wcFinish outCap (wcEpochRevoke m)

/-- The loads of `obicall_wire_decode_epoch_revoke`. -/
def rcEpochRevoke : M (Status × MsgEpochRevoke) := do
  let revokedEpoch ← rcU64
  let revokedBrokerId ← rcU32
  let revokedAtNs ← rcI64
  let reasonCode ← rcU32
  let status ← rcStatus
  return (status,
    { revokedEpoch, revokedBrokerId, revokedAtNs, reasonCode })

/-- `obicall_wire_decode_epoch_revoke`. -/
def obicallWireDecodeEpochRevoke (inp : List UInt8) :
    Status × MsgEpochRevoke :=
  ((rcEpochRevoke : StateM RCursor _) (RCursor.start inp)).1

/-- The bytes of a revocation. -/
def MsgEpochRevoke.bytes (m : MsgEpochRevoke) : List UInt8 :=
  u64Bytes m.revokedEpoch ++ (u32Bytes m.revokedBrokerId ++
  (u64Bytes m.revokedAtNs.toUInt64 ++ u32Bytes m.reasonCode))

theorem writes_wcEpochRevoke (m : MsgEpochRevoke) :
    Writes (wcEpochRevoke m) m.bytes :=
  .bind (writes_wcU64 _) <| .bind (writes_wcU32 _) <|
  .bind (writes_wcI64 _) (writes_wcU32 _)

theorem reads_rcEpochRevoke (m : MsgEpochRevoke) :
    ReadsBack rcEpochRevoke m.bytes (.ok, m) :=
  .bind (reads_rcU64 _) <| .bind (reads_rcU32 _) <| .bind (reads_rcI64 _) <|
  .last (reads_rcU32 _) <| .last reads_rcStatus (Reads.pure _)

theorem parses_rcEpochRevoke : Parses rcEpochRevoke fun m bs => bs = m.bytes :=
  .read takes_rcU64 fun _ => .read takes_rcU32 fun _ =>
  .read takes_rcI64 fun _ => .read takes_rcU32 fun _ =>
  accepts_status <| by
    rw [List.append_nil]
    rfl

-- ======================================================== readiness report

/-- The stores of `obicall_wire_encode_readiness_report`. -/
def wcReadinessReport (m : MsgReadinessReport) : StateM WCursor Unit := do
  wcU32 m.brokerId
  wcFixed m.configDigest
  wcU32 m.checkpointSchemaVersion
  wcU64 m.lastProcessedWindowSeq
  wcU32 m.healthy

/-- `obicall_wire_encode_readiness_report`. -/
def obicallWireEncodeReadinessReport (m : MsgReadinessReport)
    (outCap : Nat) : Except Status (List UInt8) :=
  wcFinish outCap (wcReadinessReport m)

/-- The loads of `obicall_wire_decode_readiness_report`. -/
def rcReadinessReport : M (Status × MsgReadinessReport) := do
  let brokerId ← rcU32
  let configDigest ← rcBytes 32
  let checkpointSchemaVersion ← rcU32
  let lastProcessedWindowSeq ← rcU64
  let healthy ← rcU32
  let status ← rcStatus
  return (status,
    { brokerId, configDigest, checkpointSchemaVersion
      lastProcessedWindowSeq, healthy })

/-- `obicall_wire_decode_readiness_report`. -/
def obicallWireDecodeReadinessReport (inp : List UInt8) :
    Status × MsgReadinessReport :=
  ((rcReadinessReport : StateM RCursor _) (RCursor.start inp)).1

/-- The bytes of a report. -/
def MsgReadinessReport.bytes (m : MsgReadinessReport) : List UInt8 :=
  u32Bytes m.brokerId ++ (m.configDigest.toList ++
  (u32Bytes m.checkpointSchemaVersion ++
  (u64Bytes m.lastProcessedWindowSeq ++ u32Bytes m.healthy)))

theorem writes_wcReadinessReport (m : MsgReadinessReport) :
    Writes (wcReadinessReport m) m.bytes :=
  .bind (writes_wcU32 _) <| .bind (writes_wcFixed _) <|
  .bind (writes_wcU32 _) <| .bind (writes_wcU64 _) (writes_wcU32 _)

theorem reads_rcReadinessReport (m : MsgReadinessReport) :
    ReadsBack rcReadinessReport m.bytes (.ok, m) :=
  .bind (reads_rcU32 _) <| .bind (reads_rcBytes _) <|
  .bind (reads_rcU32 _) <| .bind (reads_rcU64 _) <| .last (reads_rcU32 _) <|
  .last reads_rcStatus (Reads.pure _)

theorem parses_rcReadinessReport : Parses rcReadinessReport fun m bs => bs = m.bytes :=
  .read takes_rcU32 fun _ => .read (takes_rcBytes _) fun _ =>
  .read takes_rcU32 fun _ => .read takes_rcU64 fun _ =>
  .read takes_rcU32 fun _ =>
  accepts_status <| by
    rw [List.append_nil]
    rfl

-- ========================================================== replay request

/-- The stores of `obicall_wire_encode_replay_request`. -/
def wcReplayRequest (m : MsgReplayRequest) : StateM WCursor Unit := do
  wcFixed m.pipelineId
  wcU64 m.fromWindowSeq

/-- `obicall_wire_encode_replay_request`. -/
def obicallWireEncodeReplayRequest (m : MsgReplayRequest) (outCap : Nat) :
    Except Status (List UInt8) := wcFinish outCap (wcReplayRequest m)

/-- The loads of `obicall_wire_decode_replay_request`. -/
def rcReplayRequest : M (Status × MsgReplayRequest) := do
  let pipelineId ← rcBytes 32
  let fromWindowSeq ← rcU64
  let status ← rcStatus
  return (status, { pipelineId, fromWindowSeq })

/-- `obicall_wire_decode_replay_request`. -/
def obicallWireDecodeReplayRequest (inp : List UInt8) :
    Status × MsgReplayRequest :=
  ((rcReplayRequest : StateM RCursor _) (RCursor.start inp)).1

/-- The bytes of a replay request. -/
def MsgReplayRequest.bytes (m : MsgReplayRequest) : List UInt8 :=
  m.pipelineId.toList ++ u64Bytes m.fromWindowSeq

theorem writes_wcReplayRequest (m : MsgReplayRequest) :
    Writes (wcReplayRequest m) m.bytes :=
  .bind (writes_wcFixed _) (writes_wcU64 _)

theorem reads_rcReplayRequest (m : MsgReplayRequest) :
    ReadsBack rcReplayRequest m.bytes (.ok, m) :=
  .bind (reads_rcBytes _) <| .last (reads_rcU64 _) <|
  .last reads_rcStatus (Reads.pure _)

theorem parses_rcReplayRequest : Parses rcReplayRequest fun m bs => bs = m.bytes :=
  .read (takes_rcBytes _) fun _ => .read takes_rcU64 fun _ =>
  accepts_status <| by
    rw [List.append_nil]
    rfl

-- ====================================================== admission decision

/-- The stores of `obicall_wire_encode_admission_decision`. -/
def wcAdmissionDecision (m : MsgAdmissionDecision) : StateM WCursor Unit := do
  wcFixed m.pipelineId
  wcU64 m.windowSeq
  wcFixed m.sensorId
  wcU64 m.sequence
  wcU32 m.admitted
  wcU32 m.reasonCode
  wcI64 m.decidedAtNs

/-- `obicall_wire_encode_admission_decision`. -/
def obicallWireEncodeAdmissionDecision (m : MsgAdmissionDecision)
    (outCap : Nat) : Except Status (List UInt8) :=
  wcFinish outCap (wcAdmissionDecision m)

/-- The loads of `obicall_wire_decode_admission_decision`. -/
def rcAdmissionDecision : M (Status × MsgAdmissionDecision) := do
  let pipelineId ← rcBytes 32
  let windowSeq ← rcU64
  let sensorId ← rcBytes 32
  let sequence ← rcU64
  let admitted ← rcU32
  let reasonCode ← rcU32
  let decidedAtNs ← rcI64
  let status ← rcStatus
  return (status,
    { pipelineId, windowSeq, sensorId, sequence, admitted, reasonCode
      decidedAtNs })

/-- `obicall_wire_decode_admission_decision`. -/
def obicallWireDecodeAdmissionDecision (inp : List UInt8) :
    Status × MsgAdmissionDecision :=
  ((rcAdmissionDecision : StateM RCursor _) (RCursor.start inp)).1

/-- The bytes of an admission decision. -/
def MsgAdmissionDecision.bytes (m : MsgAdmissionDecision) : List UInt8 :=
  m.pipelineId.toList ++ (u64Bytes m.windowSeq ++ (m.sensorId.toList ++
  (u64Bytes m.sequence ++ (u32Bytes m.admitted ++ (u32Bytes m.reasonCode ++
  u64Bytes m.decidedAtNs.toUInt64)))))

theorem writes_wcAdmissionDecision (m : MsgAdmissionDecision) :
    Writes (wcAdmissionDecision m) m.bytes :=
  .bind (writes_wcFixed _) <| .bind (writes_wcU64 _) <|
  .bind (writes_wcFixed _) <| .bind (writes_wcU64 _) <|
  .bind (writes_wcU32 _) <| .bind (writes_wcU32 _) (writes_wcI64 _)

theorem reads_rcAdmissionDecision (m : MsgAdmissionDecision) :
    ReadsBack rcAdmissionDecision m.bytes (.ok, m) :=
  .bind (reads_rcBytes _) <| .bind (reads_rcU64 _) <|
  .bind (reads_rcBytes _) <| .bind (reads_rcU64 _) <|
  .bind (reads_rcU32 _) <| .bind (reads_rcU32 _) <| .last (reads_rcI64 _) <|
  .last reads_rcStatus (Reads.pure _)

theorem parses_rcAdmissionDecision : Parses rcAdmissionDecision fun m bs => bs = m.bytes :=
  .read (takes_rcBytes _) fun _ => .read takes_rcU64 fun _ =>
  .read (takes_rcBytes _) fun _ => .read takes_rcU64 fun _ =>
  .read takes_rcU32 fun _ => .read takes_rcU32 fun _ =>
  .read takes_rcI64 fun _ =>
  accepts_status <| by
    rw [List.append_nil]
    rfl

-- ============================================================== result ack

/-- The stores of `obicall_wire_encode_result_ack`. -/
def wcResultAck (m : MsgResultAck) : StateM WCursor Unit := do
  wcFixed m.pipelineId
  wcU64 m.windowSeq
  wcU32 m.accepted
  wcI32 m.rejectStatus

/-- `obicall_wire_encode_result_ack`. -/
def obicallWireEncodeResultAck (m : MsgResultAck) (outCap : Nat) :
    Except Status (List UInt8) := wcFinish outCap (wcResultAck m)

/-- The loads of `obicall_wire_decode_result_ack`. -/
def rcResultAck : M (Status × MsgResultAck) := do
  let pipelineId ← rcBytes 32
  let windowSeq ← rcU64
  let accepted ← rcU32
  let rejectStatus ← rcI32
  let status ← rcStatus
  return (status, { pipelineId, windowSeq, accepted, rejectStatus })

/-- `obicall_wire_decode_result_ack`. -/
def obicallWireDecodeResultAck (inp : List UInt8) : Status × MsgResultAck :=
  ((rcResultAck : StateM RCursor _) (RCursor.start inp)).1

/-- The bytes of an acknowledgement. -/
def MsgResultAck.bytes (m : MsgResultAck) : List UInt8 :=
  m.pipelineId.toList ++ (u64Bytes m.windowSeq ++ (u32Bytes m.accepted ++
  u32Bytes m.rejectStatus.toUInt32))

theorem writes_wcResultAck (m : MsgResultAck) :
    Writes (wcResultAck m) m.bytes :=
  .bind (writes_wcFixed _) <| .bind (writes_wcU64 _) <|
  .bind (writes_wcU32 _) (writes_wcI32 _)

theorem reads_rcResultAck (m : MsgResultAck) :
    ReadsBack rcResultAck m.bytes (.ok, m) :=
  .bind (reads_rcBytes _) <| .bind (reads_rcU64 _) <|
  .bind (reads_rcU32 _) <| .last (reads_rcI32 _) <|
  .last reads_rcStatus (Reads.pure _)

theorem parses_rcResultAck : Parses rcResultAck fun m bs => bs = m.bytes :=
  .read (takes_rcBytes _) fun _ => .read takes_rcU64 fun _ =>
  .read takes_rcU32 fun _ => .read takes_rcI32 fun _ =>
  accepts_status <| by
    rw [List.append_nil]
    rfl

-- ============================================================ status reply

/-- The stores of `obicall_wire_encode_status_reply`. -/
def wcStatusReply (m : MsgStatusReply) : StateM WCursor Unit := do
  wcU32 m.running
  wcU64 m.gateEpoch
  wcU32 m.ownerBrokerId
  wcU64 m.lastCommittedWindowSeq
  wcI64 m.uptimeNs

/-- `obicall_wire_encode_status_reply`. -/
def obicallWireEncodeStatusReply (m : MsgStatusReply) (outCap : Nat) :
    Except Status (List UInt8) := wcFinish outCap (wcStatusReply m)

/-- The loads of `obicall_wire_decode_status_reply`. -/
def rcStatusReply : M (Status × MsgStatusReply) := do
  let running ← rcU32
  let gateEpoch ← rcU64
  let ownerBrokerId ← rcU32
  let lastCommittedWindowSeq ← rcU64
  let uptimeNs ← rcI64
  let status ← rcStatus
  return (status,
    { running, gateEpoch, ownerBrokerId, lastCommittedWindowSeq, uptimeNs })

/-- `obicall_wire_decode_status_reply`. -/
def obicallWireDecodeStatusReply (inp : List UInt8) :
    Status × MsgStatusReply :=
  ((rcStatusReply : StateM RCursor _) (RCursor.start inp)).1

/-- The bytes of a status reply. -/
def MsgStatusReply.bytes (m : MsgStatusReply) : List UInt8 :=
  u32Bytes m.running ++ (u64Bytes m.gateEpoch ++
  (u32Bytes m.ownerBrokerId ++ (u64Bytes m.lastCommittedWindowSeq ++
  u64Bytes m.uptimeNs.toUInt64)))

theorem writes_wcStatusReply (m : MsgStatusReply) :
    Writes (wcStatusReply m) m.bytes :=
  .bind (writes_wcU32 _) <| .bind (writes_wcU64 _) <|
  .bind (writes_wcU32 _) <| .bind (writes_wcU64 _) (writes_wcI64 _)

theorem reads_rcStatusReply (m : MsgStatusReply) :
    ReadsBack rcStatusReply m.bytes (.ok, m) :=
  .bind (reads_rcU32 _) <| .bind (reads_rcU64 _) <| .bind (reads_rcU32 _) <|
  .bind (reads_rcU64 _) <| .last (reads_rcI64 _) <|
  .last reads_rcStatus (Reads.pure _)

theorem parses_rcStatusReply : Parses rcStatusReply fun m bs => bs = m.bytes :=
  .read takes_rcU32 fun _ => .read takes_rcU64 fun _ =>
  .read takes_rcU32 fun _ => .read takes_rcU64 fun _ =>
  .read takes_rcI64 fun _ =>
  accepts_status <| by
    rw [List.append_nil]
    rfl

-- ================================================================= lengths

@[simp] theorem MsgAuthHello.length_bytes (m : MsgAuthHello) :
    m.bytes.length = 40 := by
  simp [MsgAuthHello.bytes]

@[simp] theorem MsgHeartbeat.length_bytes (m : MsgHeartbeat) :
    m.bytes.length = 68 := by
  simp [MsgHeartbeat.bytes]

@[simp] theorem MsgEpochGrant.length_bytes (m : MsgEpochGrant) :
    m.bytes.length = 20 := by
  simp [MsgEpochGrant.bytes]

@[simp] theorem MsgEpochRevoke.length_bytes (m : MsgEpochRevoke) :
    m.bytes.length = 24 := by
  simp [MsgEpochRevoke.bytes]

@[simp] theorem MsgReadinessReport.length_bytes (m : MsgReadinessReport) :
    m.bytes.length = 52 := by
  simp [MsgReadinessReport.bytes]

@[simp] theorem MsgReplayRequest.length_bytes (m : MsgReplayRequest) :
    m.bytes.length = 40 := by
  simp [MsgReplayRequest.bytes]

@[simp] theorem MsgAdmissionDecision.length_bytes (m : MsgAdmissionDecision) :
    m.bytes.length = 96 := by
  simp [MsgAdmissionDecision.bytes]

@[simp] theorem MsgResultAck.length_bytes (m : MsgResultAck) :
    m.bytes.length = 48 := by
  simp [MsgResultAck.bytes]

@[simp] theorem MsgStatusReply.length_bytes (m : MsgStatusReply) :
    m.bytes.length = 32 := by
  simp [MsgStatusReply.bytes]

-- ============================================================= round trips

/-- A heartbeat's bytes decode to the heartbeat. -/
theorem obicallWireDecodeHeartbeat_bytes (m : MsgHeartbeat) :
    obicallWireDecodeHeartbeat m.bytes = (.ok, m) := (reads_rcHeartbeat m).run

/-- A decision's bytes decode to the decision. -/
theorem obicallWireDecodeAdmissionDecision_bytes
    (m : MsgAdmissionDecision) :
    obicallWireDecodeAdmissionDecision m.bytes = (.ok, m) :=
  (reads_rcAdmissionDecision m).run

/-- A decision has 96 bytes, so it fits any buffer it is encoded to. -/
theorem obicallWireEncodeAdmissionDecision_eq
    (m : MsgAdmissionDecision) {outCap : Nat} (hcap : 96 ≤ outCap) :
    obicallWireEncodeAdmissionDecision m outCap = .ok m.bytes := by
  rw [obicallWireEncodeAdmissionDecision,
    wcFinish_eq (writes_wcAdmissionDecision m), m.length_bytes, if_pos hcap]

/-- A heartbeat has 68 bytes. -/
theorem obicallWireEncodeHeartbeat_eq (m : MsgHeartbeat) {outCap : Nat}
    (hcap : 68 ≤ outCap) : obicallWireEncodeHeartbeat m outCap = .ok m.bytes := by
  rw [obicallWireEncodeHeartbeat, wcFinish_eq (writes_wcHeartbeat m),
    m.length_bytes, if_pos hcap]

/-- An acknowledgement has 48 bytes. -/
theorem obicallWireEncodeResultAck_eq (m : MsgResultAck) {outCap : Nat}
    (hcap : 48 ≤ outCap) : obicallWireEncodeResultAck m outCap = .ok m.bytes := by
  rw [obicallWireEncodeResultAck, wcFinish_eq (writes_wcResultAck m),
    m.length_bytes, if_pos hcap]

/-- A status reply has 32 bytes. -/
theorem obicallWireEncodeStatusReply_eq (m : MsgStatusReply)
    {outCap : Nat} (hcap : 32 ≤ outCap) :
    obicallWireEncodeStatusReply m outCap = .ok m.bytes := by
  rw [obicallWireEncodeStatusReply, wcFinish_eq (writes_wcStatusReply m),
    m.length_bytes, if_pos hcap]

/-- A status reply's bytes decode to the reply. -/
theorem obicallWireDecodeStatusReply_bytes (m : MsgStatusReply) :
    obicallWireDecodeStatusReply m.bytes = (.ok, m) :=
  (reads_rcStatusReply m).run

-- from here on a decoder is known by its theorems only
attribute [irreducible] obicallWireDecodeAuthHello
  obicallWireDecodeHeartbeat obicallWireDecodeEpochGrant
  obicallWireDecodeEpochRevoke obicallWireDecodeReadinessReport
  obicallWireDecodeReplayRequest obicallWireDecodeAdmissionDecision
  obicallWireDecodeResultAck obicallWireDecodeStatusReply

end Obicall
