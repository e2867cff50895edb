/-
`journal.c`: the admission decision for one observation, and the codec
of the durable segment's records.

A segment file is its bytes. `obicallJournalRecord` gives the bytes that
`obicall_journal_append_record` hands to `fwrite`; how many of them
reach the file is up to the caller's disk. The reader starts at the
stream's position and returns what it leaves unread; on any error it
seeks back, so the position does not move.
-/
import Mathlib.Data.List.Basic
import Obicall.Core.Digest
import Obicall.Core.Observation
import Obicall.Core.Wire

namespace Obicall

open Lib.Codec

-- ============================================================= admission

/-- `obicall_admission_reason_t`. -/
inductive AdmissionReason where
  | admitOk | rejectValidation | rejectDuplicate | rejectLate
  | rejectOverflow | rejectSequenceRegression
  deriving DecidableEq, Repr

/-- The reason as it is stored and sent. -/
def AdmissionReason.code : AdmissionReason → UInt32
  | admitOk => 0
  | rejectValidation => 1
  | rejectDuplicate => 2
  | rejectLate => 3
  | rejectOverflow => 4
  | rejectSequenceRegression => 5

/-- `obicall_journal_config_t`; the overflow policy is never read. -/
structure JournalConfig where
  reorderWindowN : UInt64
  maxLatenessNs : Int64
  maxPendingPerPipeline : UInt32

/-- The configuration of the command line's defaults. -/
def defaultCfg : JournalConfig where
  reorderWindowN := 8
  maxLatenessNs := 2000000000
  maxPendingPerPipeline := 4096

/-- `obicall_sensor_track_t`. -/
structure SensorTrack where
  sensorId : SensorId
  sourceBootId : UInt64
  hasData : Bool
  highestSequenceSeen : UInt64
  watermarkSampleTimeNs : Int64
  deriving DecidableEq

variable {F : Type}

/-- `is_new_session`. -/
def SensorTrack.isNewSession (track : SensorTrack) (obs : Observation F) :
    Bool :=
  !track.hasData || track.sourceBootId != obs.sourceBootId

/-- The track after an admission. -/
def SensorTrack.admitted (track : SensorTrack) (obs : Observation F) :
    SensorTrack where
  sensorId := obs.sensorId
  sourceBootId := obs.sourceBootId
  hasData := true
  highestSequenceSeen := obs.sequence
  watermarkSampleTimeNs :=
    if track.isNewSession obs
        || track.watermarkSampleTimeNs < obs.sampleTimeNs then
      obs.sampleTimeNs
    else track.watermarkSampleTimeNs

/-- `obicall_journal_admit`: the decision, and the track it leaves. -/
def obicallJournalAdmit [DoubleArith F] (cfg : JournalConfig)
    (track : SensorTrack) (obs : Observation F)
    (currentPendingCount : UInt32) : AdmissionReason × SensorTrack :=
  if obicallObservationValidate obs ≠ .ok then (.rejectValidation, track)
  else if !track.isNewSession obs
      && obs.sequence ≤ track.highestSequenceSeen then
    if track.highestSequenceSeen - obs.sequence > cfg.reorderWindowN then
      (.rejectLate, track)
    else (.rejectDuplicate, track)
  else if !track.isNewSession obs && obs.sampleTimeNs
      < track.watermarkSampleTimeNs - cfg.maxLatenessNs then
    (.rejectLate, track)
  else if currentPendingCount ≥ cfg.maxPendingPerPipeline then
    (.rejectOverflow, track)
  else (.admitOk, track.admitted obs)

section Decision

variable [DoubleArith F] {cfg : JournalConfig} {track : SensorTrack}
  {obs : Observation F} {pending : UInt32}

/-- At the start of a session only the backlog is looked at. -/
theorem admit_newSession (hvalid : obicallObservationValidate obs = .ok)
    (hnew : track.isNewSession obs = true) :
    obicallJournalAdmit cfg track obs pending
      = if pending ≥ cfg.maxPendingPerPipeline then (.rejectOverflow, track)
        else (.admitOk, track.admitted obs) := by
  rw [obicallJournalAdmit, if_neg (not_not.mpr hvalid), hnew,
    Bool.not_true, Bool.false_and, Bool.false_and,
    if_neg Bool.false_ne_true, if_neg Bool.false_ne_true]

/-- Within a session and above every sequence seen, the lateness is looked
at first. -/
theorem admit_inSession (hvalid : obicallObservationValidate obs = .ok)
    (hold : track.isNewSession obs = false)
    (hseq : track.highestSequenceSeen < obs.sequence) :
    obicallJournalAdmit cfg track obs pending
      = if obs.sampleTimeNs < track.watermarkSampleTimeNs
            - cfg.maxLatenessNs then (.rejectLate, track)
        else if pending ≥ cfg.maxPendingPerPipeline then
          (.rejectOverflow, track)
        else (.admitOk, track.admitted obs) := by
  have hbehind : ¬ obs.sequence ≤ track.highestSequenceSeen :=
    UInt64.not_le.mpr hseq
  rw [obicallJournalAdmit, if_neg (not_not.mpr hvalid), hold]
  simp [hbehind]

/-- An admission decision, read backwards: the observation was valid,
within its session above every sequence seen and not late, the backlog
had room, and the track is the observation's. -/
theorem admit_fst_ok
    (h : (obicallJournalAdmit cfg track obs pending).1 = .admitOk) :
    obicallObservationValidate obs = .ok
    ∧ (track.isNewSession obs = false →
      track.highestSequenceSeen < obs.sequence
      ∧ ¬ obs.sampleTimeNs
        < track.watermarkSampleTimeNs - cfg.maxLatenessNs)
    ∧ pending < cfg.maxPendingPerPipeline
    ∧ (obicallJournalAdmit cfg track obs pending).2
      = track.admitted obs := by
  rw [obicallJournalAdmit] at h ⊢
  split at h
  · cases h
  next hvalid =>
    split at h
    · split at h
      · cases h
      · cases h
    next hseq =>
      split at h
      · cases h
      next hlate =>
        split at h
        · cases h
        next hroom =>
          rw [if_neg hvalid, if_neg hseq, if_neg hlate, if_neg hroom]
          refine ⟨not_not.mp hvalid, fun hold => ?_, ?_, rfl⟩
          · rw [hold] at hseq hlate
            simpa using And.intro hseq hlate
          · exact UInt32.not_le.mp hroom

/-- The same for a decision that comes as a pair. -/
theorem admit_ok {track' : SensorTrack}
    (h : obicallJournalAdmit cfg track obs pending = (.admitOk, track')) :
    obicallObservationValidate obs = .ok
    ∧ (track.isNewSession obs = false →
      track.highestSequenceSeen < obs.sequence)
    ∧ pending < cfg.maxPendingPerPipeline
    ∧ track' = track.admitted obs := by
  obtain ⟨hvalid, hsession, hroom, htrack⟩ :=
    admit_fst_ok (congrArg Prod.fst h)
  rw [h] at htrack
  exact ⟨hvalid, fun hold => (hsession hold).1, hroom, htrack⟩

end Decision

/-- A refusal leaves the track as it was. -/
theorem admit_rejected [DoubleArith F] {cfg : JournalConfig}
    {track track' : SensorTrack} {obs : Observation F} {pending : UInt32}
    {reason : AdmissionReason}
    (h : obicallJournalAdmit cfg track obs pending = (reason, track'))
    (hreason : reason ≠ .admitOk) : track' = track := by
  rw [obicallJournalAdmit] at h
  split at h
  · cases h; rfl
  split at h
  · split at h
    · cases h; rfl
    · cases h; rfl
  split at h
  · cases h; rfl
  split at h
  · cases h; rfl
  · cases h
    exact absurd rfl hreason

-- =============================================================== records

/-- `OBICALL_JOURNAL_RECORD_MAGIC`, "JORB". -/
def journalRecordMagic : UInt32 := 0x4A4F5242

/-- `OBICALL_JOURNAL_RECORD_HEADER_LEN`. -/
def journalRecordHeaderLen : Nat := 40

/-- `OBICALL_JOURNAL_MAX_RECORD_OBS_LEN`. -/
def journalMaxRecordObsLen : Nat := 4096

/-- `obicall_journal_record_header_t`. -/
structure JournalRecordHeader where
  magic : UInt32
  recordLen : UInt32
  observationLen : UInt32
  crc32 : UInt32
  windowSeq : UInt64
  admittedAtNs : Int64
  admissionReason : UInt32
  reserved : UInt32
  deriving DecidableEq

/-- The stores of `obicall_journal_encode_record_header`. -/
def wcRecordHeader (hdr : JournalRecordHeader) : StateM WCursor Unit := do
  wcU32 hdr.magic
  wcU32 hdr.recordLen
  wcU32 hdr.observationLen
  wcU32 hdr.crc32
  wcU64 hdr.windowSeq
  wcI64 hdr.admittedAtNs
  wcU32 hdr.admissionReason
  wcU32 hdr.reserved

/-- `obicall_journal_encode_record_header`; a short buffer is
`OBICALL_ERR_WIRE_MALFORMED` here. -/
def obicallJournalEncodeRecordHeader (hdr : JournalRecordHeader) :
    Except Status (List UInt8) :=
  (wcFinish journalRecordHeaderLen (wcRecordHeader hdr)).mapError
    fun _ => .errWireMalformed

/-- The loads of `obicall_journal_decode_record_header`. -/
def rcRecordHeader : StateM RCursor (Status × JournalRecordHeader) := do
  let magic ← rcU32
  let recordLen ← rcU32
  let observationLen ← rcU32
  let crc32 ← rcU32
  let windowSeq ← rcU64
  let admittedAtNs ← rcI64
  let admissionReason ← rcU32
  let reserved ← rcU32
  let status ← rcStatus
  return (status,
    { magic, recordLen, observationLen, crc32, windowSeq, admittedAtNs
      admissionReason, reserved })

/-- `obicall_journal_decode_record_header`. -/
def obicallJournalDecodeRecordHeader (inp : List UInt8) :
    Status × JournalRecordHeader :=
  (rcRecordHeader (RCursor.start inp)).1

/-- The bytes of a record header. -/
def JournalRecordHeader.bytes (hdr : JournalRecordHeader) : List UInt8 :=
  u32Bytes hdr.magic ++ (u32Bytes hdr.recordLen ++
  (u32Bytes hdr.observationLen ++ (u32Bytes hdr.crc32 ++
  (u64Bytes hdr.windowSeq ++ (u64Bytes hdr.admittedAtNs.toUInt64 ++
  (u32Bytes hdr.admissionReason ++ u32Bytes hdr.reserved))))))

theorem JournalRecordHeader.length_bytes (hdr : JournalRecordHeader) :
    hdr.bytes.length = journalRecordHeaderLen := by
  simp [JournalRecordHeader.bytes, journalRecordHeaderLen]

/-- A header fits the buffer it is encoded to. -/
theorem obicallJournalEncodeRecordHeader_eq (hdr : JournalRecordHeader) :
    obicallJournalEncodeRecordHeader hdr = .ok hdr.bytes := by
  have h : Writes (wcRecordHeader hdr) hdr.bytes :=
    .bind (writes_wcU32 _) <| .bind (writes_wcU32 _) <|
    .bind (writes_wcU32 _) <| .bind (writes_wcU32 _) <|
    .bind (writes_wcU64 _) <| .bind (writes_wcI64 _) <|
    .bind (writes_wcU32 _) (writes_wcU32 _)
  rw [obicallJournalEncodeRecordHeader, wcFinish_eq h, hdr.length_bytes,
    if_pos le_rfl]
  rfl

/-- A header's bytes decode to the header. -/
theorem obicallJournalDecodeRecordHeader_bytes (hdr : JournalRecordHeader) :
    obicallJournalDecodeRecordHeader hdr.bytes = (.ok, hdr) := by
  have h : ReadsBack rcRecordHeader hdr.bytes (.ok, hdr) :=
    .bind (reads_rcU32 _) <| .bind (reads_rcU32 _) <|
    .bind (reads_rcU32 _) <| .bind (reads_rcU32 _) <|
    .bind (reads_rcU64 _) <| .bind (reads_rcI64 _) <|
    .bind (reads_rcU32 _) <| .last (reads_rcU32 _) <|
    .last reads_rcStatus (Reads.pure _)
  exact h.run

-- from here on a header is known by these theorems only
attribute [irreducible] obicallJournalDecodeRecordHeader

variable [DoubleBits F]

/-- The header `obicall_journal_append_record` builds over an encoded
observation. -/
def recordHeader (windowSeq : UInt64) (admittedAtNs : Int64)
    (reason : AdmissionReason) (obsBytes : List UInt8) :
    JournalRecordHeader where
  magic := journalRecordMagic
  recordLen := UInt32.ofNat (journalRecordHeaderLen + obsBytes.length)
  observationLen := UInt32.ofNat obsBytes.length
  crc32 := obicallCrc32 obsBytes
  windowSeq := windowSeq
  admittedAtNs := admittedAtNs
  admissionReason := reason.code
  reserved := 0

/-- The bytes that `obicall_journal_append_record` writes, in order. -/
def obicallJournalRecord (windowSeq : UInt64) (admittedAtNs : Int64)
    (reason : AdmissionReason) (obs : Observation F) :
    Except Status (List UInt8) := do
  let obsBytes ← obicallWireEncodeObservation obs journalMaxRecordObsLen
  let hdrBytes ← obicallJournalEncodeRecordHeader
    (recordHeader windowSeq admittedAtNs reason obsBytes)
  return hdrBytes ++ obsBytes

theorem Observation.length_bytes_le_record (obs : Observation F) :
    obs.bytes.length ≤ journalMaxRecordObsLen :=
  obs.length_bytes_le.trans (by decide)

/-- Every encodable observation has a record: its header, and its
bytes. -/
theorem obicallJournalRecord_eq {obs : Observation F} (h : obs.Encodable)
    (windowSeq : UInt64) (admittedAtNs : Int64) (reason : AdmissionReason) :
    obicallJournalRecord windowSeq admittedAtNs reason obs
      = .ok ((recordHeader windowSeq admittedAtNs reason obs.bytes).bytes
          ++ obs.bytes) := by
  rw [obicallJournalRecord, obicallWireEncodeObservation_eq h,
    if_pos obs.length_bytes_le_record]
  show (obicallJournalEncodeRecordHeader _ >>= _) = _
  rw [obicallJournalEncodeRecordHeader_eq]
  rfl

/-- Only an encodable observation has a record. -/
theorem obicallJournalRecord_of_not_encodable {obs : Observation F}
    (h : ¬ obs.Encodable) (windowSeq : UInt64) (admittedAtNs : Int64)
    (reason : AdmissionReason) :
    obicallJournalRecord windowSeq admittedAtNs reason obs
      = .error .errWireMalformed := by
  unfold obicallJournalRecord
  rw [obicallWireEncodeObservation_of_not_encodable h]
  rfl

/-- A record of a segment file. -/
abbrev SegmentRecord (F : Type) : Type := JournalRecordHeader × Observation F

/-- `obicall_journal_read_record` at the current position: the record
and the unread rest, or the status it fails with. -/
def obicallJournalReadRecord (f : List UInt8) :
    Except Status ((JournalRecordHeader × Observation F) × List UInt8) :=
  if f.length = 0 then .error .errNotFound
  else if f.length < journalRecordHeaderLen then .error .errWireMalformed
  else
    let (st, hdr) := obicallJournalDecodeRecordHeader
      (f.take journalRecordHeaderLen)
    if st ≠ .ok || hdr.magic ≠ journalRecordMagic then
      .error .errWireMalformed
    else if hdr.observationLen.toNat > journalMaxRecordObsLen
        || hdr.recordLen
          ≠ UInt32.ofNat journalRecordHeaderLen + hdr.observationLen then
      .error .errWireTooLarge
    else
      let body := f.drop journalRecordHeaderLen
      let obsBytes := body.take hdr.observationLen.toNat
      if obsBytes.length ≠ hdr.observationLen.toNat then
        .error .errWireMalformed
      else if obicallCrc32 obsBytes ≠ hdr.crc32 then
        .error .errWireChecksum
      else match obicallWireDecodeObservation obsBytes with
        | (.ok, obs) =>
            .ok ((hdr, obs), body.drop hdr.observationLen.toNat)
        | (st, _) => .error st

/-- A record that is read takes at least its header off the stream. -/
theorem readRecord_length_lt {f rest : List UInt8}
    {r : JournalRecordHeader × Observation F}
    (h : obicallJournalReadRecord f = .ok (r, rest)) :
    rest.length < f.length := by
  simp only [obicallJournalReadRecord] at h
  split at h
  · cases h
  split at h
  · cases h
  next hempty hlen =>
    split at h
    · cases h
    split at h
    · cases h
    split at h
    · cases h
    split at h
    · cases h
    split at h
    · injection h with h
      injection h with _ hrest
      rw [← hrest, List.length_drop, List.length_drop]
      simp only [journalRecordHeaderLen] at hlen ⊢
      omega
    · cases h

omit [DoubleBits F] in
theorem observationLen_recordHeader (windowSeq : UInt64)
    (admittedAtNs : Int64) (reason : AdmissionReason) {obsBytes : List UInt8}
    (h : obsBytes.length ≤ journalMaxRecordObsLen) :
    (recordHeader windowSeq admittedAtNs reason obsBytes).observationLen.toNat
      = obsBytes.length := by
  show (UInt32.ofNat obsBytes.length).toNat = _
  simp only [journalMaxRecordObsLen] at h
  rw [UInt32.toNat_ofNat', Nat.mod_eq_of_lt (by omega)]

/-- Behind the header of a record, its observation is read: the bytes are
there, they have the checksum, and they decode. -/
theorem readRecord_recordHeader_append {obsBytes : List UInt8}
    (h : obsBytes.length ≤ journalMaxRecordObsLen) (windowSeq : UInt64)
    (admittedAtNs : Int64) (reason : AdmissionReason) (body : List UInt8) :
    let hdr := recordHeader windowSeq admittedAtNs reason obsBytes
    obicallJournalReadRecord (F := F) (hdr.bytes ++ body)
      = if (body.take obsBytes.length).length ≠ obsBytes.length then
          .error .errWireMalformed
        else if obicallCrc32 (body.take obsBytes.length) ≠ hdr.crc32 then
          .error .errWireChecksum
        else match obicallWireDecodeObservation
            (body.take obsBytes.length) with
          | (.ok, obs) => .ok ((hdr, obs), body.drop obsBytes.length)
          | (st, _) => .error st := by
  intro hdr
  have hlen : hdr.observationLen.toNat = obsBytes.length :=
    observationLen_recordHeader windowSeq admittedAtNs reason h
  have hrec : hdr.recordLen
      = UInt32.ofNat journalRecordHeaderLen + hdr.observationLen :=
    UInt32.ofNat_add _ _
  have htake : (hdr.bytes ++ body).take journalRecordHeaderLen
      = hdr.bytes := by
    rw [← hdr.length_bytes, List.take_left]
  have hdrop : (hdr.bytes ++ body).drop journalRecordHeaderLen = body := by
    rw [← hdr.length_bytes, List.drop_left]
  have hfile : (hdr.bytes ++ body).length
      = journalRecordHeaderLen + body.length := by
    rw [List.length_append, hdr.length_bytes]
  have hempty : ¬ (hdr.bytes ++ body).length = 0 := by
    rw [hfile]
    simp only [journalRecordHeaderLen]
    omega
  have hshort : ¬ (hdr.bytes ++ body).length < journalRecordHeaderLen := by
    rw [hfile]
    omega
  have hmagic : ¬ (decide (Status.ok ≠ .ok)
      || decide (hdr.magic ≠ journalRecordMagic)) = true := by
    show ¬ (_ || decide (journalRecordMagic ≠ journalRecordMagic)) = true
    decide
  have hsize : ¬ (decide (obsBytes.length > journalMaxRecordObsLen)
      || decide (hdr.recordLen
        ≠ UInt32.ofNat journalRecordHeaderLen + hdr.observationLen))
        = true := by
    have hmax : ¬ obsBytes.length > journalMaxRecordObsLen := not_lt.mpr h
    simp [hmax, hrec]
  unfold obicallJournalReadRecord
  rw [if_neg hempty, if_neg hshort, htake,
    obicallJournalDecodeRecordHeader_bytes]
  simp only [hlen]
  rw [if_neg hmagic, if_neg hsize, hdrop]

/-- A whole record is read back, whatever follows it. -/
theorem readRecord_record_append {obs : Observation F} (h : obs.Encodable)
    (windowSeq : UInt64) (admittedAtNs : Int64) (reason : AdmissionReason)
    (rest : List UInt8) :
    let hdr := recordHeader windowSeq admittedAtNs reason obs.bytes
    obicallJournalReadRecord (hdr.bytes ++ obs.bytes ++ rest)
      = .ok ((hdr, obs.normalize), rest) := by
  intro hdr
  have hcrc : ¬ obicallCrc32 obs.bytes ≠ hdr.crc32 := not_not.mpr rfl
  rw [List.append_assoc,
    readRecord_recordHeader_append obs.length_bytes_le_record,
    List.take_left, List.drop_left, if_neg (not_not.mpr rfl), if_neg hcrc,
    obicallWireDecodeObservation_bytes h]

/-- The replay loop: read records until the first status that is not
`OBICALL_OK`. -/
def readRecords (f : List UInt8) :
    List (JournalRecordHeader × Observation F) :=
  match _h : obicallJournalReadRecord f with
  | .ok (r, rest) => r :: readRecords rest
  | .error _ => []
  termination_by f.length
  decreasing_by exact readRecord_length_lt _h

theorem readRecords_of_ok {f rest : List UInt8}
    {r : JournalRecordHeader × Observation F}
    (h : obicallJournalReadRecord f = .ok (r, rest)) :
    readRecords f = r :: readRecords rest := by
  rw [readRecords]
  split
  next r' rest' h' =>
    rw [h] at h'
    cases h'
    rfl
  next st h' =>
    rw [h] at h'
    cases h'

/-- The loop stops at the first bad record, whatever follows it. -/
theorem readRecords_of_error {f : List UInt8} {st : Status}
    (h : obicallJournalReadRecord (F := F) f = .error st) :
    readRecords (F := F) f = [] := by
  rw [readRecords]
  split
  next r rest h' =>
    rw [h] at h'
    cases h'
  next => rfl

end Obicall
