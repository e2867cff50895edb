/-
`gate.c`: the publication gate's decisions (publish, promotability,
promotion) and the codec and file format of its durable state.

A decision takes the state and returns the new one; nothing here does
I/O. `obicallGatePersistState` returns the bytes the C function writes
to a fresh file, `obicallGateLoadState` the status and the struct the
caller is left with after reading a file's bytes.

The last sections are about the state itself: which slot the search
finds, and the high-water of a pipeline id.
-/
import Mathlib.Algebra.Order.Monoid.Unbundled.WithTop
import Mathlib.Data.Fin.Basic
import Mathlib.Data.List.Basic
import Mathlib.Order.WithBot
import Obicall.Core.Digest
import Obicall.Core.Wire

namespace Obicall

open Lib.Codec

-- ================================================================= state

/-- `OBICALL_MAX_PIPELINES`. -/
abbrev maxPipelines : Nat := 8

/-- `obicall_gate_pipeline_state_t`. -/
structure GatePipelineState where
  pipelineId : PipelineId
  hasCommitted : UInt32
  lastCommittedWindowSeq : UInt64
  lastCommittedDigest : DigestBytes
  deriving DecidableEq

/-- A slot after `memset(.., 0, ..)`. -/
def GatePipelineState.zero : GatePipelineState where
  pipelineId := Vector.replicate 32 0
  hasCommitted := 0
  lastCommittedWindowSeq := 0
  lastCommittedDigest := Vector.replicate 32 0

/-- `obicall_gate_state_t`. -/
structure GateState where
  structSize : UInt32
  schemaVersion : UInt32
  epoch : UInt64
  ownerBrokerId : UInt32
  pipelineCount : UInt32
  pipelines : Vector GatePipelineState maxPipelines
  deriving DecidableEq

/-- `sizeof(obicall_gate_state_t)`. -/
def sizeofGateState : UInt32 := 664

/-- A state after `memset(.., 0, ..)`. -/
def GateState.zero : GateState where
  structSize := 0
  schemaVersion := 0
  epoch := 0
  ownerBrokerId := 0
  pipelineCount := 0
  pipelines := Vector.replicate _ .zero

-- =============================================================== publish

/-- `obicall_gate_publish_outcome_t`. -/
inductive GatePublishOutcome where
  | commit | shadowRecorded | rejectNotOwner | rejectStaleEpoch
  | rejectDuplicateWindow | rejectExpired | rejectIncompatible
  | rejectNoCapacity
  deriving DecidableEq, Repr

/-- `compute_result_digest`: the raw bytes of status, counts and the
counted doubles, in this order. -/
def computeResultDigest {F : Type} [DoubleBits F] (r : Result F) :
    DigestBytes :=
  obicallSha256Final <|
    [u32Bytes r.status, u32Bytes r.payloadCount,
      f64sBytes r.payloadCount r.payload, u32Bytes r.covarianceCount,
      f64sBytes r.covarianceCount r.covariance].foldl
        obicallSha256Update obicallSha256Init

/-- The slot search at the head of `obicall_gate_decide_publish`: the
first slot in use with this pipeline id. -/
def GateState.findPipeline (s : GateState) (id : PipelineId) :
    Option (Fin maxPipelines) :=
  Fin.find? fun i =>
    decide (i.val < s.pipelineCount.toNat)
      && s.pipelines[i].pipelineId == id

/-- The slot for a pipeline: the one it has, or the next free one,
zeroed and named; `none` when all are taken. -/
def GateState.slotFor (s : GateState) (id : PipelineId) :
    Option (Fin maxPipelines × GateState) :=
  match s.findPipeline id with
  | some i => some (i, s)
  | none =>
      if h : s.pipelineCount.toNat < maxPipelines then
        some (⟨s.pipelineCount.toNat, h⟩,
          { s with
            pipelineCount := s.pipelineCount + 1
            pipelines := s.pipelines.set s.pipelineCount.toNat
              { GatePipelineState.zero with pipelineId := id } })
      else none

/-- The commit itself: mark the slot and raise its high-water. -/
def GateState.commit {F : Type} [DoubleBits F] (s : GateState)
    (pidx : Fin maxPipelines) (r : Result F) : GateState :=
  { s with
    pipelines := s.pipelines.set pidx
      { s.pipelines[pidx] with
        hasCommitted := 1
        lastCommittedWindowSeq := r.windowSeq
        lastCommittedDigest := computeResultDigest r } }

/-- `obicall_gate_decide_publish`: the outcome, the slot written to
`out_pipeline_index` if any, and the state left behind. -/
def obicallGateDecidePublish {F : Type} [DoubleBits F] (state : GateState)
    (result : Result F) (nowNs : Int64) :
    GatePublishOutcome × Option (Fin maxPipelines) × GateState :=
  if result.structSize ≠ sizeofResult
      || result.schemaVersion ≠ resultSchemaVersion then
    (.rejectIncompatible, none, state)
  else if result.validUntilNs ≤ nowNs then (.rejectExpired, none, state)
  else match state.slotFor result.pipelineId with
    | none => (.rejectNoCapacity, none, state)
    | some (pidx, state) =>
        let ps := state.pipelines[pidx]
        if state.ownerBrokerId = brokerNone then
          (.rejectNotOwner, some pidx, state)
        else if result.brokerId ≠ state.ownerBrokerId then
          -- a revoked owner's leftover, or a shadow's submission
          if result.epoch < state.epoch then
            (.rejectStaleEpoch, some pidx, state)
          else (.shadowRecorded, some pidx, state)
        else if result.epoch ≠ state.epoch then
          (.rejectStaleEpoch, some pidx, state)
        else if ps.hasCommitted ≠ 0
            && result.windowSeq ≤ ps.lastCommittedWindowSeq then
          (.rejectDuplicateWindow, some pidx, state)
        else (.commit, some pidx, state.commit pidx result)

-- ============================================================= promotion

/-- `obicall_gate_readiness_t`. -/
structure GateReadiness where
  healthy : UInt32
  configDigest : DigestBytes
  checkpointSchemaVersion : UInt32
  lastProcessedWindowSeq : UInt64
  deriving DecidableEq

/-- `obicall_gate_promotion_requirements_t`. -/
structure GatePromotionRequirements where
  requiredConfigDigest : DigestBytes
  requiredCheckpointSchemaVersion : UInt32
  maxAllowedReplayGap : UInt64

/-- `obicall_gate_shadow_promotable`; the sum wraps as in C. -/
def obicallGateShadowPromotable (r : GateReadiness)
    (req : GatePromotionRequirements) (committedHighWater : UInt64) : Bool :=
  if r.healthy = 0 then false
  else if r.configDigest ≠ req.requiredConfigDigest then false
  else if r.checkpointSchemaVersion
      ≠ req.requiredCheckpointSchemaVersion then false
  else if r.lastProcessedWindowSeq + req.maxAllowedReplayGap
      < committedHighWater then false
  else true

/-- `obicall_gate_promote`: revoke, next epoch, grant. It cannot fail on
the non-null pointers the gate passes; the new epoch is the state's. -/
def obicallGatePromote (s : GateState) (newOwnerBrokerId : UInt32) :
    GateState :=
  { s with epoch := s.epoch + 1, ownerBrokerId := newOwnerBrokerId }

-- ========================================================= durable state

def wcGatePipeline (p : GatePipelineState) : StateM WCursor Unit := do
  wcFixed p.pipelineId
  wcU32 p.hasCommitted
  wcU64 p.lastCommittedWindowSeq
  wcFixed p.lastCommittedDigest

/-- The stores of `obicall_gate_encode_state`. -/
def wcGateState (s : GateState) : StateM WCursor Unit := do
  wcU32 s.structSize
  wcU32 s.schemaVersion
  wcU64 s.epoch
  wcU32 s.ownerBrokerId
  wcU32 s.pipelineCount
  (s.pipelines.toList.take s.pipelineCount.toNat).forM wcGatePipeline

/-- `obicall_gate_encode_state`. -/
def obicallGateEncodeState (s : GateState) (outCap : Nat) :
    Except Status (List UInt8) :=
  if s.pipelineCount.toNat > maxPipelines then .error .errInvalidArgument
  else wcFinish outCap (wcGateState s)

def rcGatePipeline : StateM RCursor GatePipelineState := do
  let pipelineId ← rcBytes 32
  let hasCommitted ← rcU32
  let lastCommittedWindowSeq ← rcU64
  let lastCommittedDigest ← rcBytes 32
  return { pipelineId, hasCommitted, lastCommittedWindowSeq
           lastCommittedDigest }

/-- The loads of `obicall_gate_decode_state`. -/
def rcGateState : StateM RCursor (Status × GateState) := do
  let structSize ← rcU32
  let schemaVersion ← rcU32
  let epoch ← rcU64
  let ownerBrokerId ← rcU32
  let pipelineCount ← rcU32
  let ok ← rcOk
  if !ok || pipelineCount.toNat > maxPipelines then
    return (.errWireMalformed,
      { structSize, schemaVersion, epoch, ownerBrokerId, pipelineCount
        pipelines := GateState.zero.pipelines })
  else do
    let slots ← rcRepeat rcGatePipeline pipelineCount.toNat
    let ok ← rcOk
    return (if ok then .ok else .errWireMalformed,
      { structSize := sizeofGateState, schemaVersion, epoch, ownerBrokerId
        pipelineCount, pipelines := fillVector .zero slots })

/-- `obicall_gate_decode_state`. -/
def obicallGateDecodeState (inp : List UInt8) : Status × GateState :=
  (rcGateState (RCursor.start inp)).1

/-- `OBICALL_GATE_PERSIST_MAGIC`, "OBGT". -/
def gatePersistMagic : UInt32 := 0x4F424754

/-- `OBICALL_GATE_PERSIST_HEADER_LEN`. -/
def gatePersistHeaderLen : Nat := 16

/-- `OBICALL_GATE_PERSIST_MAX_PAYLOAD`. -/
def gatePersistMaxPayload : Nat := 8192

def wcGatePersistHeader (payloadLen crc : UInt32) : StateM WCursor Unit := do
  wcU32 gatePersistMagic
  wcU32 payloadLen
  wcU32 crc
  wcU32 0

/-- `obicall_gate_persist_state`: the file's bytes when every write and
the sync succeed. -/
def obicallGatePersistState (s : GateState) : Except Status (List UInt8) := do
  let payload ← obicallGateEncodeState s gatePersistMaxPayload
  let hdr ← (wcFinish gatePersistHeaderLen
    (wcGatePersistHeader (UInt32.ofNat payload.length)
      (obicallCrc32 payload))).mapError fun _ => .errInternal
  return hdr ++ payload

def rcGatePersistHeader : StateM RCursor (Bool × UInt32 × UInt32 × UInt32) := do
  let magic ← rcU32
  let payloadLen ← rcU32
  let crc ← rcU32
  let _ ← rcU32
  return (← rcOk, magic, payloadLen, crc)

/-- `obicall_gate_load_state`: the status, and what `*out` holds
afterwards. -/
def obicallGateLoadState (file : List UInt8) (out : GateState) :
    Status × GateState :=
  if file.length < gatePersistHeaderLen then (.errWireMalformed, out)
  else
    let (ok, magic, payloadLen, crc) :=
      (rcGatePersistHeader
        (RCursor.start (file.take gatePersistHeaderLen))).1
    if !ok || magic ≠ gatePersistMagic
        || payloadLen.toNat > gatePersistMaxPayload then
      (.errWireMalformed, out)
    else
      let payload :=
        (file.drop gatePersistHeaderLen).take payloadLen.toNat
      if payload.length ≠ payloadLen.toNat then (.errWireMalformed, out)
      else if obicallCrc32 payload ≠ crc then (.errWireChecksum, out)
      else obicallGateDecodeState payload

-- ======================================================= the slot search

/-- Slot `i` is in use and carries the id. -/
def GateState.Holds (s : GateState) (id : PipelineId)
    (i : Fin maxPipelines) : Prop :=
  i.val < s.pipelineCount.toNat ∧ s.pipelines[i].pipelineId = id

theorem findPipeline_eq_some {s : GateState} {id : PipelineId}
    {i : Fin maxPipelines} :
    s.findPipeline id = some i ↔ s.Holds id i ∧ ∀ j < i, ¬ s.Holds id j := by
  rw [GateState.findPipeline, Fin.find?_eq_some_iff]
  simp only [GateState.Holds, Bool.and_eq_true, decide_eq_true_eq,
    beq_iff_eq, Bool.eq_false_iff, ne_eq]

theorem findPipeline_eq_none {s : GateState} {id : PipelineId} :
    s.findPipeline id = none ↔ ∀ i, ¬ s.Holds id i := by
  rw [GateState.findPipeline, Fin.find?_eq_none_iff]
  simp only [GateState.Holds, Bool.eq_false_iff, ne_eq, Bool.and_eq_true,
    decide_eq_true_eq, beq_iff_eq]

/-- Two states whose slots hold the same ids find the same slot. -/
theorem findPipeline_congr {s s' : GateState} {id : PipelineId}
    (h : ∀ i, s.Holds id i ↔ s'.Holds id i) :
    s.findPipeline id = s'.findPipeline id := by
  cases hf : s'.findPipeline id with
  | none =>
      rw [findPipeline_eq_none] at hf ⊢
      exact fun i hi => hf i ((h i).mp hi)
  | some i =>
      rw [findPipeline_eq_some] at hf ⊢
      exact ⟨(h i).mpr hf.1, fun j hj hh => hf.2 j hj ((h j).mp hh)⟩

/-- A slot is found with its id in it. -/
theorem holds_of_findPipeline {s : GateState} {id : PipelineId}
    {i : Fin maxPipelines} (h : s.findPipeline id = some i) :
    s.Holds id i := (findPipeline_eq_some.mp h).1

-- ============================================================ high-water

/-- The highest window committed in a slot. -/
def GatePipelineState.high (p : GatePipelineState) : WithBot Nat :=
  if p.hasCommitted ≠ 0 then (p.lastCommittedWindowSeq.toNat : WithBot Nat)
  else ⊥

/-- The highest window committed for a pipeline id. -/
def GateState.high (s : GateState) (id : PipelineId) : WithBot Nat :=
  (s.findPipeline id).elim ⊥ fun i => s.pipelines[i].high

theorem high_of_found {s : GateState} {id : PipelineId}
    {i : Fin maxPipelines} (h : s.findPipeline id = some i) :
    s.high id = s.pipelines[i].high := by
  rw [GateState.high, h, Option.elim_some]

theorem high_of_not_found {s : GateState} {id : PipelineId}
    (h : s.findPipeline id = none) : s.high id = ⊥ := by
  rw [GateState.high, h, Option.elim_none]

/-- Two states that find the same slot, with the same contents, agree on
the high-water. -/
theorem high_eq_of_slot {s s' : GateState} {id : PipelineId}
    (hfind : s'.findPipeline id = s.findPipeline id)
    (hslot : ∀ i, s.Holds id i → s'.pipelines[i] = s.pipelines[i]) :
    s'.high id = s.high id := by
  cases hf : s.findPipeline id with
  | none => rw [high_of_not_found hf, high_of_not_found (hfind.trans hf)]
  | some i =>
      rw [high_of_found hf, high_of_found (hfind.trans hf),
        hslot i (holds_of_findPipeline hf)]

end Obicall
