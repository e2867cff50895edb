/-
The gate's state file round trip: loading what a persist wrote gives the
persisted state back, up to the two things the format does not carry
(the writer's `sizeof`, and the slots past `pipelineCount`).
-/
import Mathlib.Data.List.Basic
import Obicall.Core.Gate

namespace Obicall

open Lib.Codec

/-- The bytes of one slot. -/
def GatePipelineState.bytes (p : GatePipelineState) : List UInt8 :=
  p.pipelineId.toList ++ (u32Bytes p.hasCommitted ++
    (u64Bytes p.lastCommittedWindowSeq ++ p.lastCommittedDigest.toList))

/-- The bytes of a gate state. -/
def GateState.bytes (s : GateState) : List UInt8 :=
  u32Bytes s.structSize ++ (u32Bytes s.schemaVersion ++
  (u64Bytes s.epoch ++ (u32Bytes s.ownerBrokerId ++
  (u32Bytes s.pipelineCount ++
    (s.pipelines.toList.take s.pipelineCount.toNat).flatMap
      GatePipelineState.bytes))))

/-- What loading makes of a persisted state. -/
def GateState.normalize (s : GateState) : GateState :=
  { s with
    structSize := sizeofGateState
    pipelines := keepFirst .zero s.pipelineCount s.pipelines }

/-- The header in front of the payload. -/
def gatePersistHeader (payload : List UInt8) : List UInt8 :=
  u32Bytes gatePersistMagic ++ (u32Bytes (UInt32.ofNat payload.length) ++
    (u32Bytes (obicallCrc32 payload) ++ u32Bytes 0))

theorem writes_wcGatePipeline (p : GatePipelineState) :
    Writes (wcGatePipeline p) p.bytes :=
  .bind (writes_wcFixed _) <| .bind (writes_wcU32 _) <|
  .bind (writes_wcU64 _) (writes_wcFixed _)

theorem writes_wcGateState (s : GateState) :
    Writes (wcGateState s) s.bytes :=
  .bind (writes_wcU32 _) <| .bind (writes_wcU32 _) <|
  .bind (writes_wcU64 _) <| .bind (writes_wcU32 _) <|
  .bind (writes_wcU32 _) (Emits.forM writes_wcGatePipeline _)

theorem reads_rcGatePipeline (p : GatePipelineState) :
    ReadsBack rcGatePipeline p.bytes p :=
  .bind (reads_rcBytes _) <| .bind (reads_rcU32 _) <|
  .bind (reads_rcU64 _) <| .last (reads_rcBytes _) (Reads.pure _)

theorem reads_rcGateState {s : GateState}
    (h : s.pipelineCount.toNat ≤ maxPipelines) :
    ReadsBack rcGateState s.bytes (.ok, s.normalize) := by
  refine .bind (reads_rcU32 _) <| .bind (reads_rcU32 _) <|
    .bind (reads_rcU64 _) <| .bind (reads_rcU32 _) <|
    .bind (reads_rcU32 _) <| .test reads_rcOk ?_
  rw [if_neg (by simpa using h)]
  have hslots := reads_rcRepeat reads_rcGatePipeline
    (s.pipelines.toList.take s.pipelineCount.toNat)
  rw [show (s.pipelines.toList.take s.pipelineCount.toNat).length
      = s.pipelineCount.toNat by simpa using h] at hslots
  exact .last hslots <| .test reads_rcOk (Reads.pure _)

theorem length_gatePipelineState_bytes (p : GatePipelineState) :
    p.bytes.length = 76 := by
  simp [GatePipelineState.bytes]

/-- The length of an encoded state, from its slot count. -/
theorem GateState.length_bytes (s : GateState) :
    s.bytes.length = 24 + 76 * min s.pipelineCount.toNat maxPipelines := by
  simp only [GateState.bytes, List.length_append, length_u32Bytes,
    length_u64Bytes, List.length_flatMap, length_gatePipelineState_bytes,
    List.map_const', List.sum_replicate_nat, List.length_take,
    Vector.length_toList]
  omega

/-- Every state takes at most 632 bytes. -/
theorem GateState.length_bytes_le (s : GateState) : s.bytes.length ≤ 632 := by
  rw [s.length_bytes, maxPipelines]
  omega

/-- Persisting succeeds exactly on a state whose slot count is in range,
and writes the header and the state's bytes. -/
theorem obicallGatePersistState_eq (s : GateState) :
    obicallGatePersistState s
      = if s.pipelineCount.toNat > maxPipelines then .error .errInvalidArgument
        else .ok (gatePersistHeader s.bytes ++ s.bytes) := by
  by_cases hbig : s.pipelineCount.toNat > maxPipelines
  · simp only [obicallGatePersistState, obicallGateEncodeState, hbig, if_true]
    rfl
  · have hlen : s.bytes.length ≤ gatePersistMaxPayload :=
      Nat.le_trans s.length_bytes_le (by decide)
    have hhdr : ∀ n crc, Writes (wcGatePersistHeader n crc)
        (u32Bytes gatePersistMagic ++ (u32Bytes n ++
          (u32Bytes crc ++ u32Bytes 0))) := fun n crc =>
      .bind (writes_wcU32 _) <| .bind (writes_wcU32 _) <|
      .bind (writes_wcU32 _) (writes_wcU32 _)
    simp only [obicallGatePersistState, obicallGateEncodeState, hbig,
      if_false, wcFinish_eq (writes_wcGateState s), hlen, if_true]
    simp only [wcFinish_eq (hhdr _ _), bind, Except.bind]
    rw [if_pos (by simp [gatePersistHeaderLen])]
    rfl

/-- A file that a persist wrote loads, and gives the state back. -/
theorem obicallGateLoadState_persist {s : GateState} {file : List UInt8}
    (h : obicallGatePersistState s = .ok file) (out : GateState) :
    obicallGateLoadState file out = (.ok, s.normalize) := by
  rw [obicallGatePersistState_eq] at h
  split at h
  · cases h
  next hcount =>
    injection h with hfile
    have hle := s.length_bytes_le
    have hnum : (UInt32.ofNat s.bytes.length).toNat = s.bytes.length := by
      rw [UInt32.toNat_ofNat']
      omega
    have hhdrlen : (gatePersistHeader s.bytes).length
        = gatePersistHeaderLen := by
      simp [gatePersistHeader, gatePersistHeaderLen]
    have htake : file.take gatePersistHeaderLen
        = gatePersistHeader s.bytes := by
      rw [← hfile, ← hhdrlen, List.take_left]
    have hdrop : file.drop gatePersistHeaderLen = s.bytes := by
      rw [← hfile, ← hhdrlen, List.drop_left]
    have hread : ReadsBack rcGatePersistHeader (gatePersistHeader s.bytes)
        (true, gatePersistMagic, UInt32.ofNat s.bytes.length,
          obicallCrc32 s.bytes) :=
      .bind (reads_rcU32 _) <| .bind (reads_rcU32 _) <|
      .bind (reads_rcU32 _) <| .last (reads_rcU32 _) <|
      .test reads_rcOk (Reads.pure _)
    have hlong : ¬ file.length < gatePersistHeaderLen := by
      rw [← hfile, List.length_append, hhdrlen]
      omega
    have hmax : ¬ s.bytes.length > gatePersistMaxPayload := by
      simp only [gatePersistMaxPayload]
      omega
    simp only [obicallGateLoadState, hlong, if_false, htake, hread.run,
      hdrop, hnum, List.take_length, ne_eq, not_true_eq_false]
    simp only [Bool.not_true, decide_false, Bool.or_self, hmax,
      Bool.false_eq_true, if_false]
    exact (reads_rcGateState (by omega)).run

end Obicall
