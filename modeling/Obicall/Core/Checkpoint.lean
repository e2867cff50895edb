/-
The codecs of `wire.c` for checkpoints and events.

A checkpoint's covariance is a square array: both sides run the loop
`state_dim * state_dim` times, after `state_dim` was found in range. An
event's payload goes to a buffer that the caller provides, which may be
missing or too small; its old contents stay when the input is cut short.
-/
import Mathlib.Data.List.Basic
import Obicall.Core.Cursor

namespace Obicall

open Lib.Codec

variable {M : Type → Type} [Monad M] [ReadCursor M]

-- ============================================================ checkpoint

section Checkpoint

variable {F : Type} [DoubleBits F]

def wcSourcePosition (s : SourcePosition) : StateM WCursor Unit := do
  wcFixed s.sensorId
  wcU64 s.sourceBootId
  wcU64 s.lastSequence

/-- The stores of `obicall_wire_encode_checkpoint`. -/
def wcCheckpoint (k : Checkpoint F) : StateM WCursor Unit := do
  wcU32 k.structSize
  wcU32 k.schemaVersion
  wcFixed k.pipelineId
  wcU64 k.windowSeq
  wcU32 k.estimatorMode
  wcU32 k.stateDim
  wcF64s k.stateDim k.stateMean
  wcF64s (k.stateDim * k.stateDim) k.stateCovariance
  wcU32 k.calibrationVersion
  wcU32 k.policyVersion
  wcU32 k.dgtActionId
  wcU32 k.sourceCount
  (k.sources.toList.take k.sourceCount.toNat).forM wcSourcePosition
  wcI64 k.createdAtNs

/-- `obicall_wire_encode_checkpoint`. -/
def obicallWireEncodeCheckpoint (k : Checkpoint F) (outCap : Nat) :
    Except Status (List UInt8) :=
  if k.stateDim.toNat > maxStateDim
      || k.sourceCount.toNat > maxTrackedSources then
    .error .errWireMalformed
  else wcFinish outCap (wcCheckpoint k)

def rcSourcePosition : M SourcePosition := do
  let sensorId ← rcBytes 32
  let sourceBootId ← rcU64
  let lastSequence ← rcU64
  return { sensorId, sourceBootId, lastSequence }

/-- The loads of `obicall_wire_decode_checkpoint`. -/
def rcCheckpoint : M (Status × Checkpoint F) := do
  let structSize ← rcU32
  let schemaVersion ← rcU32
  let pipelineId ← rcBytes 32
  let windowSeq ← rcU64
  let estimatorMode ← rcU32
  let stateDim ← rcU32
  let zeros := Checkpoint.zero F
  rcGuard stateDim.toNat maxStateDim
    (.errWireMalformed,
      { zeros with
        structSize, schemaVersion, pipelineId, windowSeq, estimatorMode
        stateDim }) do
    let stateMean ← rcF64s stateDim
    let stateCovariance ← rcF64s (stateDim * stateDim)
    let calibrationVersion ← rcU32
    let policyVersion ← rcU32
    let dgtActionId ← rcU32
    let sourceCount ← rcU32
    -- the struct so far; the last loop fills the sources
    let out (structSize : UInt32)
        (sources : Vector SourcePosition maxTrackedSources)
        (createdAtNs : Int64) : Checkpoint F :=
      { structSize, schemaVersion, pipelineId, windowSeq, estimatorMode
        stateDim, stateMean, stateCovariance, calibrationVersion
        policyVersion, dgtActionId, sourceCount, sources, createdAtNs }
    rcGuard sourceCount.toNat maxTrackedSources
      (.errWireMalformed, out structSize zeros.sources 0) do
      let sources ← rcFill .zero
        (← rcRepeat rcSourcePosition sourceCount.toNat)
      let createdAtNs ← rcI64
      let ok ← rcOk
      return (if ok then .ok else .errWireMalformed,
        out sizeofCheckpoint sources createdAtNs)

/-- `obicall_wire_decode_checkpoint`. -/
def obicallWireDecodeCheckpoint (inp : List UInt8) :
    Status × Checkpoint F :=
  ((rcCheckpoint : StateM RCursor _) (RCursor.start inp)).1

/-- The counts a checkpoint may declare on the wire. -/
structure Checkpoint.Encodable (k : Checkpoint F) : Prop where
  dim : k.stateDim.toNat ≤ maxStateDim
  sources : k.sourceCount.toNat ≤ maxTrackedSources

/-- The bytes of a source position. -/
def SourcePosition.bytes (s : SourcePosition) : List UInt8 :=
  s.sensorId.toList ++ (u64Bytes s.sourceBootId ++ u64Bytes s.lastSequence)

/-- The bytes of a checkpoint. -/
def Checkpoint.bytes (k : Checkpoint F) : List UInt8 :=
  u32Bytes k.structSize ++ (u32Bytes k.schemaVersion ++
  (k.pipelineId.toList ++ (u64Bytes k.windowSeq ++
  (u32Bytes k.estimatorMode ++ (u32Bytes k.stateDim ++
  (f64sBytes k.stateDim k.stateMean ++
  (f64sBytes (k.stateDim * k.stateDim) k.stateCovariance ++
  (u32Bytes k.calibrationVersion ++ (u32Bytes k.policyVersion ++
  (u32Bytes k.dgtActionId ++ (u32Bytes k.sourceCount ++
  ((k.sources.toList.take k.sourceCount.toNat).flatMap
    SourcePosition.bytes ++
    u64Bytes k.createdAtNs.toUInt64))))))))))))

/-- What a decoder makes of an encoded checkpoint. -/
def Checkpoint.normalize (k : Checkpoint F) : Checkpoint F :=
  { k with
    structSize := sizeofCheckpoint
    stateMean := keepFirst (zeroDouble F) k.stateDim k.stateMean
    stateCovariance :=
      keepFirst (zeroDouble F) (k.stateDim * k.stateDim) k.stateCovariance
    sources := keepFirst .zero k.sourceCount k.sources }

/-- Within its range the dimension's square does not wrap. -/
theorem toNat_square {dim : UInt32} (h : dim.toNat ≤ maxStateDim) :
    (dim * dim).toNat = dim.toNat * dim.toNat := by
  have hle : dim.toNat * dim.toNat ≤ maxStateDim * maxStateDim :=
    Nat.mul_le_mul h h
  have hmax : maxStateDim * maxStateDim < 2 ^ 32 := by decide
  rw [UInt32.toNat_mul]
  exact Nat.mod_eq_of_lt (hle.trans_lt hmax)

theorem square_le {dim : UInt32} (h : dim.toNat ≤ maxStateDim) :
    (dim * dim).toNat ≤ maxStateDim * maxStateDim := by
  rw [toNat_square h]
  exact Nat.mul_le_mul h h

theorem SourcePosition.length_bytes (s : SourcePosition) :
    s.bytes.length = 48 := by
  simp [SourcePosition.bytes]

/-- The length of an encoded checkpoint, from its counts. -/
theorem Checkpoint.length_bytes (k : Checkpoint F) :
    k.bytes.length
      = 80 + 8 * min k.stateDim.toNat maxStateDim
        + 8 * min (k.stateDim * k.stateDim).toNat
            (maxStateDim * maxStateDim)
        + 48 * min k.sourceCount.toNat maxTrackedSources := by
  simp only [Checkpoint.bytes, List.length_append, length_u32Bytes,
    length_u64Bytes, length_f64sBytes, List.length_flatMap,
    SourcePosition.length_bytes, Vector.length_toList, List.map_const',
    List.sum_replicate_nat, List.length_take]
  omega

theorem writes_wcSourcePosition (s : SourcePosition) :
    Writes (wcSourcePosition s) s.bytes :=
  .bind (writes_wcFixed _) <| .bind (writes_wcU64 _) (writes_wcU64 _)

theorem reads_rcSourcePosition (s : SourcePosition) :
    ReadsBack rcSourcePosition s.bytes s :=
  .bind (reads_rcBytes _) <| .bind (reads_rcU64 _) <|
  .last (reads_rcU64 _) (Reads.pure _)

theorem takes_rcSourcePosition :
    TakesBack rcSourcePosition fun s bs => bs = s.bytes :=
  .bind (takes_rcBytes _) fun _ => .bind takes_rcU64 fun _ =>
  takes_rcU64.map fun _ _ h₃ _ h₂ _ h₁ => by
    rw [h₁, h₂, h₃]
    rfl

theorem writes_wcCheckpoint (k : Checkpoint F) :
    Writes (wcCheckpoint k) k.bytes :=
  .bind (writes_wcU32 _) <| .bind (writes_wcU32 _) <|
  .bind (writes_wcFixed _) <| .bind (writes_wcU64 _) <|
  .bind (writes_wcU32 _) <| .bind (writes_wcU32 _) <|
  .bind (writes_wcF64s _ _) <| .bind (writes_wcF64s _ _) <|
  .bind (writes_wcU32 _) <| .bind (writes_wcU32 _) <|
  .bind (writes_wcU32 _) <| .bind (writes_wcU32 _) <|
  .bind (Emits.forM writes_wcSourcePosition _) (writes_wcI64 _)

/-- The decoder reads the layout back, normalized. -/
theorem reads_rcCheckpoint {k : Checkpoint F} (h : k.Encodable) :
    ReadsBack rcCheckpoint k.bytes (.ok, k.normalize) := by
  refine .bind (reads_rcU32 _) <| .bind (reads_rcU32 _) <|
    .bind (reads_rcBytes _) <| .bind (reads_rcU64 _) <|
    .bind (reads_rcU32 _) <| .bind (reads_rcU32 _) <|
    ReadsBack.guard h.dim ?_
  refine .bind (reads_rcF64s _ _ h.dim) <|
    .bind (reads_rcF64s _ _ (square_le h.dim)) <|
    .bind (reads_rcU32 _) <| .bind (reads_rcU32 _) <|
    .bind (reads_rcU32 _) <| .bind (reads_rcU32 _) <|
    ReadsBack.guard h.sources ?_
  have hsources := reads_rcRepeat reads_rcSourcePosition
    (k.sources.toList.take k.sourceCount.toNat)
  rw [show (k.sources.toList.take k.sourceCount.toNat).length
      = k.sourceCount.toNat by simpa using h.sources] at hsources
  exact .bind hsources <| .skip (reads_rcFill _ _) <|
    .last (reads_rcI64 _) <| .test reads_rcOk (Reads.pure _)

/-- What the decoder accepts is the layout of the checkpoint it returns,
with the sender's own `struct_size` in front. -/
theorem parses_rcCheckpoint :
    Parses (rcCheckpoint (F := F)) fun k bs =>
      (k.Encodable ∧ k.normalize = k)
      ∧ ∃ size, bs
        = ({ k with structSize := size } : Checkpoint F).bytes := by
  refine .read takes_rcU32 fun size => .read takes_rcU32 fun _ =>
    .read (takes_rcBytes _) fun _ => .read takes_rcU64 fun _ =>
    .read takes_rcU32 fun _ => .read takes_rcU32 fun stateDim =>
    accepts_guard (by nofun) fun hdim => ?_
  refine .readP (takes_rcF64s hdim) fun mean =>
    .readP (takes_rcF64s (square_le hdim)) fun covariance =>
    .read takes_rcU32 fun _ => .read takes_rcU32 fun _ =>
    .read takes_rcU32 fun _ => .read takes_rcU32 fun sourceCount =>
    accepts_guard (by nofun) fun hsources => ?_
  refine .readP (takes_rcRepeat takes_rcSourcePosition _) fun positions =>
    .readP (takes_rcFill _ _) fun sources => .read takes_rcI64 fun _ =>
    accepts_verdict fun hfill hlen hkeep' hkeep => ?_
  have hle : positions.length ≤ maxTrackedSources := hlen ▸ hsources
  subst hfill
  refine ⟨⟨⟨hdim, hsources⟩, ?_⟩, size, ?_⟩
  · unfold Checkpoint.normalize
    dsimp only
    rw [hkeep, hkeep', keepFirst_fillVector _ _ hlen hle]
  · rw [Checkpoint.bytes]
    dsimp only
    rw [List.append_nil, ← hlen, take_fillVector _ hle]
    rfl

/-- Encoding succeeds exactly when the layout fits the buffer. -/
theorem obicallWireEncodeCheckpoint_eq {k : Checkpoint F}
    (h : k.Encodable) (outCap : Nat) :
    obicallWireEncodeCheckpoint k outCap
      = if k.bytes.length ≤ outCap then .ok k.bytes
        else .error .errBufferTooSmall := by
  have hd := h.dim
  have hs := h.sources
  have hcounts : ¬ (decide (k.stateDim.toNat > maxStateDim)
      || decide (k.sourceCount.toNat > maxTrackedSources)) = true := by
    simp only [Bool.or_eq_true, decide_eq_true_eq]
    omega
  rw [obicallWireEncodeCheckpoint, if_neg hcounts,
    wcFinish_eq (writes_wcCheckpoint k)]

end Checkpoint

-- ================================================================= event

/-- The stores of `obicall_wire_encode_event`. -/
def wcEvent (e : Event) : StateM WCursor Unit := do
  wcU32 e.structSize
  wcU32 e.schemaVersion
  wcU32 e.eventType
  wcU32 e.reserved
  wcI64 e.timestampNs
  wcU32 e.payload.len
  if e.payload.len > 0 then wcBytes e.payload.data

/-- `obicall_wire_encode_event`. -/
def obicallWireEncodeEvent (e : Event) (outCap : Nat) :
    Except Status (List UInt8) :=
  if e.payload.len.toNat > wireMaxPayload then .error .errWireTooLarge
  else wcFinish outCap (wcEvent e)

/-- The bytes of a vector as a view of them. -/
def Buffer.ofVector {len : UInt32} (v : Vector UInt8 len.toNat) : Buffer :=
  ⟨v.toList, by
    rw [Vector.length_toList]
    exact len.toNat_lt⟩

/-- The loads of `obicall_wire_decode_event` into the caller's
`payload_storage`, given by its contents; `none` for a null pointer. -/
def rcEvent (payloadStorage : Option (List UInt8)) : M (Status × Event) := do
  let structSize ← rcU32
  let schemaVersion ← rcU32
  let eventType ← rcU32
  let reserved ← rcU32
  let timestampNs ← rcI64
  let payloadLen ← rcU32
  let out (structSize : UInt32) (payload : Buffer) : Event :=
    { structSize, schemaVersion, eventType, reserved, timestampNs, payload }
  rcGuard payloadLen.toNat wireMaxPayload
    (.errWireMalformed, out structSize .empty) do
    if payloadLen > 0 then
      match payloadStorage with
      | none => return (.errBufferTooSmall, out structSize .empty)
      | some storage =>
          if storage.length < payloadLen.toNat then
            return (.errBufferTooSmall, out structSize .empty)
          else do
            let payload ← rcInto storage payloadLen.toNat
            let ok ← rcOk
            return (if ok then .ok else .errWireMalformed,
              out sizeofEvent (.ofVector payload))
    else do
      let ok ← rcOk
      return (if ok then .ok else .errWireMalformed, out sizeofEvent .empty)

/-- `obicall_wire_decode_event`. -/
def obicallWireDecodeEvent (inp : List UInt8)
    (payloadStorage : Option (List UInt8)) : Status × Event :=
  ((rcEvent payloadStorage : StateM RCursor _) (RCursor.start inp)).1

/-- The payload an event may carry. -/
structure Event.Encodable (e : Event) : Prop where
  payload : e.payload.data.length ≤ wireMaxPayload

/-- The caller's buffer holds the payload. -/
def Event.FitsStorage (e : Event) (payloadStorage : Option (List UInt8)) :
    Prop :=
  e.payload.data.length ≤ (payloadStorage.getD []).length

/-- The bytes of an event. -/
def Event.bytes (e : Event) : List UInt8 :=
  u32Bytes e.structSize ++ (u32Bytes e.schemaVersion ++
  (u32Bytes e.eventType ++ (u32Bytes e.reserved ++
  (u64Bytes e.timestampNs.toUInt64 ++ (u32Bytes e.payload.len ++
    e.payload.data)))))

/-- What a decoder makes of an encoded event. -/
def Event.normalize (e : Event) : Event :=
  { e with structSize := sizeofEvent }

theorem Buffer.toNat_len (b : Buffer) : b.len.toNat = b.data.length := by
  rw [Buffer.len, UInt32.toNat_ofNat', Nat.mod_eq_of_lt b.length_lt]

theorem Buffer.len_pos_iff (b : Buffer) : 0 < b.len ↔ b.data ≠ [] := by
  rw [UInt32.lt_iff_toNat_lt, b.toNat_len, ← List.length_pos_iff]
  rfl

theorem Buffer.eq_empty {b : Buffer} (h : ¬ 0 < b.len) : b = .empty := by
  have hnil : b.data = [] :=
    not_not.mp fun hne => h (b.len_pos_iff.mpr hne)
  cases b
  congr

/-- The bytes of a view. -/
def Buffer.toVector (b : Buffer) : Vector UInt8 b.len.toNat :=
  ⟨b.data.toArray, by rw [List.size_toArray, b.toNat_len]⟩

theorem Buffer.len_ofVector {len : UInt32} (v : Vector UInt8 len.toNat) :
    (Buffer.ofVector v).len = len := by
  rw [Buffer.len, Buffer.ofVector, Vector.length_toList, UInt32.ofNat_toNat]

theorem Event.length_bytes (e : Event) :
    e.bytes.length = 28 + e.payload.data.length := by
  simp only [Event.bytes, List.length_append, length_u32Bytes,
    length_u64Bytes]
  omega

theorem writes_wcEvent (e : Event) : Writes (wcEvent e) e.bytes := by
  refine .bind (writes_wcU32 _) <| .bind (writes_wcU32 _) <|
    .bind (writes_wcU32 _) <| .bind (writes_wcU32 _) <|
    .bind (writes_wcI64 _) <| .bind (writes_wcU32 _) ?_
  by_cases hpos : e.payload.len > 0
  · rw [if_pos hpos]
    exact writes_wcBytes _
  · rw [if_neg hpos, Buffer.eq_empty hpos]
    exact .nil

/-- The decoder reads the layout back, given room for the payload. -/
theorem reads_rcEvent {e : Event} (h : e.Encodable)
    {payloadStorage : Option (List UInt8)}
    (hfits : e.FitsStorage payloadStorage) :
    ReadsBack (rcEvent payloadStorage) e.bytes (.ok, e.normalize) := by
  refine .bind (reads_rcU32 _) <| .bind (reads_rcU32 _) <|
    .bind (reads_rcU32 _) <| .bind (reads_rcU32 _) <|
    .bind (reads_rcI64 _) <| .bind (reads_rcU32 _) <|
    ReadsBack.guard (by rw [e.payload.toNat_len]; exact h.payload) ?_
  by_cases hpos : e.payload.len > 0
  · rw [if_pos hpos]
    cases payloadStorage with
    | none =>
        have hlen : e.payload.data.length = 0 := Nat.le_zero.mp hfits
        have hnil := List.length_eq_zero_iff.mp hlen
        exact absurd hnil (e.payload.len_pos_iff.mp hpos)
    | some storage =>
        have hroom : ¬ storage.length < e.payload.len.toNat := by
          rw [e.payload.toNat_len]
          exact Nat.not_lt.mpr hfits
        dsimp only
        rw [if_neg hroom]
        exact .last (reads_rcInto storage e.payload.toVector)
          (.test reads_rcOk (Reads.pure _))
  · rw [if_neg hpos, Event.normalize, Buffer.eq_empty hpos]
    exact .test reads_rcOk (Reads.pure _)

/-- What the decoder accepts is the layout of the event it returns, with
the sender's own `struct_size` in front, and fits the caller's buffer. -/
theorem parses_rcEvent (payloadStorage : Option (List UInt8)) :
    Parses (rcEvent payloadStorage) fun e bs =>
      (e.Encodable ∧ e.normalize = e ∧ e.FitsStorage payloadStorage)
      ∧ ∃ size, bs = ({ e with structSize := size } : Event).bytes := by
  refine .read takes_rcU32 fun size => .read takes_rcU32 fun _ =>
    .read takes_rcU32 fun _ => .read takes_rcU32 fun _ =>
    .read takes_rcI64 fun _ => .read takes_rcU32 fun payloadLen =>
    accepts_guard (by nofun) fun hlen => ?_
  split
  next hpos =>
    cases payloadStorage with
    | none => exact .reject (by nofun)
    | some storage =>
        dsimp only
        split
        · exact .reject (by nofun)
        next hroom =>
          refine .read (takes_rcInto storage _) fun payload =>
            accepts_verdict ⟨⟨⟨?_⟩, rfl, ?_⟩, size, ?_⟩
          · exact payload.length_toList.trans_le hlen
          · exact payload.length_toList.trans_le (Nat.le_of_not_lt hroom)
          · rw [Event.bytes, Buffer.len_ofVector, List.append_nil]
            rfl
  next hpos =>
    have hzero : payloadLen = 0 := by
      rw [← UInt32.toNat_inj]
      have hle := UInt32.not_lt.mp hpos
      exact Nat.le_zero.mp (UInt32.le_iff_toNat_le.mp hle)
    subst hzero
    refine accepts_verdict ⟨⟨⟨Nat.zero_le _⟩, rfl, Nat.zero_le _⟩, size, ?_⟩
    rfl

/-- Encoding succeeds exactly when the layout fits the buffer. -/
theorem obicallWireEncodeEvent_eq {e : Event} (h : e.Encodable)
    (outCap : Nat) :
    obicallWireEncodeEvent e outCap
      = if e.bytes.length ≤ outCap then .ok e.bytes
        else .error .errBufferTooSmall := by
  have hlen : ¬ e.payload.len.toNat > wireMaxPayload := by
    rw [e.payload.toNat_len]
    exact Nat.not_lt.mpr h.payload
  rw [obicallWireEncodeEvent, if_neg hlen, wcFinish_eq (writes_wcEvent e)]

-- from here on a decoder is known by its theorems only
attribute [irreducible] obicallWireDecodeCheckpoint obicallWireDecodeEvent

end Obicall
