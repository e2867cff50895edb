/-
The codecs of `wire.c` for observations and results.

An encoder returns the bytes it wrote; a decoder returns its status
together with the struct it filled, because the C decoders write through
an out pointer as they go and leave a partly filled struct behind on a
malformed input.

# Round trips

Each codec is given its byte layout as a definition (`Observation.bytes`
and so on). One theorem says the encoder writes exactly the layout, one
that the decoder reads it back, one that it accepts nothing else in
front of its input; what a round trip changes is the `normalize` of the
struct: the receiver's own `sizeof` in `structSize`, and zeros in the
array entries past the counts, which are not shipped.
-/
import Mathlib.Data.List.Basic
import Obicall.Core.Cursor

namespace Obicall

open Lib.Codec

variable {M : Type → Type} [Monad M] [ReadCursor M]

-- ========================================================== observations

section Observation

variable {F : Type} [DoubleBits F]

/-- The stores of `obicall_wire_encode_observation`. -/
def wcObservation (obs : Observation F) : StateM WCursor Unit := do
  wcU32 obs.structSize
  wcU32 obs.schemaVersion
  wcFixed obs.sensorId
  wcU64 obs.sourceBootId
  wcU64 obs.sequence
  wcI64 obs.sampleTimeNs
  wcI64 obs.arrivalTimeNs
  wcU32 obs.clockDomain
  wcF64 obs.timeUncertaintyS
  wcU32 obs.coordinateFrame
  wcU32 obs.units
  wcU32 obs.calibrationVersion
  wcU32 obs.payloadShape
  wcU32 obs.payloadCount
  wcF64s obs.payloadCount obs.payload
  wcU32 obs.covarianceCount
  wcF64s obs.covarianceCount obs.covariance

/-- `obicall_wire_encode_observation` into a buffer of `outCap` bytes. -/
def obicallWireEncodeObservation (obs : Observation F) (outCap : Nat) :
    Except Status (List UInt8) :=
  if obs.payloadCount.toNat > maxPayloadDoubles
      || obs.covarianceCount.toNat > maxCovDoubles then
    .error .errWireMalformed
  else wcFinish outCap (wcObservation obs)

/-- The loads of `obicall_wire_decode_observation`. -/
def rcObservation : M (Status × Observation F) := do
  let structSize ← rcU32
  let schemaVersion ← rcU32
  let sensorId ← rcBytes 32
  let sourceBootId ← rcU64
  let sequence ← rcU64
  let sampleTimeNs ← rcI64
  let arrivalTimeNs ← rcI64
  let clockDomain ← rcU32
  let timeUncertaintyS ← rcF64
  let coordinateFrame ← rcU32
  let units ← rcU32
  let calibrationVersion ← rcU32
  let payloadShape ← rcU32
  let payloadCount ← rcU32
  -- the struct so far, over the zeros of the initial memset
  let out (structSize : UInt32) (payload : Vector F maxPayloadDoubles)
      (covarianceCount : UInt32) (covariance : Vector F maxCovDoubles) :
      Observation F :=
    { structSize, schemaVersion, sensorId, sourceBootId, sequence
      sampleTimeNs, arrivalTimeNs, clockDomain, timeUncertaintyS
      coordinateFrame, units, calibrationVersion, payloadShape
      payloadCount, payload, covarianceCount, covariance }
  let zeros := Observation.zero F
  let ok ← rcOk
  if !ok || payloadCount.toNat > maxPayloadDoubles then
    return (.errWireMalformed, out structSize zeros.payload 0 zeros.covariance)
  else do
    let payload ← rcF64s payloadCount
    let covarianceCount ← rcU32
    let ok ← rcOk
    if !ok || covarianceCount.toNat > maxCovDoubles then
      return (.errWireMalformed,
        out structSize payload covarianceCount zeros.covariance)
    else do
      let covariance ← rcF64s covarianceCount
      let ok ← rcOk
      -- the decoded struct has this compiler's layout
      return (if ok then .ok else .errWireMalformed,
        out sizeofObservation payload covarianceCount covariance)

/-- `obicall_wire_decode_observation`. -/
def obicallWireDecodeObservation (inp : List UInt8) :
    Status × Observation F :=
  ((rcObservation : StateM RCursor _) (RCursor.start inp)).1

/-- The counts an observation may declare on the wire. -/
structure Observation.Encodable (obs : Observation F) : Prop where
  payload : obs.payloadCount.toNat ≤ maxPayloadDoubles
  covariance : obs.covarianceCount.toNat ≤ maxCovDoubles

instance (obs : Observation F) : Decidable obs.Encodable :=
  decidable_of_iff (obs.payloadCount.toNat ≤ maxPayloadDoubles
      ∧ obs.covarianceCount.toNat ≤ maxCovDoubles)
    ⟨fun h => ⟨h.1, h.2⟩, fun h => ⟨h.payload, h.covariance⟩⟩

/-- The bytes of an observation. -/
def Observation.bytes (obs : Observation F) : List UInt8 :=
  u32Bytes obs.structSize ++ (u32Bytes obs.schemaVersion ++
  (obs.sensorId.toList ++ (u64Bytes obs.sourceBootId ++
  (u64Bytes obs.sequence ++ (u64Bytes obs.sampleTimeNs.toUInt64 ++
  (u64Bytes obs.arrivalTimeNs.toUInt64 ++ (u32Bytes obs.clockDomain ++
  (u64Bytes (DoubleBits.toBits obs.timeUncertaintyS) ++
  (u32Bytes obs.coordinateFrame ++ (u32Bytes obs.units ++
  (u32Bytes obs.calibrationVersion ++ (u32Bytes obs.payloadShape ++
  (u32Bytes obs.payloadCount ++ (f64sBytes obs.payloadCount obs.payload ++
  (u32Bytes obs.covarianceCount ++
    f64sBytes obs.covarianceCount obs.covariance)))))))))))))))

/-- What a decoder makes of an encoded observation. -/
def Observation.normalize (obs : Observation F) : Observation F :=
  { obs with
    structSize := sizeofObservation
    payload := keepFirst (zeroDouble F) obs.payloadCount obs.payload
    covariance :=
      keepFirst (zeroDouble F) obs.covarianceCount obs.covariance }

theorem writes_wcObservation (obs : Observation F) :
    Writes (wcObservation obs) obs.bytes :=
  .bind (writes_wcU32 _) <| .bind (writes_wcU32 _) <|
  .bind (writes_wcFixed _) <| .bind (writes_wcU64 _) <|
  .bind (writes_wcU64 _) <| .bind (writes_wcI64 _) <|
  .bind (writes_wcI64 _) <| .bind (writes_wcU32 _) <|
  .bind (writes_wcF64 _) <| .bind (writes_wcU32 _) <|
  .bind (writes_wcU32 _) <| .bind (writes_wcU32 _) <|
  .bind (writes_wcU32 _) <| .bind (writes_wcU32 _) <|
  .bind (writes_wcF64s _ _) <| .bind (writes_wcU32 _) (writes_wcF64s _ _)

/-- The decoder reads the layout back, normalized. The two range checks
pass because the counts are the encoder's. -/
theorem reads_rcObservation {obs : Observation F} (h : obs.Encodable) :
    ReadsBack rcObservation obs.bytes (.ok, obs.normalize) := by
  refine .bind (reads_rcU32 _) <| .bind (reads_rcU32 _) <|
    .bind (reads_rcBytes _) <| .bind (reads_rcU64 _) <|
    .bind (reads_rcU64 _) <| .bind (reads_rcI64 _) <|
    .bind (reads_rcI64 _) <| .bind (reads_rcU32 _) <|
    .bind (reads_rcF64 _) <| .bind (reads_rcU32 _) <|
    .bind (reads_rcU32 _) <| .bind (reads_rcU32 _) <|
    .bind (reads_rcU32 _) <| .bind (reads_rcU32 _) <|
    .test reads_rcOk ?_
  rw [if_neg (by simpa using h.payload)]
  refine .bind (reads_rcF64s _ _ h.payload) <| .bind (reads_rcU32 _) <|
    .test reads_rcOk ?_
  rw [if_neg (by simpa using h.covariance)]
  exact .last (reads_rcF64s _ _ h.covariance) <|
    .test reads_rcOk (Reads.pure _)

/-- Encoding succeeds exactly when the layout fits the buffer. -/
theorem obicallWireEncodeObservation_eq {obs : Observation F}
    (h : obs.Encodable) (outCap : Nat) :
    obicallWireEncodeObservation obs outCap
      = if obs.bytes.length ≤ outCap then .ok obs.bytes
        else .error .errBufferTooSmall := by
  have hp := h.payload
  have hc := h.covariance
  have hcounts : ¬ (decide (obs.payloadCount.toNat > maxPayloadDoubles)
      || decide (obs.covarianceCount.toNat > maxCovDoubles)) = true := by
    simp only [Bool.or_eq_true, decide_eq_true_eq]
    omega
  rw [obicallWireEncodeObservation, if_neg hcounts,
    wcFinish_eq (writes_wcObservation obs)]

/-- Nothing else is encoded. -/
theorem obicallWireEncodeObservation_of_not_encodable
    {obs : Observation F} (h : ¬ obs.Encodable) (outCap : Nat) :
    obicallWireEncodeObservation obs outCap = .error .errWireMalformed := by
  unfold obicallWireEncodeObservation
  rw [if_pos]
  by_contra hcounts
  simp only [Bool.or_eq_true, decide_eq_true_eq, not_or, not_lt] at hcounts
  exact h ⟨hcounts.1, hcounts.2⟩

/-- What was encoded is the layout of an encodable observation. -/
theorem encodable_of_encode_ok {obs : Observation F} {outCap : Nat}
    {bs : List UInt8} (h : obicallWireEncodeObservation obs outCap = .ok bs) :
    obs.Encodable ∧ bs = obs.bytes := by
  have henc : obs.Encodable := by
    by_contra hno
    rw [obicallWireEncodeObservation_of_not_encodable hno] at h
    cases h
  rw [obicallWireEncodeObservation_eq henc] at h
  split at h
  · exact ⟨henc, (Except.ok.inj h).symm⟩
  · cases h

/-- The length of an encoded observation, from its counts. -/
theorem Observation.length_bytes (obs : Observation F) :
    obs.bytes.length
      = 108 + 8 * min obs.payloadCount.toNat maxPayloadDoubles
        + 8 * min obs.covarianceCount.toNat maxCovDoubles := by
  simp only [Observation.bytes, List.length_append, length_u32Bytes,
    length_u64Bytes, length_f64sBytes, Vector.length_toList]
  omega

/-- The longest encoded observation has 444 bytes. -/
theorem Observation.length_bytes_le (obs : Observation F) :
    obs.bytes.length ≤ 444 := by
  rw [obs.length_bytes, maxPayloadDoubles, maxCovDoubles]
  omega

/-- What is encoded is what is decoded. -/
theorem obicallWireDecodeObservation_bytes {obs : Observation F}
    (h : obs.Encodable) :
    obicallWireDecodeObservation obs.bytes = (.ok, obs.normalize) :=
  (reads_rcObservation h).run

/-- What a decoder leaves behind when it succeeds: counts in range, its
own layout, and nothing past the counts. -/
structure Observation.Canonical (obs : Observation F) : Prop where
  encodable : obs.Encodable
  normal : obs.normalize = obs

theorem yields_rcObservation :
    Yields (rcObservation : StateM RCursor (Status × Observation F))
      fun r => r.1 = .ok → r.2.Canonical := by
  refine .skip fun _ => .skip fun _ => .skip fun _ => .skip fun _ =>
    .skip fun _ => .skip fun _ => .skip fun _ => .skip fun _ =>
    .skip fun _ => .skip fun _ => .skip fun _ => .skip fun _ =>
    .skip fun _ => .skip fun payloadCount => .skip fun _ => ?_
  split
  · exact .pure fun hbad => (nomatch hbad)
  next hpayload =>
    refine .bind (yields_rcF64s payloadCount) fun payload hkeep =>
      .skip fun covarianceCount => .skip fun _ => ?_
    split
    · exact .pure fun hbad => (nomatch hbad)
    next hcovariance =>
      refine .bind (yields_rcF64s covarianceCount) fun covariance hkeep' =>
        .skip fun _ => .pure fun _ => ?_
      simp only [Bool.or_eq_true, decide_eq_true_eq, not_or, not_lt]
        at hpayload hcovariance
      refine ⟨⟨hpayload.2, hcovariance.2⟩, ?_⟩
      unfold Observation.normalize
      dsimp only
      rw [hkeep, hkeep']

/-- What the decoder accepts is the layout of the observation it returns,
with the sender's own `struct_size` in front. -/
theorem parses_rcObservation :
    Parses (rcObservation (F := F)) fun obs bs => obs.Canonical
      ∧ ∃ size, bs
        = ({ obs with structSize := size } : Observation F).bytes := by
  refine .read takes_rcU32 fun size => .read takes_rcU32 fun _ =>
    .read (takes_rcBytes _) fun _ => .read takes_rcU64 fun _ =>
    .read takes_rcU64 fun _ => .read takes_rcI64 fun _ =>
    .read takes_rcI64 fun _ => .read takes_rcU32 fun _ =>
    .read takes_rcF64 fun _ => .read takes_rcU32 fun _ =>
    .read takes_rcU32 fun _ => .read takes_rcU32 fun _ =>
    .read takes_rcU32 fun _ => .read takes_rcU32 fun payloadCount =>
    accepts_guard (by nofun) fun hpayload => ?_
  refine .readP (takes_rcF64s hpayload) fun payload =>
    .read takes_rcU32 fun covarianceCount =>
    accepts_guard (by nofun) fun hcovariance => ?_
  refine .readP (takes_rcF64s hcovariance) fun covariance =>
    accepts_verdict fun hkeep' hkeep => ⟨⟨⟨hpayload, hcovariance⟩, ?_⟩, size, ?_⟩
  · unfold Observation.normalize
    dsimp only
    rw [hkeep, hkeep']
  · rw [List.append_nil]
    rfl

/-- An observation that was decoded survives the wire unchanged. -/
theorem canonical_of_decode_ok {inp : List UInt8} {obs : Observation F}
    (h : obicallWireDecodeObservation inp = (.ok, obs)) :
    obs.Canonical := by
  have hr := yields_rcObservation (F := F) (RCursor.start inp)
  have hrun : ((rcObservation : StateM RCursor _) (RCursor.start inp)).1
      = (.ok, obs) := h
  rw [hrun] at hr
  exact hr rfl

end Observation

-- =============================================================== results

section Result

variable {F : Type} [DoubleBits F]

/-- The stores of `obicall_wire_encode_result`. -/
def wcResult (r : Result F) : StateM WCursor Unit := do
  wcU32 r.structSize
  wcU32 r.schemaVersion
  wcFixed r.pipelineId
  wcU64 r.windowSeq
  wcU32 r.brokerId
  wcU64 r.epoch
  wcU32 r.status
  wcU32 r.payloadShape
  wcU32 r.payloadCount
  wcF64s r.payloadCount r.payload
  wcU32 r.covarianceCount
  wcF64s r.covarianceCount r.covariance
  wcFixed r.inputDigest
  wcFixed r.configDigest
  wcI64 r.timestampNs
  wcI64 r.validUntilNs
  wcU32 r.sourceCount
  (r.sources.toList.take r.sourceCount.toNat).forM wcFixed
  wcU32 r.dgtActionId

/-- `obicall_wire_encode_result`. -/
def obicallWireEncodeResult (r : Result F) (outCap : Nat) :
    Except Status (List UInt8) :=
  if r.payloadCount.toNat > maxPayloadDoubles
      || r.covarianceCount.toNat > maxCovDoubles
      || r.sourceCount.toNat > maxSources then
    .error .errWireMalformed
  else wcFinish outCap (wcResult r)

/-- The loads of `obicall_wire_decode_result`. -/
def rcResult : M (Status × Result F) := do
  let structSize ← rcU32
  let schemaVersion ← rcU32
  let pipelineId ← rcBytes 32
  let windowSeq ← rcU64
  let brokerId ← rcU32
  let epoch ← rcU64
  let status ← rcU32
  let payloadShape ← rcU32
  let payloadCount ← rcU32
  let zeros := Result.zero F
  let ok ← rcOk
  if !ok || payloadCount.toNat > maxPayloadDoubles then
    return (.errWireMalformed,
      { zeros with
        structSize, schemaVersion, pipelineId, windowSeq, brokerId, epoch
        status, payloadShape, payloadCount })
  else do
    let payload ← rcF64s payloadCount
    let covarianceCount ← rcU32
    let ok ← rcOk
    if !ok || covarianceCount.toNat > maxCovDoubles then
      return (.errWireMalformed,
        { zeros with
          structSize, schemaVersion, pipelineId, windowSeq, brokerId, epoch
          status, payloadShape, payloadCount, payload, covarianceCount })
    else do
      let covariance ← rcF64s covarianceCount
      let inputDigest ← rcBytes 32
      let configDigest ← rcBytes 32
      let timestampNs ← rcI64
      let validUntilNs ← rcI64
      let sourceCount ← rcU32
      -- the struct so far; the last loop fills the sources
      let out (structSize : UInt32) (sources : Vector SensorId maxSources)
          (dgtActionId : UInt32) : Result F :=
        { structSize, schemaVersion, pipelineId, windowSeq, brokerId, epoch
          status, payloadShape, payloadCount, payload, covarianceCount
          covariance, inputDigest, configDigest, timestampNs, validUntilNs
          sourceCount, sources, dgtActionId }
      let ok ← rcOk
      if !ok || sourceCount.toNat > maxSources then
        return (.errWireMalformed, out structSize zeros.sources 0)
      else do
        let sources ← rcFill (Vector.replicate 32 0)
          (← rcRepeat (rcBytes 32) sourceCount.toNat)
        let dgtActionId ← rcU32
        let ok ← rcOk
        return (if ok then .ok else .errWireMalformed,
          out sizeofResult sources dgtActionId)

/-- `obicall_wire_decode_result`. -/
def obicallWireDecodeResult (inp : List UInt8) : Status × Result F :=
  ((rcResult : StateM RCursor _) (RCursor.start inp)).1

/-- The counts a result may declare on the wire. -/
structure Result.Encodable (r : Result F) : Prop where
  payload : r.payloadCount.toNat ≤ maxPayloadDoubles
  covariance : r.covarianceCount.toNat ≤ maxCovDoubles
  sources : r.sourceCount.toNat ≤ maxSources

/-- The bytes of a result. -/
def Result.bytes (r : Result F) : List UInt8 :=
  u32Bytes r.structSize ++ (u32Bytes r.schemaVersion ++
  (r.pipelineId.toList ++ (u64Bytes r.windowSeq ++
  (u32Bytes r.brokerId ++ (u64Bytes r.epoch ++ (u32Bytes r.status ++
  (u32Bytes r.payloadShape ++ (u32Bytes r.payloadCount ++
  (f64sBytes r.payloadCount r.payload ++ (u32Bytes r.covarianceCount ++
  (f64sBytes r.covarianceCount r.covariance ++ (r.inputDigest.toList ++
  (r.configDigest.toList ++ (u64Bytes r.timestampNs.toUInt64 ++
  (u64Bytes r.validUntilNs.toUInt64 ++ (u32Bytes r.sourceCount ++
  ((r.sources.toList.take r.sourceCount.toNat).flatMap Vector.toList ++
    u32Bytes r.dgtActionId)))))))))))))))))

/-- What a decoder makes of an encoded result. -/
def Result.normalize (r : Result F) : Result F :=
  { r with
    structSize := sizeofResult
    payload := keepFirst (zeroDouble F) r.payloadCount r.payload
    covariance := keepFirst (zeroDouble F) r.covarianceCount r.covariance
    sources := keepFirst (Vector.replicate 32 0) r.sourceCount r.sources }

theorem writes_wcResult (r : Result F) : Writes (wcResult r) r.bytes :=
  .bind (writes_wcU32 _) <| .bind (writes_wcU32 _) <|
  .bind (writes_wcFixed _) <| .bind (writes_wcU64 _) <|
  .bind (writes_wcU32 _) <| .bind (writes_wcU64 _) <|
  .bind (writes_wcU32 _) <| .bind (writes_wcU32 _) <|
  .bind (writes_wcU32 _) <| .bind (writes_wcF64s _ _) <|
  .bind (writes_wcU32 _) <| .bind (writes_wcF64s _ _) <|
  .bind (writes_wcFixed _) <| .bind (writes_wcFixed _) <|
  .bind (writes_wcI64 _) <| .bind (writes_wcI64 _) <|
  .bind (writes_wcU32 _) <|
  .bind (Emits.forM writes_wcFixed _) (writes_wcU32 _)

/-- The decoder reads the layout back, normalized. -/
theorem reads_rcResult {r : Result F} (h : r.Encodable) :
    ReadsBack rcResult r.bytes (.ok, r.normalize) := by
  refine .bind (reads_rcU32 _) <| .bind (reads_rcU32 _) <|
    .bind (reads_rcBytes _) <| .bind (reads_rcU64 _) <|
    .bind (reads_rcU32 _) <| .bind (reads_rcU64 _) <|
    .bind (reads_rcU32 _) <| .bind (reads_rcU32 _) <|
    .bind (reads_rcU32 _) <| .test reads_rcOk ?_
  rw [if_neg (by simpa using h.payload)]
  refine .bind (reads_rcF64s _ _ h.payload) <| .bind (reads_rcU32 _) <|
    .test reads_rcOk ?_
  rw [if_neg (by simpa using h.covariance)]
  refine .bind (reads_rcF64s _ _ h.covariance) <|
    .bind (reads_rcBytes _) <| .bind (reads_rcBytes _) <|
    .bind (reads_rcI64 _) <| .bind (reads_rcI64 _) <|
    .bind (reads_rcU32 _) <| .test reads_rcOk ?_
  rw [if_neg (by simpa using h.sources)]
  have hsources := reads_rcRepeat reads_rcBytes
    (r.sources.toList.take r.sourceCount.toNat)
  rw [show (r.sources.toList.take r.sourceCount.toNat).length
      = r.sourceCount.toNat by simpa using h.sources] at hsources
  exact .bind hsources <| .skip (reads_rcFill _ _) <|
    .last (reads_rcU32 _) <| .test reads_rcOk (Reads.pure _)

/-- The length of an encoded result, from its counts. -/
theorem Result.length_bytes (r : Result F) :
    r.bytes.length
      = 164 + 8 * min r.payloadCount.toNat maxPayloadDoubles
        + 8 * min r.covarianceCount.toNat maxCovDoubles
        + 32 * min r.sourceCount.toNat maxSources := by
  simp only [Result.bytes, List.length_append, length_u32Bytes,
    length_u64Bytes, length_f64sBytes, List.length_flatMap,
    Vector.length_toList, List.map_const', List.sum_replicate_nat,
    List.length_take]
  omega

/-- Encoding succeeds exactly when the layout fits the buffer. -/
theorem obicallWireEncodeResult_eq {r : Result F} (h : r.Encodable)
    (outCap : Nat) :
    obicallWireEncodeResult r outCap
      = if r.bytes.length ≤ outCap then .ok r.bytes
        else .error .errBufferTooSmall := by
  have hp := h.payload
  have hc := h.covariance
  have hs := h.sources
  have hcounts : ¬ (decide (r.payloadCount.toNat > maxPayloadDoubles)
      || decide (r.covarianceCount.toNat > maxCovDoubles)
      || decide (r.sourceCount.toNat > maxSources)) = true := by
    simp only [Bool.or_eq_true, decide_eq_true_eq]
    omega
  rw [obicallWireEncodeResult, if_neg hcounts,
    wcFinish_eq (writes_wcResult r)]

/-- Only an encodable result is encoded. -/
theorem obicallWireEncodeResult_ok {r : Result F} {outCap : Nat}
    {bs : List UInt8} (h : obicallWireEncodeResult r outCap = .ok bs) :
    r.Encodable ∧ bs = r.bytes := by
  have hr : r.Encodable := by
    rw [obicallWireEncodeResult] at h
    split at h
    · cases h
    next hcounts =>
      simp only [Bool.or_eq_true, decide_eq_true_eq] at hcounts
      exact ⟨by omega, by omega, by omega⟩
  rw [obicallWireEncodeResult_eq hr] at h
  split at h
  · cases h
    exact ⟨hr, rfl⟩
  · cases h

/-- What the decoder accepts is the layout of the result it returns, with
the sender's own `struct_size` in front. -/
theorem parses_rcResult :
    Parses (rcResult (F := F)) fun r bs => (r.Encodable ∧ r.normalize = r)
      ∧ ∃ size, bs
        = ({ r with structSize := size } : Result F).bytes := by
  refine .read takes_rcU32 fun size => .read takes_rcU32 fun _ =>
    .read (takes_rcBytes _) fun _ => .read takes_rcU64 fun _ =>
    .read takes_rcU32 fun _ => .read takes_rcU64 fun _ =>
    .read takes_rcU32 fun _ => .read takes_rcU32 fun _ =>
    .read takes_rcU32 fun payloadCount =>
    accepts_guard (by nofun) fun hpayload => ?_
  refine .readP (takes_rcF64s hpayload) fun payload =>
    .read takes_rcU32 fun covarianceCount =>
    accepts_guard (by nofun) fun hcovariance => ?_
  refine .readP (takes_rcF64s hcovariance) fun covariance =>
    .read (takes_rcBytes _) fun _ => .read (takes_rcBytes _) fun _ =>
    .read takes_rcI64 fun _ => .read takes_rcI64 fun _ =>
    .read takes_rcU32 fun sourceCount =>
    accepts_guard (by nofun) fun hsources => ?_
  refine .readP (takes_rcRepeat (takes_rcBytes 32) _) fun ids =>
    .readP (takes_rcFill _ _) fun sources => .read takes_rcU32 fun _ =>
    accepts_verdict fun hfill hlen hkeep' hkeep => ?_
  have hle : ids.length ≤ maxSources := hlen ▸ hsources
  subst hfill
  refine ⟨⟨⟨hpayload, hcovariance, hsources⟩, ?_⟩, size, ?_⟩
  · unfold Result.normalize
    dsimp only
    rw [hkeep, hkeep', keepFirst_fillVector _ _ hlen hle]
  · rw [Result.bytes]
    dsimp only
    rw [List.append_nil, ← hlen, take_fillVector _ hle]
    rfl

/-- What is encoded is what is decoded. -/
theorem obicallWireDecodeResult_bytes {r : Result F} (h : r.Encodable) :
    obicallWireDecodeResult r.bytes = (.ok, r.normalize) :=
  (reads_rcResult h).run

end Result

-- from here on a decoder is known by its theorems only
attribute [irreducible] obicallWireDecodeObservation
  obicallWireDecodeResult

end Obicall
