/-
What is sent is what is received, for the whole wire format, and what is
received beyond that.

# Results

- `wire_round_trip`: an encodable payload, encoded into any buffer that
  holds it, decodes to itself, up to the receiver's own `struct_size` and
  zeros past the counts; a buffer too small is an error that leaves
  `*out_len` alone. A frame header round-trips as it is.
- `encode_decoded_iff`: a decoder is the inverse of its encoder on
  exactly the inputs that are as long as their own counts say. A longer
  input is accepted too, and its tail ignored (`replayRequest_with_tail`).
-/
import Mathlib.Data.List.Basic
import Obicall.Core.Binary64
import Obicall.Wire.Message

namespace Obicall

open Lib.Codec

variable {F : Type} [DoubleBits F]

-- =============================================================== lengths

/-- A round trip keeps the length. -/
theorem length_bytes_normalize (m : WireMsg F) :
    m.normalize.bytes.length = m.bytes.length := by
  cases m with
  | observation m =>
      exact (Observation.length_bytes _).trans m.length_bytes.symm
  | result m => exact (Result.length_bytes _).trans m.length_bytes.symm
  | checkpoint m =>
      exact (Checkpoint.length_bytes _).trans m.length_bytes.symm
  | event m => exact (Event.length_bytes _).trans m.length_bytes.symm
  | _ => rfl

-- =============================================================== layouts

omit [DoubleBits F] in
@[simp] theorem type_withStructSize (m : WireMsg F) (size : UInt32) :
    (m.withStructSize size).type = m.type := by
  cases m <;> rfl

omit [DoubleBits F] in
theorem encodable_withStructSize {m : WireMsg F} (h : m.Encodable)
    (size : UInt32) : (m.withStructSize size).Encodable := by
  cases m with
  | observation m => exact ⟨h.payload, h.covariance⟩
  | result m => exact ⟨h.payload, h.covariance, h.sources⟩
  | checkpoint m => exact ⟨h.dim, h.sources⟩
  | event m => exact ⟨h.payload⟩
  | _ => trivial

/-- A buffer that holds every event's payload. -/
def fullStorage : Option (List UInt8) :=
  some (List.replicate wireMaxPayload 0)

omit [DoubleBits F] in
theorem fitsStorage_full {m : WireMsg F} (h : m.Encodable) :
    m.FitsStorage fullStorage := by
  cases m with
  | event m =>
      have hle := h.payload
      show _ ≤ (List.replicate wireMaxPayload (0 : UInt8)).length
      rw [List.length_replicate]
      exact hle
  | _ => trivial

/-- What a decoder accepts, whatever buffer it was given. -/
theorem decode_accepts {t : WireType} {payloadStorage : Option (List UInt8)}
    {b : List UInt8} {m : WireMsg F}
    (h : t.decode payloadStorage b = (.ok, m)) :
    m.Decoded t payloadStorage
      ∧ ∃ size tl, b = (m.withStructSize size).bytes ++ tl := by
  rw [decode_eq] at h
  obtain ⟨bs, tl, rfl, hdecoded, size, rfl⟩ :=
    (parses_rcMsg t payloadStorage).run h
  exact ⟨hdecoded, size, tl, rfl⟩

/-- The decoder of a type and its encodable payloads. -/
theorem wireLayout (F : Type) [DoubleBits F] (t : WireType) :
    Layout (fun r : Status × WireMsg F => r.1 = .ok) (t.decode fullStorage)
      (fun m => m.type = t ∧ m.Encodable) WireMsg.bytes
      (fun m => (.ok, m.normalize)) where
  reads m tl hm := by
    obtain ⟨rfl, henc⟩ := hm
    rw [decode_eq]
    exact (reads_rcMsg henc (fitsStorage_full henc)).run_append tl
  accepts b hb := by
    obtain ⟨hdecoded, size, tl, hcut⟩ := decode_accepts
      (Prod.ext hb rfl : t.decode fullStorage b = (.ok, _))
    exact ⟨_, tl, ⟨(type_withStructSize _ _).trans hdecoded.type,
      encodable_withStructSize hdecoded.encodable size⟩, hcut⟩
  length m m' he := by
    have hnorm : m.normalize = m'.normalize := congrArg Prod.snd he
    rw [← length_bytes_normalize m, hnorm, length_bytes_normalize]

/-- Whatever buffer it is given, a decoder refuses every strict prefix of
an encoded payload. -/
theorem decode_prefix {t : WireType} {m : WireMsg F} (htype : m.type = t)
    (henc : m.Encodable) {pre suf : List UInt8}
    (hcut : pre ++ suf = m.bytes) (hsuf : suf ≠ [])
    (payloadStorage : Option (List UInt8)) :
    (t.decode (F := F) payloadStorage pre).1 ≠ .ok := by
  intro hok
  obtain ⟨hdecoded, size, tl, hpre⟩ := decode_accepts
    (Prod.ext hok rfl : t.decode (F := F) payloadStorage pre = (.ok, _))
  rw [hpre, List.append_assoc] at hcut
  have hnil := (wireLayout F t).prefix_free ⟨htype, henc⟩
    ⟨(type_withStructSize _ _).trans hdecoded.type,
      encodable_withStructSize hdecoded.encodable size⟩ hcut.symm
  exact hsuf (List.append_eq_nil_iff.mp hnil).2

-- ============================================================ round trip

/-- Every encodable payload, in every buffer, and every header that a
receiver supports. -/
theorem wire_round_trip :
    (∀ (m : WireMsg F), m.Encodable →
      ∀ (payloadStorage : Option (List UInt8)),
      m.FitsStorage payloadStorage → ∀ (outCap : Nat) (outLen : UInt32),
      (m.bytes.length ≤ outCap →
        m.encode outCap = .ok m.bytes
        ∧ m.encodeInto outCap outLen
          = (.ok, UInt32.ofNat m.bytes.length)
        ∧ m.type.decode payloadStorage m.bytes = (.ok, m.normalize))
      ∧ (outCap < m.bytes.length →
        ∃ status, status ≠ .ok
          ∧ m.encodeInto outCap outLen = (status, outLen)))
    ∧ ∀ (h : WireHeader), h.Supported → ∀ (out : WireHeader),
      ∃ bytes : Vector UInt8 wireHeaderLen,
        obicallWireEncodeHeader h = .ok bytes.toList
        ∧ obicallWireDecodeHeader bytes out = (.ok, h) := by
  constructor
  · intro m henc payloadStorage hfits outCap outLen
    have hencode := encode_eq henc outCap
    constructor
    · intro hcap
      rw [if_pos hcap] at hencode
      refine ⟨hencode, ?_, ?_⟩
      · rw [WireMsg.encodeInto, hencode]
      · rw [decode_eq]
        exact (reads_rcMsg henc hfits).run
    · intro hcap
      rw [if_neg (Nat.not_le.mpr hcap)] at hencode
      refine ⟨.errBufferTooSmall, by decide, ?_⟩
      rw [WireMsg.encodeInto, hencode]
  · intro h hs out
    have hsize : h.bytes.toArray.size = wireHeaderLen := by
      rw [List.size_toArray, h.length_bytes]
    refine ⟨⟨h.bytes.toArray, hsize⟩, obicallWireEncodeHeader_eq h, ?_⟩
    exact obicallWireDecodeHeader_bytes hs rfl out

/-- An observation of one NaN and a stale value past its count. -/
def nanObservation : Observation Binary64 :=
  { Observation.zero Binary64 with
    payloadCount := 1
    payload := Vector.replicate _ ⟨0x7FF8000000000001⟩ }

theorem wire_round_trip_nan :
    obicallWireDecodeObservation nanObservation.bytes
      = (.ok, nanObservation.normalize) := by
  have hlen : nanObservation.bytes.length ≤ 512 :=
    nanObservation.length_bytes_le.trans (by decide)
  have hdec := ((wire_round_trip.1 (.observation nanObservation)
    ⟨by decide, by decide⟩ none trivial 512 0).1 hlen).2.2
  obtain ⟨hok, hobs⟩ := Prod.mk.inj hdec
  exact Prod.ext hok (WireMsg.observation.inj hobs)

-- ============================================================= canonical

/-- The little-endian word at an offset of a byte string. -/
def u32At (b : List UInt8) (off : Nat) : UInt32 :=
  UInt32.ofNat (leNat (Vector.ofFn fun i : Fin 4 => b.getD (off + i.val) 0))

/-- How long a payload is that begins with these bytes, going by the
count fields among them. -/
def WireType.messageLength (t : WireType) (b : List UInt8) : Nat :=
  match t with
  | .observation =>
      let payload := 8 * (u32At b 100).toNat
      108 + payload + 8 * (u32At b (104 + payload)).toNat
  | .result =>
      let payload := 8 * (u32At b 68).toNat
      let covariance := 8 * (u32At b (72 + payload)).toNat
      164 + payload + covariance
        + 32 * (u32At b (156 + payload + covariance)).toNat
  | .checkpoint =>
      let dim := (u32At b 52).toNat
      let state := 8 * dim + 8 * (dim * dim)
      80 + state + 48 * (u32At b (68 + state)).toNat
  | .event => 28 + (u32At b 24).toNat
  | .authHello => 40
  | .heartbeat => 68
  | .epochGrant => 20
  | .epochRevoke => 24
  | .readinessReport => 52
  | .replayRequest => 40
  | .admissionDecision => 96
  | .resultAck => 48
  | .statusReply => 32

theorem u32At_drop (b : List UInt8) (off : Nat) :
    u32At b off = u32At (b.drop off) 0 := by
  simp only [u32At, List.getD_eq_getElem?_getD, List.getElem?_drop,
    Nat.zero_add]

theorem u32At_word (v : UInt32) (tl : List UInt8) :
    u32At (u32Bytes v ++ tl) 0 = v := by
  have hbytes : (Vector.ofFn fun i : Fin 4 =>
      (u32Bytes v ++ tl).getD (0 + i.val) 0) = leBytes 4 v.toNat := by
    apply Vector.ext
    intro i hi
    rw [Vector.getElem_ofFn, List.getD_eq_getElem?_getD,
      List.getElem?_append_left (by simpa using hi)]
    simp [u32Bytes, hi]
  rw [u32At, hbytes, leNat_leBytes_of_lt v.toNat_lt, UInt32.ofNat_toNat]

theorem drop_past {α : Type} {l l' : List α} {n : Nat} (h : l.length ≤ n) :
    (l ++ l').drop n = l'.drop (n - l.length) := by
  rw [List.drop_append, List.drop_eq_nil_of_le h, List.nil_append]

theorem length_f64sBytes_of_le {m : Nat} {count : UInt32} (a : Vector F m)
    (h : count.toNat ≤ m) :
    (f64sBytes count a).length = 8 * count.toNat := by
  rw [length_f64sBytes, Nat.min_eq_left h]

theorem messageLength_observation {obs : Observation F} (h : obs.Encodable)
    (tl : List UInt8) :
    WireType.observation.messageLength (obs.bytes ++ tl)
      = obs.bytes.length := by
  have hlen := length_f64sBytes_of_le obs.payload h.payload
  have hpayload : u32At (obs.bytes ++ tl) 100 = obs.payloadCount := by
    rw [u32At_drop, Observation.bytes]
    simp (disch := simp) only [List.append_assoc, drop_past,
      length_u32Bytes, length_u64Bytes, Vector.length_toList]
    exact u32At_word ..
  have hcov : u32At (obs.bytes ++ tl) (104 + 8 * obs.payloadCount.toNat)
      = obs.covarianceCount := by
    rw [u32At_drop, Observation.bytes]
    simp (disch := (simp [hlen]; try omega)) only [List.append_assoc,
      drop_past, length_u32Bytes, length_u64Bytes, Vector.length_toList,
      hlen]
    rw [Nat.sub_eq_zero_of_le (by omega), List.drop_zero]
    exact u32At_word ..
  rw [WireType.messageLength, hpayload, hcov, obs.length_bytes,
    Nat.min_eq_left h.payload, Nat.min_eq_left h.covariance]

theorem messageLength_result {r : Result F} (h : r.Encodable)
    (tl : List UInt8) :
    WireType.result.messageLength (r.bytes ++ tl) = r.bytes.length := by
  have hlen := length_f64sBytes_of_le r.payload h.payload
  have hlen' := length_f64sBytes_of_le r.covariance h.covariance
  have hpayload : u32At (r.bytes ++ tl) 68 = r.payloadCount := by
    rw [u32At_drop, Result.bytes]
    simp (disch := simp) only [List.append_assoc, drop_past,
      length_u32Bytes, length_u64Bytes, Vector.length_toList]
    exact u32At_word ..
  have hcov : u32At (r.bytes ++ tl) (72 + 8 * r.payloadCount.toNat)
      = r.covarianceCount := by
    rw [u32At_drop, Result.bytes]
    simp (disch := (simp [hlen]; try omega)) only [List.append_assoc,
      drop_past, length_u32Bytes, length_u64Bytes, Vector.length_toList,
      hlen]
    rw [Nat.sub_eq_zero_of_le (by omega), List.drop_zero]
    exact u32At_word ..
  have hsources : u32At (r.bytes ++ tl)
      (156 + 8 * r.payloadCount.toNat + 8 * r.covarianceCount.toNat)
      = r.sourceCount := by
    rw [u32At_drop, Result.bytes]
    simp (disch := (simp [hlen, hlen']; try omega)) only [List.append_assoc,
      drop_past, length_u32Bytes, length_u64Bytes, Vector.length_toList,
      hlen, hlen']
    rw [Nat.sub_eq_zero_of_le (by omega), List.drop_zero]
    exact u32At_word ..
  rw [WireType.messageLength, hpayload, hcov, hsources, r.length_bytes,
    Nat.min_eq_left h.payload, Nat.min_eq_left h.covariance,
    Nat.min_eq_left h.sources]

theorem messageLength_checkpoint {k : Checkpoint F} (h : k.Encodable)
    (tl : List UInt8) :
    WireType.checkpoint.messageLength (k.bytes ++ tl) = k.bytes.length := by
  have hsquare := toNat_square h.dim
  have hlen := length_f64sBytes_of_le k.stateMean h.dim
  have hlen' : (f64sBytes (k.stateDim * k.stateDim)
      k.stateCovariance).length = 8 * (k.stateDim.toNat * k.stateDim.toNat) := by
    rw [length_f64sBytes_of_le _ (square_le h.dim), hsquare]
  have hdim : u32At (k.bytes ++ tl) 52 = k.stateDim := by
    rw [u32At_drop, Checkpoint.bytes]
    simp (disch := simp) only [List.append_assoc, drop_past,
      length_u32Bytes, length_u64Bytes, Vector.length_toList]
    exact u32At_word ..
  have hsources : u32At (k.bytes ++ tl) (68 + (8 * k.stateDim.toNat
      + 8 * (k.stateDim.toNat * k.stateDim.toNat))) = k.sourceCount := by
    rw [u32At_drop, Checkpoint.bytes]
    simp (disch := (simp [hlen, hlen']; try omega)) only [List.append_assoc,
      drop_past, length_u32Bytes, length_u64Bytes, Vector.length_toList,
      hlen, hlen']
    rw [Nat.sub_eq_zero_of_le (by omega), List.drop_zero]
    exact u32At_word ..
  rw [WireType.messageLength, hdim, hsources, k.length_bytes,
    Nat.min_eq_left h.dim, Nat.min_eq_left (square_le h.dim), hsquare,
    Nat.min_eq_left h.sources]
  omega

omit [DoubleBits F] in
theorem messageLength_event (e : Event) (tl : List UInt8) :
    WireType.event.messageLength (e.bytes ++ tl) = e.bytes.length := by
  have hlen : u32At (e.bytes ++ tl) 24 = e.payload.len := by
    rw [u32At_drop, Event.bytes]
    simp (disch := simp) only [List.append_assoc, drop_past,
      length_u32Bytes, length_u64Bytes]
    exact u32At_word ..
  rw [WireType.messageLength, hlen, e.length_bytes, e.payload.toNat_len]

/-- The counts in an encoded payload give its length. -/
theorem messageLength_bytes {m : WireMsg F} (h : m.Encodable)
    (tl : List UInt8) :
    m.type.messageLength (m.bytes ++ tl) = m.bytes.length := by
  cases m with
  | observation m => exact messageLength_observation h tl
  | result m => exact messageLength_result h tl
  | checkpoint m => exact messageLength_checkpoint h tl
  | event m => exact messageLength_event m tl
  | authHello m => exact m.length_bytes.symm
  | heartbeat m => exact m.length_bytes.symm
  | epochGrant m => exact m.length_bytes.symm
  | epochRevoke m => exact m.length_bytes.symm
  | readinessReport m => exact m.length_bytes.symm
  | replayRequest m => exact m.length_bytes.symm
  | admissionDecision m => exact m.length_bytes.symm
  | resultAck m => exact m.length_bytes.symm
  | statusReply m => exact m.length_bytes.symm

/-- The `struct_size` of an encoded payload is its first word. -/
theorem withStructSize_u32At (m : WireMsg F) (size : UInt32)
    (tl : List UInt8) :
    m.withStructSize (u32At ((m.withStructSize size).bytes ++ tl) 0)
      = m.withStructSize size := by
  have hfirst : ∀ {l : List UInt8},
      u32At ((u32Bytes size ++ l) ++ tl) 0 = size := by
    intro l
    rw [List.append_assoc, u32At_word]
  cases m with
  | observation m =>
      exact congrArg (WireMsg.withStructSize · (.observation m)) hfirst
  | result m => exact congrArg (WireMsg.withStructSize · (.result m)) hfirst
  | checkpoint m =>
      exact congrArg (WireMsg.withStructSize · (.checkpoint m)) hfirst
  | event m => exact congrArg (WireMsg.withStructSize · (.event m)) hfirst
  | _ => rfl

/-- An accepted input is the encoding of the payload it was decoded to,
under its own `struct_size`, exactly when it is as long as its counts
say. -/
theorem encode_decoded_iff {t : WireType}
    {payloadStorage : Option (List UInt8)} {b : List UInt8} {m : WireMsg F}
    (hdec : t.decode payloadStorage b = (.ok, m)) {outCap : Nat}
    (hcap : b.length ≤ outCap) :
    (m.withStructSize (u32At b 0)).encode outCap = .ok b
      ↔ b.length = t.messageLength b := by
  obtain ⟨hdecoded, size, tl, rfl⟩ := decode_accepts hdec
  have henc := encodable_withStructSize hdecoded.encodable size
  have hlen := messageLength_bytes henc tl
  rw [type_withStructSize, hdecoded.type] at hlen
  rw [List.length_append] at hcap
  rw [withStructSize_u32At, encode_eq henc, if_pos (by omega), hlen,
    List.length_append]
  constructor
  · intro hok
    have hsame := congrArg List.length (Except.ok.inj hok)
    rw [List.length_append] at hsame
    omega
  · intro hsame
    have hnil : tl = [] := List.length_eq_zero_iff.mp (by omega)
    rw [hnil, List.append_nil]

/-- A request to replay from window 1. -/
def replayRequest : MsgReplayRequest := ⟨Vector.replicate 32 0, 1⟩

theorem encode_decoded_iff_replayRequest :
    (WireMsg.replayRequest (F := Binary64) replayRequest).encode 64
        = .ok replayRequest.bytes
      ↔ replayRequest.bytes.length = 40 := by
  have hdec : WireType.replayRequest.decode none replayRequest.bytes
      = (.ok, WireMsg.replayRequest (F := Binary64) replayRequest) := by
    rw [decode_eq]
    exact (reads_rcMsg (m := .replayRequest replayRequest) trivial
      trivial).run
  exact encode_decoded_iff hdec (by rw [replayRequest.length_bytes]; decide)

/-- The same request with one more byte is accepted, and is not what the
decoded request encodes to. -/
theorem replayRequest_with_tail :
    WireType.replayRequest.decode none (replayRequest.bytes ++ [0])
      = (.ok, WireMsg.replayRequest (F := Binary64) replayRequest)
    ∧ ∀ outCap,
      (WireMsg.replayRequest (F := Binary64) replayRequest).encode outCap
        ≠ .ok (replayRequest.bytes ++ [0]) := by
  constructor
  · rw [decode_eq]
    exact (reads_rcMsg (m := .replayRequest replayRequest) trivial
      trivial).run_append [0]
  · intro outCap hencode
    rw [encode_eq (m := .replayRequest replayRequest) trivial] at hencode
    split at hencode
    · have hlen := congrArg List.length (Except.ok.inj hencode)
      rw [List.length_append] at hlen
      exact absurd hlen (by simp [WireMsg.bytes])
    · cases hencode

end Obicall
