/-
The wire format as a whole: every payload the codecs of `wire.c` know,
as one type, with the calling convention the codecs share.

An encoder stores through `out_len` in its last statement before it
returns `OBICALL_OK`, and nowhere else. A decoder is picked by the
message type; the one for events takes the caller's buffer besides.
-/
import Mathlib.Data.List.Basic
import Obicall.Core.Checkpoint
import Obicall.Core.Control
import Obicall.Core.Header
import Obicall.Core.Wire

namespace Obicall

open Lib.Codec

-- =============================================================== messages

/-- The payload types. -/
inductive WireType where
  | observation | result | checkpoint | event | authHello | heartbeat
  | epochGrant | epochRevoke | readinessReport | replayRequest
  | admissionDecision | resultAck | statusReply
  deriving DecidableEq, Repr

/-- A payload of any type. -/
inductive WireMsg (F : Type) where
  | observation (m : Observation F)
  | result (m : Result F)
  | checkpoint (m : Checkpoint F)
  | event (m : Event)
  | authHello (m : MsgAuthHello)
  | heartbeat (m : MsgHeartbeat)
  | epochGrant (m : MsgEpochGrant)
  | epochRevoke (m : MsgEpochRevoke)
  | readinessReport (m : MsgReadinessReport)
  | replayRequest (m : MsgReplayRequest)
  | admissionDecision (m : MsgAdmissionDecision)
  | resultAck (m : MsgResultAck)
  | statusReply (m : MsgStatusReply)

variable {F : Type}

def WireMsg.type : WireMsg F → WireType
  | .observation _ => .observation
  | .result _ => .result
  | .checkpoint _ => .checkpoint
  | .event _ => .event
  | .authHello _ => .authHello
  | .heartbeat _ => .heartbeat
  | .epochGrant _ => .epochGrant
  | .epochRevoke _ => .epochRevoke
  | .readinessReport _ => .readinessReport
  | .replayRequest _ => .replayRequest
  | .admissionDecision _ => .admissionDecision
  | .resultAck _ => .resultAck
  | .statusReply _ => .statusReply

section Codec

variable [DoubleBits F]

/-- The encoder of a payload's type. -/
def WireMsg.encode (m : WireMsg F) (outCap : Nat) :
    Except Status (List UInt8) :=
  match m with
  | .observation m => obicallWireEncodeObservation m outCap
  | .result m => obicallWireEncodeResult m outCap
  | .checkpoint m => obicallWireEncodeCheckpoint m outCap
  | .event m => obicallWireEncodeEvent m outCap
  | .authHello m => obicallWireEncodeAuthHello m outCap
  | .heartbeat m => obicallWireEncodeHeartbeat m outCap
  | .epochGrant m => obicallWireEncodeEpochGrant m outCap
  | .epochRevoke m => obicallWireEncodeEpochRevoke m outCap
  | .readinessReport m => obicallWireEncodeReadinessReport m outCap
  | .replayRequest m => obicallWireEncodeReplayRequest m outCap
  | .admissionDecision m => obicallWireEncodeAdmissionDecision m outCap
  | .resultAck m => obicallWireEncodeResultAck m outCap
  | .statusReply m => obicallWireEncodeStatusReply m outCap

/-- A call of an encoder: its status, and `*out_len` after it. -/
def WireMsg.encodeInto (m : WireMsg F) (outCap : Nat) (outLen : UInt32) :
    Status × UInt32 :=
  match m.encode outCap with
  | .ok bytes => (.ok, UInt32.ofNat bytes.length)
  | .error status => (status, outLen)

/-- The decoder of a type. -/
def WireType.decode (t : WireType) (payloadStorage : Option (List UInt8))
    (inp : List UInt8) : Status × WireMsg F :=
  match t with
  | .observation => (obicallWireDecodeObservation inp).map id .observation
  | .result => (obicallWireDecodeResult inp).map id .result
  | .checkpoint => (obicallWireDecodeCheckpoint inp).map id .checkpoint
  | .event => (obicallWireDecodeEvent inp payloadStorage).map id .event
  | .authHello => (obicallWireDecodeAuthHello inp).map id .authHello
  | .heartbeat => (obicallWireDecodeHeartbeat inp).map id .heartbeat
  | .epochGrant => (obicallWireDecodeEpochGrant inp).map id .epochGrant
  | .epochRevoke => (obicallWireDecodeEpochRevoke inp).map id .epochRevoke
  | .readinessReport =>
      (obicallWireDecodeReadinessReport inp).map id .readinessReport
  | .replayRequest =>
      (obicallWireDecodeReplayRequest inp).map id .replayRequest
  | .admissionDecision =>
      (obicallWireDecodeAdmissionDecision inp).map id .admissionDecision
  | .resultAck => (obicallWireDecodeResultAck inp).map id .resultAck
  | .statusReply => (obicallWireDecodeStatusReply inp).map id .statusReply

/-- The counts are within the type's maxima. -/
def WireMsg.Encodable : WireMsg F → Prop
  | .observation m => m.Encodable
  | .result m => m.Encodable
  | .checkpoint m => m.Encodable
  | .event m => m.Encodable
  | _ => True

/-- The caller's buffer holds an event's payload. -/
def WireMsg.FitsStorage (m : WireMsg F)
    (payloadStorage : Option (List UInt8)) : Prop :=
  match m with
  | .event m => m.FitsStorage payloadStorage
  | _ => True

/-- The bytes of a payload. -/
def WireMsg.bytes : WireMsg F → List UInt8
  | .observation m => m.bytes
  | .result m => m.bytes
  | .checkpoint m => m.bytes
  | .event m => m.bytes
  | .authHello m => m.bytes
  | .heartbeat m => m.bytes
  | .epochGrant m => m.bytes
  | .epochRevoke m => m.bytes
  | .readinessReport m => m.bytes
  | .replayRequest m => m.bytes
  | .admissionDecision m => m.bytes
  | .resultAck m => m.bytes
  | .statusReply m => m.bytes

/-- What a decoder makes of an encoded payload. -/
def WireMsg.normalize : WireMsg F → WireMsg F
  | .observation m => .observation m.normalize
  | .result m => .result m.normalize
  | .checkpoint m => .checkpoint m.normalize
  | .event m => .event m.normalize
  | m => m

/-- The payload with another `struct_size`, where its type has one. -/
def WireMsg.withStructSize (size : UInt32) : WireMsg F → WireMsg F
  | .observation m => .observation { m with structSize := size }
  | .result m => .result { m with structSize := size }
  | .checkpoint m => .checkpoint { m with structSize := size }
  | .event m => .event { m with structSize := size }
  | m => m

/-- The loads of the decoder of a type, for any cursor. -/
def rcMsg {M : Type → Type} [Monad M] [ReadCursor M] (t : WireType)
    (payloadStorage : Option (List UInt8)) : M (Status × WireMsg F) :=
  match t with
  | .observation => do
      let (status, m) ← rcObservation
      return (status, .observation m)
  | .result => do
      let (status, m) ← rcResult
      return (status, .result m)
  | .checkpoint => do
      let (status, m) ← rcCheckpoint
      return (status, .checkpoint m)
  | .event => do
      let (status, m) ← rcEvent payloadStorage
      return (status, .event m)
  | .authHello => do
      let (status, m) ← rcAuthHello
      return (status, .authHello m)
  | .heartbeat => do
      let (status, m) ← rcHeartbeat
      return (status, .heartbeat m)
  | .epochGrant => do
      let (status, m) ← rcEpochGrant
      return (status, .epochGrant m)
  | .epochRevoke => do
      let (status, m) ← rcEpochRevoke
      return (status, .epochRevoke m)
  | .readinessReport => do
      let (status, m) ← rcReadinessReport
      return (status, .readinessReport m)
  | .replayRequest => do
      let (status, m) ← rcReplayRequest
      return (status, .replayRequest m)
  | .admissionDecision => do
      let (status, m) ← rcAdmissionDecision
      return (status, .admissionDecision m)
  | .resultAck => do
      let (status, m) ← rcResultAck
      return (status, .resultAck m)
  | .statusReply => do
      let (status, m) ← rcStatusReply
      return (status, .statusReply m)

-- ================================================================ layouts

/-- A type's decoder is its loads on the input. -/
theorem decode_eq (t : WireType) (payloadStorage : Option (List UInt8))
    (inp : List UInt8) :
    t.decode (F := F) payloadStorage inp
      = ((rcMsg t payloadStorage : StateM RCursor _)
          (RCursor.start inp)).1 := by
  cases t <;> unfold WireType.decode rcMsg
  case observation => unfold obicallWireDecodeObservation; rfl
  case result => unfold obicallWireDecodeResult; rfl
  case checkpoint => unfold obicallWireDecodeCheckpoint; rfl
  case event => unfold obicallWireDecodeEvent; rfl
  case authHello => unfold obicallWireDecodeAuthHello; rfl
  case heartbeat => unfold obicallWireDecodeHeartbeat; rfl
  case epochGrant => unfold obicallWireDecodeEpochGrant; rfl
  case epochRevoke => unfold obicallWireDecodeEpochRevoke; rfl
  case readinessReport => unfold obicallWireDecodeReadinessReport; rfl
  case replayRequest => unfold obicallWireDecodeReplayRequest; rfl
  case admissionDecision => unfold obicallWireDecodeAdmissionDecision; rfl
  case resultAck => unfold obicallWireDecodeResultAck; rfl
  case statusReply => unfold obicallWireDecodeStatusReply; rfl

/-- Encoding succeeds exactly when the bytes fit the buffer. -/
theorem encode_eq {m : WireMsg F} (h : m.Encodable) (outCap : Nat) :
    m.encode outCap
      = if m.bytes.length ≤ outCap then .ok m.bytes
        else .error .errBufferTooSmall := by
  cases m with
  | observation m => exact obicallWireEncodeObservation_eq h outCap
  | result m => exact obicallWireEncodeResult_eq h outCap
  | checkpoint m => exact obicallWireEncodeCheckpoint_eq h outCap
  | event m => exact obicallWireEncodeEvent_eq h outCap
  | authHello m => exact wcFinish_eq (writes_wcAuthHello m)
  | heartbeat m => exact wcFinish_eq (writes_wcHeartbeat m)
  | epochGrant m => exact wcFinish_eq (writes_wcEpochGrant m)
  | epochRevoke m => exact wcFinish_eq (writes_wcEpochRevoke m)
  | readinessReport m => exact wcFinish_eq (writes_wcReadinessReport m)
  | replayRequest m => exact wcFinish_eq (writes_wcReplayRequest m)
  | admissionDecision m => exact wcFinish_eq (writes_wcAdmissionDecision m)
  | resultAck m => exact wcFinish_eq (writes_wcResultAck m)
  | statusReply m => exact wcFinish_eq (writes_wcStatusReply m)

/-- Every decoder reads its layout back, normalized. -/
theorem reads_rcMsg {m : WireMsg F} (h : m.Encodable)
    {payloadStorage : Option (List UInt8)}
    (hfits : m.FitsStorage payloadStorage) :
    ReadsBack (rcMsg m.type payloadStorage) m.bytes (.ok, m.normalize) := by
  cases m with
  | observation m => exact .last (reads_rcObservation h) (Reads.pure _)
  | result m => exact .last (reads_rcResult h) (Reads.pure _)
  | checkpoint m => exact .last (reads_rcCheckpoint h) (Reads.pure _)
  | event m => exact .last (reads_rcEvent h hfits) (Reads.pure _)
  | authHello m =>
      exact .last (reads_rcAuthHello m) (Reads.pure _)
  | heartbeat m =>
      exact .last (reads_rcHeartbeat m) (Reads.pure _)
  | epochGrant m =>
      exact .last (reads_rcEpochGrant m) (Reads.pure _)
  | epochRevoke m =>
      exact .last (reads_rcEpochRevoke m) (Reads.pure _)
  | readinessReport m =>
      exact .last (reads_rcReadinessReport m) (Reads.pure _)
  | replayRequest m =>
      exact .last (reads_rcReplayRequest m) (Reads.pure _)
  | admissionDecision m =>
      exact .last (reads_rcAdmissionDecision m) (Reads.pure _)
  | resultAck m =>
      exact .last (reads_rcResultAck m) (Reads.pure _)
  | statusReply m =>
      exact .last (reads_rcStatusReply m) (Reads.pure _)

/-- A decoded payload: of its type, with counts in range, normal, and
within the caller's buffer. -/
structure WireMsg.Decoded (m : WireMsg F) (t : WireType)
    (payloadStorage : Option (List UInt8)) : Prop where
  type : m.type = t
  encodable : m.Encodable
  normal : m.normalize = m
  fits : m.FitsStorage payloadStorage

omit [DoubleBits F] in
/-- A decoder's verdict, carried over to the payload as a `WireMsg`. -/
theorem Parses.wireMsg {α : Type} {r : StateM RCursor (Status × α)}
    {Q : α → List UInt8 → Prop} (h : Parses r Q) {g : α → WireMsg F}
    {P : WireMsg F → List UInt8 → Prop}
    (hq : ∀ x bs, Q x bs → P (g x) bs) :
    Parses (do
      let (status, m) ← r
      return (status, g m)) P := by
  intro c hfine
  obtain ⟨hg, hg₀, bs, hr, hx⟩ := h c hfine
  exact ⟨hg, hg₀, bs, hr, hq _ _ hx⟩

/-- The same for a payload without counts and `struct_size`. -/
theorem Parses.plain {α : Type} {r : StateM RCursor (Status × α)}
    {enc : α → List UInt8} (h : Parses r fun m bs => bs = enc m)
    {g : α → WireMsg F} {t : WireType}
    {payloadStorage : Option (List UInt8)}
    (hdecoded : ∀ x, (g x).Decoded t payloadStorage)
    (hbytes : ∀ x, ((g x).withStructSize 0).bytes = enc x) :
    Parses (do
      let (status, m) ← r
      return (status, g m)) fun m bs => m.Decoded t payloadStorage
        ∧ ∃ size, bs = (m.withStructSize size).bytes :=
  h.wireMsg fun x _ hbs => ⟨hdecoded x, 0, hbs.trans (hbytes x).symm⟩

/-- Every decoder accepts nothing but its layouts, in front of its input.
-/
theorem parses_rcMsg (t : WireType)
    (payloadStorage : Option (List UInt8)) :
    Parses (rcMsg t payloadStorage) fun (m : WireMsg F) bs =>
      m.Decoded t payloadStorage
        ∧ ∃ size, bs = (m.withStructSize size).bytes := by
  cases t with
  | observation =>
      refine parses_rcObservation.wireMsg ?_
      rintro m bs ⟨⟨henc, hnorm⟩, size, rfl⟩
      exact ⟨⟨rfl, henc, congrArg _ hnorm, trivial⟩, size, rfl⟩
  | result =>
      refine parses_rcResult.wireMsg ?_
      rintro m bs ⟨⟨henc, hnorm⟩, size, rfl⟩
      exact ⟨⟨rfl, henc, congrArg _ hnorm, trivial⟩, size, rfl⟩
  | checkpoint =>
      refine parses_rcCheckpoint.wireMsg ?_
      rintro m bs ⟨⟨henc, hnorm⟩, size, rfl⟩
      exact ⟨⟨rfl, henc, congrArg _ hnorm, trivial⟩, size, rfl⟩
  | event =>
      refine (parses_rcEvent payloadStorage).wireMsg ?_
      rintro m bs ⟨⟨henc, hnorm, hfits⟩, size, rfl⟩
      exact ⟨⟨rfl, henc, congrArg _ hnorm, hfits⟩, size, rfl⟩
  | authHello =>
      exact parses_rcAuthHello.plain (fun _ => ⟨rfl, trivial, rfl, trivial⟩)
        fun _ => rfl
  | heartbeat =>
      exact parses_rcHeartbeat.plain (fun _ => ⟨rfl, trivial, rfl, trivial⟩)
        fun _ => rfl
  | epochGrant =>
      exact parses_rcEpochGrant.plain (fun _ => ⟨rfl, trivial, rfl, trivial⟩)
        fun _ => rfl
  | epochRevoke =>
      exact parses_rcEpochRevoke.plain (fun _ => ⟨rfl, trivial, rfl, trivial⟩)
        fun _ => rfl
  | readinessReport =>
      exact parses_rcReadinessReport.plain (fun _ => ⟨rfl, trivial, rfl, trivial⟩)
        fun _ => rfl
  | replayRequest =>
      exact parses_rcReplayRequest.plain (fun _ => ⟨rfl, trivial, rfl, trivial⟩)
        fun _ => rfl
  | admissionDecision =>
      exact parses_rcAdmissionDecision.plain (fun _ => ⟨rfl, trivial, rfl, trivial⟩)
        fun _ => rfl
  | resultAck =>
      exact parses_rcResultAck.plain (fun _ => ⟨rfl, trivial, rfl, trivial⟩)
        fun _ => rfl
  | statusReply =>
      exact parses_rcStatusReply.plain (fun _ => ⟨rfl, trivial, rfl, trivial⟩)
        fun _ => rfl

end Codec

end Obicall
