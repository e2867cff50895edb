/-
The 16-byte frame header of `wire.c`.

The decoder writes through its out pointer only after it has seen the
magic; the version and the length are checked last, on the filled struct.
-/
import Mathlib.Data.List.Basic
import Obicall.Core.Cursor

namespace Obicall

open Lib.Codec

/-- The stores of `obicall_wire_encode_header`. -/
def wcHeader (h : WireHeader) : StateM WCursor Unit := do
  wcU8 wireMagic0
  wcU8 wireMagic1
  wcU8 wireMagic2
  wcU8 wireMagic3
  wcU8 h.wireVersion
  wcU8 h.msgType
  wcU16 h.flags
  wcU32 h.payloadLen
  wcU32 h.crc32

/-- `obicall_wire_encode_header`. -/
def obicallWireEncodeHeader (h : WireHeader) : Except Status (List UInt8) :=
  let c := (wcHeader h (WCursor.start wireHeaderLen)).2
  if c.ok then .ok c.out else .error .errWireMalformed

/-- The loads of `obicall_wire_decode_header` into `out`. -/
def rcHeader (out : WireHeader) : StateM RCursor (Status × WireHeader) := do
  let m0 ← rcU8
  let m1 ← rcU8
  let m2 ← rcU8
  let m3 ← rcU8
  let ok ← rcOk
  if !ok || m0 != wireMagic0 || m1 != wireMagic1 || m2 != wireMagic2
      || m3 != wireMagic3 then
    return (.errWireMalformed, out)
  else do
    let version ← rcU8
    let msgType ← rcU8
    let flags ← rcU16
    let payloadLen ← rcU32
    let crc32 ← rcU32
    let ok ← rcOk
    return (
      if !ok then .errWireMalformed
      else if version ≠ wireVersion then .errWireVersionUnsupported
      else if payloadLen.toNat > wireMaxPayload then .errWireTooLarge
      else .ok,
      { wireVersion := version, msgType, flags, payloadLen, crc32 })

/-- `obicall_wire_decode_header`. -/
def obicallWireDecodeHeader (inp : Vector UInt8 wireHeaderLen)
    (out : WireHeader) : Status × WireHeader :=
  (rcHeader out (RCursor.start inp.toList)).1

/-- A header that a receiver accepts. -/
structure WireHeader.Supported (h : WireHeader) : Prop where
  version : h.wireVersion = Obicall.wireVersion
  payload : h.payloadLen.toNat ≤ wireMaxPayload

/-- The bytes of a header. -/
def WireHeader.bytes (h : WireHeader) : List UInt8 :=
  [wireMagic0] ++ ([wireMagic1] ++ ([wireMagic2] ++ ([wireMagic3] ++
  ([h.wireVersion] ++ ([h.msgType] ++ (u16Bytes h.flags ++
  (u32Bytes h.payloadLen ++ u32Bytes h.crc32)))))))

@[simp] theorem WireHeader.length_bytes (h : WireHeader) :
    h.bytes.length = wireHeaderLen := by
  simp [WireHeader.bytes]

theorem writes_wcHeader (h : WireHeader) : Writes (wcHeader h) h.bytes :=
  .bind (writes_wcU8 _) <| .bind (writes_wcU8 _) <|
  .bind (writes_wcU8 _) <| .bind (writes_wcU8 _) <|
  .bind (writes_wcU8 _) <| .bind (writes_wcU8 _) <|
  .bind (writes_wcU16 _) <| .bind (writes_wcU32 _) (writes_wcU32 _)

/-- A header is always written, and takes 16 bytes. -/
theorem obicallWireEncodeHeader_eq (h : WireHeader) :
    obicallWireEncodeHeader h = .ok h.bytes := by
  have hroom : h.bytes.length ≤ (WCursor.start wireHeaderLen).room := by
    rw [h.length_bytes]
    exact Nat.le_refl _
  obtain ⟨hok, hout, -⟩ := (writes_wcHeader h).fits _ rfl hroom
  rw [obicallWireEncodeHeader, if_pos hok, hout]
  rfl

/-- The decoder reads a supported header back. -/
theorem reads_rcHeader {h : WireHeader} (hs : h.Supported)
    (out : WireHeader) : ReadsBack (rcHeader out) h.bytes (.ok, h) := by
  refine .bind (reads_rcU8 _) <| .bind (reads_rcU8 _) <|
    .bind (reads_rcU8 _) <| .bind (reads_rcU8 _) <| .test reads_rcOk ?_
  rw [if_neg (by decide)]
  refine .bind (reads_rcU8 _) <| .bind (reads_rcU8 _) <|
    .bind (reads_rcU16 _) <| .bind (reads_rcU32 _) <|
    .last (reads_rcU32 _) <| .test reads_rcOk ?_
  rw [if_neg (by decide), if_neg (not_not.mpr hs.version),
    if_neg (Nat.not_lt.mpr hs.payload)]
  exact Reads.pure _

theorem obicallWireDecodeHeader_bytes {h : WireHeader} (hs : h.Supported)
    {inp : Vector UInt8 wireHeaderLen} (hinp : inp.toList = h.bytes)
    (out : WireHeader) : obicallWireDecodeHeader inp out = (.ok, h) := by
  rw [obicallWireDecodeHeader, hinp]
  exact (reads_rcHeader hs out).run

-- from here on the decoder is known by its theorems only
attribute [irreducible] obicallWireDecodeHeader

end Obicall
