/-
Frames over a loopback connection (`osal_ipc.c`).

# The network

A connection is a byte stream in each direction. What a `select` finds,
and how much the `send` or `recv` after it moves, is a script of events,
one for each turn of a loop; a script that is over means that every
further `select` times out. A `recv` on a stream with nothing left is the
peer's close.

# The calls

`sendAll` and `recvAll` are the two loops, `osalSendFrame` and
`osalRecvFrame` the calls made of them. A sender is described by what it
puts on the wire, a receiver by what is left to read.
-/
import Mathlib.Data.List.Basic
import Obicall.Core.Digest
import Obicall.Core.Header

namespace Obicall

-- =============================================================== network

/-- A turn of a `select` loop. -/
inductive NetEvent where
  /-- `select` returns 0 -/
  | timeout
  /-- `select` fails, or the call after it does -/
  | failed
  /-- the call after it moves at most `n + 1` bytes -/
  | ready (n : Nat)
  deriving DecidableEq

/-- The results 0, 1 and -1. -/
inductive OsalRet where
  | ok | timedOut | failed
  deriving DecidableEq

/-- What a frame carries. -/
structure Frame where
  msgType : UInt8
  payload : List UInt8
  deriving DecidableEq

-- ================================================================== send

/-- What `send_all` leaves: its result, what it wrote, and the script. -/
structure SendAll where
  ret : OsalRet
  written : List UInt8
  net : List NetEvent

/-- `send_all`; `buf` is what is not sent yet. -/
def sendAll (buf : List UInt8) : List NetEvent → SendAll
  | [] => ⟨if buf = [] then .ok else .failed, [], []⟩
  | e :: net =>
      if buf = [] then ⟨.ok, [], e :: net⟩
      else match e with
        | .ready n =>
            let rest := sendAll (buf.drop (n + 1)) net
            ⟨rest.ret, buf.take (n + 1) ++ rest.written, rest.net⟩
        | .timeout | .failed => ⟨.failed, [], net⟩

/-- The header `osal_send_frame` puts before a payload. -/
def Frame.header (f : Frame) : WireHeader where
  wireVersion := wireVersion
  msgType := f.msgType
  flags := 0
  payloadLen := UInt32.ofNat f.payload.length
  crc32 := obicallCrc32 f.payload

/-- `osal_send_frame`: its result and what it wrote. -/
def osalSendFrame (f : Frame) (net : List NetEvent) :
    OsalRet × List UInt8 :=
  if f.payload.length > wireMaxPayload then (.failed, [])
  else match obicallWireEncodeHeader f.header with
    | .error _ => (.failed, [])
    | .ok buf =>
        let header := sendAll buf net
        if header.ret ≠ .ok then (.failed, header.written)
        else if f.payload.length > 0 then
          let body := sendAll f.payload header.net
          (if body.ret ≠ .ok then .failed else .ok,
            header.written ++ body.written)
        else (.ok, header.written)

-- =============================================================== receive

/-- What `recv_all` leaves: its result, what it read, what is left of the
stream, and the script. -/
structure RecvAll where
  ret : OsalRet
  bytes : List UInt8
  stream : List UInt8
  net : List NetEvent

/-- A `select` that times out: clean before the first byte only. -/
def timeoutRet (got : List UInt8) : OsalRet :=
  if got.length = 0 then .timedOut else .failed

/-- `recv_all` with `got` already read. -/
def recvAll (len : Nat) (got stream : List UInt8) : List NetEvent → RecvAll
  | [] => ⟨if got.length < len then timeoutRet got else .ok, got, stream, []⟩
  | e :: net =>
      if got.length < len then
        match e with
        | .timeout => ⟨timeoutRet got, got, stream, net⟩
        | .failed => ⟨.failed, got, stream, net⟩
        | .ready n =>
            if stream = [] then ⟨.failed, got, stream, net⟩
            else
              let chunk := min (n + 1) (len - got.length)
              recvAll len (got ++ stream.take chunk) (stream.drop chunk) net
      else ⟨.ok, got, stream, e :: net⟩

/-- The header buffer with the bytes read at its front. -/
def hdrBuf (bytes : List UInt8) : Vector UInt8 wireHeaderLen :=
  Vector.ofFn fun i => bytes.getD i.val 0

/-- The header struct before it is decoded into. -/
def WireHeader.zero : WireHeader := ⟨0, 0, 0, 0, 0⟩

/-- What `osal_recv_frame` gives its caller: the frame with result 0, or
one of the results 1 and -1. -/
inductive RecvFrame where
  | frame (f : Frame)
  | timedOut
  | failed
  deriving DecidableEq

/-- The result of `osal_recv_frame` when the header could not be read. -/
def OsalRet.recvFrame : OsalRet → RecvFrame
  | .timedOut => .timedOut
  | .ok | .failed => .failed

/-- The rest of `osal_recv_frame`, once the header is decoded. -/
def osalRecvPayload (payloadCap : UInt32) (hdr : WireHeader)
    (stream : List UInt8) (net : List NetEvent) : RecvFrame × List UInt8 :=
  if hdr.payloadLen > payloadCap then (.failed, stream)
  else
    let body := if hdr.payloadLen > 0
      then recvAll hdr.payloadLen.toNat [] stream net
      else ⟨.ok, [], stream, net⟩
    if body.ret ≠ .ok then (.failed, body.stream)
    else if obicallCrc32 body.bytes ≠ hdr.crc32 then (.failed, body.stream)
    else (.frame ⟨hdr.msgType, body.bytes⟩, body.stream)

/-- `osal_recv_frame`: what it gives, and what is left of the stream. -/
def osalRecvFrame (payloadCap : UInt32) (stream : List UInt8)
    (net : List NetEvent) : RecvFrame × List UInt8 :=
  let hr := recvAll wireHeaderLen [] stream net
  if hr.ret ≠ .ok then (hr.ret.recvFrame, hr.stream)
  else match obicallWireDecodeHeader (hdrBuf hr.bytes) .zero with
    | (.ok, hdr) => osalRecvPayload payloadCap hdr hr.stream hr.net
    | (_, _) => (.failed, hr.stream)

-- ============================================================= both ends

/-- The bytes of a frame. -/
def Frame.bytes (f : Frame) : List UInt8 := f.header.bytes ++ f.payload

/-- What a sequence of sends puts on the wire. -/
def wireOf (sends : List (Frame × List NetEvent)) : List UInt8 :=
  sends.flatMap fun s => (osalSendFrame s.1 s.2).2

/-- A call of `osal_recv_frame`, with what the network does meanwhile. -/
structure RecvCall where
  payloadCap : UInt32
  net : List NetEvent

/-- A receiver: what it has not read, and the frames it was given. -/
structure Receiver where
  stream : List UInt8
  frames : List Frame
  deriving DecidableEq

def Receiver.start (stream : List UInt8) : Receiver := ⟨stream, []⟩

/-- What a call does. -/
def Receiver.recv (r : Receiver) (c : RecvCall) : RecvFrame × List UInt8 :=
  osalRecvFrame c.payloadCap r.stream c.net

/-- The receiver after a call. -/
def Receiver.step (r : Receiver) (c : RecvCall) : Receiver where
  stream := (r.recv c).2
  frames := match (r.recv c).1 with
    | .frame f => r.frames ++ [f]
    | .timedOut | .failed => r.frames

end Obicall
