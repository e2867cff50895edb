/-
The broker's connection to the gate (`broker_main.c`, the sends and reads
of the main loop, against `connection_thread` of `gate_main.c`).

# The connection

It keeps its order both ways and loses nothing; the gate answers a
request whenever it comes to it, and a read may time out before the reply
is there, whether the reply is late or still on its way. A send that
fails and a read that returns -1 end the connection and are left out:
every reply fits the 64 bytes the broker reads it into.

# The history

Requests and replies carry the request's number, which no party sees. The
log keeps the answers the gate gave on this connection, by the number of
the request, and every frame the broker read, with the number of the
request it had just sent and what it believed afterwards.
-/
import Mathlib.Data.List.Basic
import Obicall.Broker.Process
import Obicall.Gate.Process
import Obicall.Lib.Pairing
import Obicall.Osal.Frame

namespace Obicall

open Lib.Pairing

variable {F : Type}

-- ================================================================ frames

/-- The two requests of the main loop. -/
inductive Request where
  | publish | heartbeat
  deriving DecidableEq

/-- The frame of an answer, as its handler encodes it. -/
def Answer.frame : Answer F → Option Frame
  | .statusReply m =>
      match obicallWireEncodeStatusReply m 64 with
      | .ok payload => some ⟨msgStatusReply, payload⟩
      | .error _ => none
  | .resultAck m _ =>
      match obicallWireEncodeResultAck m 128 with
      | .ok payload => some ⟨msgResultAck, payload⟩
      | .error _ => none

/-- `hb` of the main loop; `healthy` is `reader_alive`. -/
def BrokerCtx.heartbeat (g : BrokerCtx F) (epochBelief : UInt64)
    (readerAlive : Bool) (now : Int64) : MsgHeartbeat where
  brokerId := g.brokerId
  epoch := epochBelief
  lastWindowSeq := g.lastProcessedWindowSeq
  configDigest := g.configDigest
  checkpointSchemaVersion := checkpointSchemaVersion
  healthy := if readerAlive then 1 else 0
  sentAtNs := now

-- ================================================================= state

/-- A frame the broker read: after which request, the reply to which, and
what it believed from then on. -/
structure Read where
  request : Request
  asked : Nat
  answered : Nat
  epochBelief : UInt64
  deriving DecidableEq

/-- The two processes, the frames between them, and the history. -/
structure Link (F : Type) where
  gate : GateSys F
  broker : BrokerCtx F
  epochBelief : UInt64
  ownerBelief : UInt32
  /-- the request whose reply the main loop is about to read -/
  awaiting : Option Request
  conn : Exchange Frame Frame
  /-- what the gate answered on this connection -/
  answers : List (Nat × Answer F)
  reads : List Read
  /-- how many reads returned 1 -/
  timeouts : Nat

/-- The main loop about to start, `isB` its `strcmp` with `"B"`. -/
def Link.start [DoubleArith F] [DoubleBits F] (gate : GateSys F) (isB : Bool)
    (opts : BrokerOptions F) : Link F where
  gate := gate
  broker := .start (if isB then brokerB else brokerA) opts
  epochBelief := 0
  ownerBelief := brokerNone
  awaiting := none
  conn := .start Frame Frame
  answers := []
  reads := []
  timeouts := 0

/-- What can happen next: the main loop takes an entry or sends a
heartbeat, the gate serves this connection or another, the pending read
ends. -/
inductive LinkEvent (F : Type) where
  | publish (e : QueueEntry F) (now : Int64)
  | heartbeat (readerAlive : Bool) (now : Int64)
  | serve (now : Int64) (diskOk : Bool)
  | elsewhere (msgType : UInt8) (payload : List UInt8) (now : Int64)
      (diskOk : Bool)
  | read
  | timeout

-- ================================================================= steps

/-- The main loop goes on to the read once its request is sent. -/
def Link.send (s : Link F) (request : Request) (f : Frame) : Link F :=
  { s with awaiting := some request, conn := s.conn.ask f }

/-- An entry of the batch: its result is sent if it encodes. -/
def Link.publish [DoubleArith F] [DoubleBits F] (s : Link F)
    (e : QueueEntry F) (now : Int64) : Link F :=
  let (broker, result) := s.broker.processEntry e now s.epochBelief
  match obicallWireEncodeResult result 2048 with
  | .ok payload =>
      { s with broker }.send .publish ⟨msgResultPublish, payload⟩
  | .error _ => { s with broker }

/-- The periodic heartbeat. -/
def Link.heartbeat (s : Link F) (readerAlive : Bool) (now : Int64) :
    Link F :=
  let hb := s.broker.heartbeat s.epochBelief readerAlive now
  match obicallWireEncodeHeartbeat hb 128 with
  | .ok payload => s.send .heartbeat ⟨msgHeartbeat, payload⟩
  | .error _ => s

/-- The gate's thread for this connection takes the next request; what
its handler replies goes out at once. -/
def Link.serve [DoubleBits F] (s : Link F) (now : Int64) (diskOk : Bool) :
    Link F :=
  match s.gate.proc, s.conn.requests with
  | some ctx, (id, f) :: _ =>
      let gate := s.gate.dispatch ctx f.msgType f.payload now diskOk
      let replies := (gate.outbox.drop s.gate.outbox.length).map Prod.fst
      { s with
        gate
        conn := s.conn.answer (replies.filterMap Answer.frame)
        answers := s.answers ++ replies.map (id, ·) }
  | _, _ => s

/-- What a frame read after a request changes: a `STATUS_REPLY` after a
heartbeat sets what the broker believes, anything else is dropped. -/
def Link.digest (s : Link F) (request : Request) (f : Frame) : Link F :=
  if request = .heartbeat ∧ f.msgType = msgStatusReply then
    match obicallWireDecodeStatusReply f.payload with
    | (.ok, reply) =>
        { s with
          epochBelief := reply.gateEpoch
          ownerBelief := reply.ownerBrokerId }
    | (_, _) => s
  else s

/-- The read after a request returns 0. -/
def Link.read (s : Link F) : Link F :=
  match s.awaiting, s.conn.replies with
  | some request, (id, f) :: _ =>
      let s := s.digest request f
      { s with
        awaiting := none
        conn := s.conn.take
        reads := s.reads
          ++ [⟨request, s.conn.asked - 1, id, s.epochBelief⟩] }
  | _, _ => s

/-- One step of the connection. The main loop sends only when it is not
in a read. -/
def Link.step [DoubleArith F] [DoubleBits F] (s : Link F) :
    LinkEvent F → Link F
  | .publish e now =>
      if s.awaiting = none then s.publish e now else s
  | .heartbeat readerAlive now =>
      if s.awaiting = none then s.heartbeat readerAlive now else s
  | .serve now diskOk => s.serve now diskOk
  | .elsewhere msgType payload now diskOk =>
      match s.gate.proc with
      | none => s
      | some ctx =>
          { s with gate := s.gate.dispatch ctx msgType payload now diskOk }
  | .read => s.read
  | .timeout =>
      if s.awaiting = none then s
      else { s with awaiting := none, timeouts := s.timeouts + 1 }

/-- A run of the main loop on its connection. -/
def linkRun [DoubleArith F] [DoubleBits F] (gate : GateSys F) (isB : Bool)
    (opts : BrokerOptions F) (es : List (LinkEvent F)) : Link F :=
  Lib.Run.run Link.step (Link.start gate isB opts) es

end Obicall
