/-
The gate's listening socket (`gate_main.c`, `main` and
`connection_thread`): one thread for each connection, over the bytes its
peer sends.

# The threads

A thread first verifies the hello, then serves one frame after the other,
and a command-line client's connection after one. What the network does
during a call comes in with the event; between two calls anything may
happen on other connections. The handlers take the mutex, so what a frame
does to the gate is one step of `GateSys`.

# The connections

They are numbered in the order of their acceptance and live as long as
the process does. `stream` is what the peer has sent and the thread has
not read yet; a peer may send at any time, what it likes.
-/
import Mathlib.Logic.Function.Basic
import Obicall.Common.Hello
import Obicall.Gate.Process

namespace Obicall

variable {F : Type} [DoubleBits F]

-- ================================================================= state

/-- Where a connection's thread stands. -/
inductive GateThread where
  /-- in `procutil_server_verify_hello` -/
  | hello
  /-- in its loop, `role` as verified -/
  | serving (role : UInt32)
  /-- the connection is closed, or was never accepted -/
  | closed
  deriving DecidableEq

/-- A connection: its thread, and what is not read of what was sent. -/
structure GateConn where
  thread : GateThread
  stream : List UInt8

/-- The process with its disk, the run's token, and its connections. -/
structure GateServer (F : Type) where
  gate : GateSys F
  token : RunToken
  conns : Nat → GateConn
  accepted : Nat

def GateConn.none : GateConn := ⟨.closed, []⟩

omit [DoubleBits F] in
/-- Before the first start. -/
def GateServer.init (F : Type) (token : RunToken) : GateServer F where
  gate := GateSys.init F
  token := token
  conns _ := .none
  accepted := 0

/-- What can happen next. -/
inductive ServerEvent where
  | start (cfg : GateConfig) (now : Int64)
  | crash
  /-- `osal_accept` returns a connection -/
  | accept
  /-- the peer of a connection sends -/
  | arrive (i : Nat) (bytes : List UInt8)
  /-- a thread's call of `osal_recv_frame`, and what it does with it -/
  | turn (i : Nat) (net : List NetEvent) (now : Int64) (diskOk : Bool)
  /-- a reply that was built leaves the process -/
  | send (i : Nat)

-- ================================================================= steps

omit [DoubleBits F] in
def GateServer.setConn (s : GateServer F) (i : Nat) (c : GateConn) :
    GateServer F :=
  { s with conns := Function.update s.conns i c }

/-- A turn of the loop of `connection_thread`. -/
def GateServer.serve (s : GateServer F) (i : Nat) (role : UInt32)
    (net : List NetEvent) (now : Int64) (diskOk : Bool) : GateServer F :=
  match osalRecvFrame 4096 (s.conns i).stream net with
  | (.failed, rest) => s.setConn i ⟨.closed, rest⟩
  | (.timedOut, rest) => s.setConn i ⟨.serving role, rest⟩
  | (.frame f, rest) =>
      { s.setConn i
          ⟨if role = roleCli then .closed else .serving role, rest⟩ with
        gate := s.gate.step (.recv f.msgType f.payload now diskOk) }

/-- A thread's next call. -/
def GateServer.turn (s : GateServer F) (i : Nat) (net : List NetEvent)
    (now : Int64) (diskOk : Bool) : GateServer F :=
  match (s.conns i).thread with
  | .closed => s
  | .hello =>
      match procutilServerVerifyHello s.token (s.conns i).stream net with
      | (some role, rest) => s.setConn i ⟨.serving role, rest⟩
      | (none, rest) => s.setConn i ⟨.closed, rest⟩
  | .serving role => s.serve i role net now diskOk

/-- One step of the server. A connection is accepted by a process that is
there, and dies with it. -/
def GateServer.step (s : GateServer F) : ServerEvent → GateServer F
  | .start cfg now => { s with gate := s.gate.step (.start cfg now) }
  | .crash =>
      { s with
        gate := s.gate.step .crash
        conns := fun _ => .none }
  | .accept =>
      if s.gate.proc.isSome then
        { s.setConn s.accepted ⟨.hello, []⟩ with accepted := s.accepted + 1 }
      else s
  | .arrive i bytes =>
      match (s.conns i).thread with
      | .closed => s
      | t => s.setConn i ⟨t, (s.conns i).stream ++ bytes⟩
  | .turn i net now diskOk => s.turn i net now diskOk
  | .send i => { s with gate := s.gate.step (.send i) }

/-- What an event sends on a connection. -/
def ServerEvent.sentBy (e : ServerEvent) (i : Nat) : List UInt8 :=
  match e with
  | .arrive j bytes => if i = j then bytes else []
  | _ => []

/-- Everything that is sent on a connection. -/
def sentBy (es : List ServerEvent) (i : Nat) : List UInt8 :=
  es.flatMap fun e => e.sentBy i

end Obicall
