/-
The run-token handshake (`procutil.c`), with which every connection of a
run begins.

A client sends one `AUTH_HELLO` and goes on without a reply; a server
reads one frame and either takes the client's role from it or gives the
connection up. Connecting the socket itself is left to the network.
-/
import Obicall.Core.Control
import Obicall.Osal.Frame

namespace Obicall

/-- `OBICALL_RUN_TOKEN_LEN` is 32. -/
abbrev RunToken : Type := Vector UInt8 32

/-- `OBICALL_MSG_AUTH_HELLO`. -/
def msgAuthHello : UInt8 := 1

/-- `OBICALL_WIRE_VERSION`, as the 32-bit field of a hello has it. -/
def helloVersion : UInt32 := 1

/-- The hello of `procutil_client_connect`. -/
def clientHello (token : RunToken) (role : UInt32) : MsgAuthHello where
  protocolVersion := helloVersion
  role := role
  runToken := token

/-- `procutil_client_connect` on a socket that is connected: its result,
and what it wrote. -/
def procutilClientConnect (token : RunToken) (role : UInt32)
    (net : List NetEvent) : OsalRet × List UInt8 :=
  match obicallWireEncodeAuthHello (clientHello token role) 64 with
  | .error _ => (.failed, [])
  | .ok buf => osalSendFrame ⟨msgAuthHello, buf⟩ net

/-- What `procutil_server_verify_hello` makes of the frame it received:
the role, or `none` for its -1. -/
def verifyHelloFrame (token : RunToken) (f : Frame) : Option UInt32 :=
  if f.msgType ≠ msgAuthHello then none
  else match obicallWireDecodeAuthHello f.payload with
    | (.ok, hello) =>
        if hello.protocolVersion ≠ helloVersion then none
        else if hello.runToken ≠ token then none
        else some hello.role
    | (_, _) => none

/-- `procutil_server_verify_hello`: the role, and what is left of the
stream. -/
def procutilServerVerifyHello (token : RunToken) (stream : List UInt8)
    (net : List NetEvent) : Option UInt32 × List UInt8 :=
  match osalRecvFrame 256 stream net with
  | (.frame f, rest) => (verifyHelloFrame token f, rest)
  | (_, rest) => (none, rest)

end Obicall
