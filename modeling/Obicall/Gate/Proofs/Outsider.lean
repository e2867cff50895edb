/-
A peer that does not have the run's token has no influence on the gate.

# The relation

`Outside` relates a run to the same run without what the connections of a
set send and without the turns of their threads: process, disk, history
and every other connection are the same, and a connection of the set is
closed, or waits in the handshake with nothing in its stream that could
still complete the token (`Quiet`). It looks ahead, at what the peer has
yet to send. A turn of such a thread reads from the front of its stream,
so by `token_sent` it closes the connection.
-/
import Obicall.Core.Binary64
import Obicall.Common.Proofs.Hello
import Obicall.Gate.Server
import Obicall.Lib.Erase

namespace Obicall

open Lib.Run

variable {F : Type} [DoubleBits F]

-- ============================================================ one thread

/-- What a thread without the token's bytes can be: it has not been let
in, and what it has and gets of its peer does not hold the token. -/
def GateConn.Quiet (c : GateConn) (token : RunToken) (later : List UInt8) :
    Prop :=
  c.thread = .closed
    ∨ (c.thread = .hello ∧ ¬ token.toList <:+: c.stream ++ later)

/-- Two servers that differ on the connections of `O` only, and those of
the first are quiet for what is still to come. -/
structure Outside (O : Nat → Bool) (es : List ServerEvent)
    (s s' : GateServer F) : Prop where
  gate : s.gate = s'.gate
  token : s.token = s'.token
  accepted : s.accepted = s'.accepted
  others : ∀ i, O i = false → s.conns i = s'.conns i
  quiet : ∀ i, O i = true → (s.conns i).Quiet s.token (sentBy es i)
  unheard : ∀ i, O i = true → ¬ s.token.toList <:+: sentBy es i

omit [DoubleBits F] in
theorem setConn_self (s : GateServer F) (i : Nat) (c : GateConn) :
    (s.setConn i c).conns i = c := Function.update_self ..

omit [DoubleBits F] in
theorem setConn_ne (s : GateServer F) {i j : Nat} (h : j ≠ i)
    (c : GateConn) : (s.setConn i c).conns j = s.conns j :=
  Function.update_of_ne h ..

theorem sentBy_cons (e : ServerEvent) (es : List ServerEvent) (i : Nat) :
    sentBy (e :: es) i = e.sentBy i ++ sentBy es i := List.flatMap_cons

variable {O : Nat → Bool} {es : List ServerEvent} {s s' : GateServer F}

omit [DoubleBits F] in
/-- What is yet to come holds no token either. -/
theorem Outside.unheard_tail {e : ServerEvent}
    (h : Outside O (e :: es) s s') {i : Nat} (hi : O i = true) :
    ¬ s.token.toList <:+: sentBy es i := by
  intro htoken
  apply h.unheard i hi
  rw [sentBy_cons]
  exact htoken.trans (List.suffix_append ..).isInfix

/-- A connection that is given nothing stays quiet. -/
theorem GateConn.Quiet.tail {c : GateConn} {token : RunToken}
    {e : ServerEvent} {i : Nat} (h : c.Quiet token (sentBy (e :: es) i))
    (he : e.sentBy i = []) : c.Quiet token (sentBy es i) := by
  rw [sentBy_cons, he, List.nil_append] at h
  exact h

omit [DoubleBits F] in
/-- The servers stay as they are. -/
theorem Outside.stay {e : ServerEvent} (h : Outside O (e :: es) s s')
    (hquiet : ∀ i, O i = true → (s.conns i).Quiet s.token (sentBy es i)) :
    Outside O es s s' :=
  ⟨h.gate, h.token, h.accepted, h.others, hquiet, fun _ hi =>
    h.unheard_tail hi⟩

omit [DoubleBits F] in
/-- The gate moves in both. -/
theorem Outside.move (h : Outside O es s s') (gate : GateSys F) :
    Outside O es { s with gate } { s' with gate } :=
  ⟨rfl, h.token, h.accepted, h.others, h.quiet, h.unheard⟩

omit [DoubleBits F] in
/-- One connection is set to the same in both. -/
theorem Outside.setBoth {e : ServerEvent} (h : Outside O (e :: es) s s')
    {i : Nat} (hsent : ∀ j, O j = true → j ≠ i → e.sentBy j = [])
    {c : GateConn} (hc : O i = true → c.Quiet s.token (sentBy es i)) :
    Outside O es (s.setConn i c) (s'.setConn i c) where
  gate := h.gate
  token := h.token
  accepted := h.accepted
  others j hj := by
    by_cases hij : j = i
    · rw [hij, setConn_self, setConn_self]
    · rw [setConn_ne s hij, setConn_ne s' hij]
      exact h.others j hj
  quiet j hj := by
    by_cases hij : j = i
    · rw [hij, setConn_self]
      exact hc (hij ▸ hj)
    · rw [setConn_ne s hij]
      exact (h.quiet j hj).tail (hsent j hj hij)
  unheard j hj := h.unheard_tail hj

/-- A turn of a thread that is not in the set. -/
theorem Outside.turn {i : Nat} {net : List NetEvent} {now : Int64}
    {diskOk : Bool} (h : Outside O (.turn i net now diskOk :: es) s s')
    (hi : O i = false) :
    Outside O es (s.turn i net now diskOk) (s'.turn i net now diskOk) := by
  have hset : ∀ c, Outside O es (s.setConn i c) (s'.setConn i c) := by
    intro c
    refine h.setBoth (fun _ _ _ => rfl) fun hi' => ?_
    rw [hi] at hi'
    cases hi'
  unfold GateServer.turn
  rw [← h.others i hi, ← h.token]
  split
  · exact h.stay fun j hj => (h.quiet j hj).tail rfl
  · split
    · exact hset _
    · exact hset _
  · unfold GateServer.serve
    rw [← h.others i hi]
    split
    · exact hset _
    · exact hset _
    · rw [← h.gate]
      exact (hset _).move _

end Obicall
