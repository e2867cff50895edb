/-
The journal process and the peers of its connections.

`Net` puts beside the process what it does not know: which peers have
gone, on which connections a send has failed, and which threads have run
since their peer left. A peer may leave at any time. From then on every
receive and every send on its connection fails; before that they may fail
or not. A thread takes its next step when it is its turn.

# What is asked

A new connection is to be turned away only while 16 others are open
(`RefusesOnlyFull`), where one whose peer has left counts as open until
its thread has run again, and a connection whose peer has left or on
which a send has failed is to be closed at some time (`GivesBack`).
-/
import Obicall.Journald.Process
import Obicall.Lib.Endless

namespace Obicall

open Lib.Endless

variable {F : Type} [DoubleBits F] [DoubleArith F]

-- ================================================================= model

/-- What a thread's next call returns, as far as its peer is there: the
role of a hello that was verified, the frame received, whether the receive
failed, the clock, the disk, and whether the send went out. -/
structure PeerAnswer where
  role : Option UInt32
  frame : Option (UInt8 × List UInt8)
  hangup : Bool
  now : Int64
  written : Written
  delivered : Bool

inductive PeerEvent where
  /-- `osal_accept` returns a connection -/
  | accept
  /-- the peer of a slot's connection leaves -/
  | disconnect (i : Fin maxConnections)
  /-- a slot's thread runs -/
  | turn (i : Fin maxConnections) (a : PeerAnswer)

/-- The process, and for each slot's connection: the peer has left, a send
has failed, and the thread has run since the peer left. -/
structure Net (F : Type) where
  journal : JournalState F
  gone : Fin maxConnections → Bool
  failed : Fin maxConnections → Bool
  noticed : Fin maxConnections → Bool

omit [DoubleBits F] [DoubleArith F] in
/-- A thread's next step. A worker's receive that times out is none. -/
def Net.next (s : Net F) (i : Fin maxConnections) (a : PeerAnswer) :
    Option JournalEvent :=
  let delivered := a.delivered && !s.gone i
  match (s.journal.conns i).at with
  | none => none
  | some .hello => some (.hello i (if s.gone i then none else a.role))
  | some .request => some (.request i (if s.gone i then none else a.frame))
  | some .worker =>
      if s.gone i || a.hangup then some (.hangup i)
      else a.frame.map fun (msgType, payload) =>
        .submit i msgType payload a.now a.written
  | some .poll => some (.poll i delivered)
  | some (.data _) => some (.sendData i delivered)
  | some (.decision _ _) => some (.sendDecision i a.now delivered)
  | some .advance => some (.advance i)

def Net.step (s : Net F) : PeerEvent → Net F
  | .accept =>
      let journal := s.journal.step .accept
      match s.journal.freeSlot with
      | none => { s with journal }
      | some i =>
          { journal
            gone := Function.update s.gone i false
            failed := Function.update s.failed i false
            noticed := Function.update s.noticed i false }
  | .disconnect i => { s with gone := Function.update s.gone i true }
  | .turn i a =>
      let journal := (s.next i a).elim s.journal s.journal.step
      let sent := journal.frames.drop s.journal.frames.length
      { journal
        gone := s.gone
        failed := Function.update s.failed i
          (s.failed i || sent.any fun f => !f.delivered)
        noticed := Function.update s.noticed i (s.noticed i || s.gone i) }

omit [DoubleArith F] in
/-- The process as it starts. -/
def Net.start (pipelineId : List UInt8) (cfg : JournalConfig)
    (segmentFile : Option (List UInt8)) : Net F where
  journal := journaldMain pipelineId cfg segmentFile
  gone _ := false
  failed _ := false
  noticed _ := false

omit [DoubleBits F] [DoubleArith F] in
def Net.inUse (s : Net F) (i : Fin maxConnections) : Bool :=
  (s.journal.conns i).inUse

-- ============================================================= statement

/-- It is the turn of the slot's thread. -/
def PeerEvent.isTurnOf (e : PeerEvent) (i : Fin maxConnections) : Prop :=
  ∃ a, e = .turn i a

/-- Every thread keeps getting its turn. -/
def Fair (es : Nat → PeerEvent) : Prop :=
  ∀ i n, ∃ m, n ≤ m ∧ (es m).isTurnOf i

/-- A connection is turned away only while 16 others are open: every slot
has one, and its peer is there, or has left since its thread last ran. -/
def RefusesOnlyFull (s : Net F) (es : Nat → PeerEvent) : Prop :=
  ∀ n, es n = .accept →
    (stateAt Net.step s es n).journal.freeSlot = none →
    ∀ i, (stateAt Net.step s es n).inUse i = true
      ∧ ¬ ((stateAt Net.step s es n).gone i = true
        ∧ (stateAt Net.step s es n).noticed i = true)

/-- A connection whose peer has left, or on which a send has failed, is
closed at some time, and its slot is free. -/
def GivesBack (s : Net F) (es : Nat → PeerEvent) : Prop :=
  ∀ n i, (stateAt Net.step s es n).inUse i = true →
    (stateAt Net.step s es n).gone i = true
      ∨ (stateAt Net.step s es n).failed i = true →
    ∃ m, n ≤ m ∧ (stateAt Net.step s es m).inUse i = false

end Obicall
