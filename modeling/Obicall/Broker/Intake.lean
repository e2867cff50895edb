/-
The broker's intake (`broker_main.c`): the thread that reads the journal
connection and queues what it decodes, and the main loop's batch that
empties the queue.

An observation and the decision on it arrive as two frames. The reader
keeps the last observation in `pending_obs` until a decision frame comes
in, and pairs the two by that order alone.
-/
import Mathlib.Data.List.Basic
import Obicall.Core.Control
import Obicall.Core.Wire
import Obicall.Lib.Fifo
import Obicall.Lib.Run

namespace Obicall

open Lib.Fifo

variable {F : Type} [DoubleBits F]

-- ================================================================ reader

/-- `queue_entry_t`. -/
structure QueueEntry (F : Type) where
  windowSeq : UInt64
  obs : Observation F
  admitted : UInt32
  deriving DecidableEq

/-- The locals of `journal_reader_thread`. -/
structure Reader (F : Type) where
  pendingObs : Observation F
  havePending : Bool

def Reader.start (F : Type) [DoubleBits F] : Reader F :=
  ⟨Observation.zero F, false⟩

/-- One turn of the reader's loop on a frame it received: the entry it
goes on to queue, if the frame completes a pair, and its locals. -/
def Reader.frame (r : Reader F) (msgType : UInt8) (payload : List UInt8) :
    Option (QueueEntry F) × Reader F :=
  if msgType = msgReplayData then
    let (st, obs) := obicallWireDecodeObservation payload
    (none, ⟨obs, if st = .ok then true else r.havePending⟩)
  else if msgType = msgAdmissionDecision && r.havePending then
    match obicallWireDecodeAdmissionDecision payload with
    | (.ok, dec) =>
        (some ⟨dec.windowSeq, r.pendingObs, dec.admitted⟩,
          { r with havePending := false })
    | (_, _) => (none, { r with havePending := false })
  else (none, r)

/-- The reader over the frames of a connection: the entries it completed,
in order, and its locals. -/
def Reader.frames (r : Reader F) :
    List (UInt8 × List UInt8) → List (QueueEntry F) × Reader F
  | [] => ([], r)
  | f :: fs =>
      let (entry, r') := r.frame f.1 f.2
      let (entries, r'') := r'.frames fs
      (entry.toList ++ entries, r'')

theorem Reader.frames_cons (r : Reader F) (f : UInt8 × List UInt8)
    (fs : List (UInt8 × List UInt8)) :
    r.frames (f :: fs)
      = ((r.frame f.1 f.2).1.toList ++ ((r.frame f.1 f.2).2.frames fs).1,
        ((r.frame f.1 f.2).2.frames fs).2) := rfl

theorem Reader.frames_append (r : Reader F)
    (fs gs : List (UInt8 × List UInt8)) :
    r.frames (fs ++ gs)
      = ((r.frames fs).1 ++ ((r.frames fs).2.frames gs).1,
        ((r.frames fs).2.frames gs).2) := by
  induction fs generalizing r with
  | nil => rfl
  | cons f fs ih =>
      rw [List.cons_append, Reader.frames_cons, Reader.frames_cons, ih,
        List.append_assoc]

-- ================================================================= queue

/-- `QUEUE_CAP`. -/
abbrev queueCap : Nat := 512

instance : NeZero queueCap := ⟨by decide⟩

/-- The reader, the queue, and the part of the main loop's batch it has
not processed yet; `decoded` and `processed` are ghosts. -/
structure Intake (F : Type) where
  reader : Reader F
  queue : Queue (QueueEntry F) queueCap
  batch : List (QueueEntry F)
  decoded : List (QueueEntry F)
  processed : List (QueueEntry F)

def Intake.start (F : Type) [DoubleBits F] : Intake F where
  reader := Reader.start F
  queue := .empty queueCap ⟨0, Observation.zero F, 0⟩
  batch := []
  decoded := []
  processed := []

inductive IntakeEvent where
  /-- the reader receives a frame -/
  | frame (msgType : UInt8) (payload : List UInt8)
  /-- the main loop takes a batch -/
  | drain
  /-- it processes one entry of it -/
  | process

/-- One event. The main loop takes a batch only when it is through with
the one before. -/
def Intake.step (s : Intake F) : IntakeEvent → Intake F
  | .frame msgType payload =>
      match s.reader.frame msgType payload with
      | (none, r) => { s with reader := r }
      | (some entry, r) =>
          { s with
            reader := r
            queue := s.queue.put entry
            decoded := s.decoded ++ [entry] }
  | .drain =>
      if s.batch = [] then
        let (batch, queue) := s.queue.drain queueCap
        { s with queue := queue, batch := batch }
      else s
  | .process =>
      match s.batch with
      | [] => s
      | entry :: batch =>
          { s with batch := batch, processed := s.processed ++ [entry] }

def intakeRun (s : Intake F) (es : List IntakeEvent) : Intake F :=
  Lib.Run.run Intake.step s es

end Obicall
