/-
The journal process (`journal_main.c`) and the runs it can take.

# One process

`JournalState` is `g_state`. Every connection has a thread of its own;
`ConnPc` is where that thread stands, with the locals it holds there. A
step is one critical section or one call that blocks: a submission is
admitted in one step, a broker's thread copies a ring entry in one and
sends its two frames in two more, and anything may happen in between.
The length and type of every frame received, the clock, and whether a
send or a write succeeds are up to the event.

# Counters and ghosts

`next_window_seq`, `ring_head` and the cursors advance once per
submission and are natural numbers here; they are cut to 64 bits where
they go into a record or a frame. The ghost fields keep what happened:
`records` is every entry `admit_locked` made, so window `w` is the entry
at index `w - 1`; `frames` every `osal_send_frame` on a broker
connection; `pairs` every data frame with the decision that followed it;
and in each slot, since its replay request, what its thread sent.
-/
import Mathlib.Data.List.FinRange
import Obicall.Core.Control
import Obicall.Journald.Segment
import Obicall.Lib.Ring

namespace Obicall

-- ================================================================ state

/-- `MAX_SENSOR_TRACKS`. -/
abbrev maxSensorTracks : Nat := 32

/-- `RING_CAPACITY`. -/
abbrev ringCapacity : Nat := 4096

/-- `MAX_CONNECTIONS`. -/
abbrev maxConnections : Nat := 16

instance : NeZero maxConnections := ⟨by decide⟩

/-- `ring_entry_t`. -/
structure RingEntry (F : Type) where
  windowSeq : Nat
  admissionReason : AdmissionReason
  obs : Observation F
  deriving DecidableEq

/-- The entry a broker's thread copied under the lock, and (ghost) the
ring head at that moment. -/
structure Copied (F : Type) where
  entry : RingEntry F
  head : Nat
  deriving DecidableEq

/-- Where a connection's thread stands. -/
inductive ConnPc (F : Type) where
  /-- in `procutil_server_verify_hello` -/
  | hello
  /-- a broker's, waiting for the replay request -/
  | request
  /-- about to take the lock and look for the cursor's entry -/
  | poll
  /-- holding a copy, about to send its observation -/
  | data (copied : Copied F)
  /-- the observation is sent (`buf`), the decision is not -/
  | decision (copied : Copied F) (buf : List UInt8)
  /-- about to take the lock and store the cursor -/
  | advance
  /-- a worker's receive loop -/
  | worker
  deriving DecidableEq

/-- `conn_slot_t` and its thread; `start` and `sent` are ghosts. -/
structure ConnSlot (F : Type) where
  inUse : Bool
  sock : Nat
  role : UInt32
  nextSeqToSend : Nat
  caughtUp : Bool
  pc : ConnPc F
  cursor : Nat
  start : Nat
  sent : List (Copied F)

/-- A call of `osal_send_frame`. -/
structure SentFrame where
  sock : Nat
  msgType : UInt8
  payload : List UInt8
  delivered : Bool

/-- A data frame and the decision that followed it. -/
structure SentPair where
  sock : Nat
  windowSeq : Nat
  payload : List UInt8
  decision : MsgAdmissionDecision

/-- `journal_state_t`, without the mutex, the run token and a shutdown
flag that nothing sets; `socks` counts the sockets accepted, and the
last three fields are ghosts. -/
structure JournalState (F : Type) where
  pipelineId : PipelineId
  cfg : JournalConfig
  tracks : List SensorTrack
  tracks_le : tracks.length ≤ maxSensorTracks
  ring : Fin ringCapacity → RingEntry F
  ringHead : Nat
  nextWindowSeq : Nat
  conns : Fin maxConnections → ConnSlot F
  segmentFile : Option (List UInt8)
  socks : Nat
  records : List (RingEntry F)
  frames : List SentFrame
  pairs : List SentPair

variable {F : Type} [DoubleBits F]

/-- A slot after `memset(.., 0, ..)`. -/
def ConnSlot.zero (F : Type) : ConnSlot F where
  inUse := false
  sock := 0
  role := roleUnknown
  nextSeqToSend := 0
  caughtUp := false
  pc := .hello
  cursor := 0
  start := 0
  sent := []

/-- `main` up to the accept loop, on the segment file it reopens. -/
def journaldMain (pipelineId : List UInt8) (cfg : JournalConfig)
    (segmentFile : Option (List UInt8)) : JournalState F where
  pipelineId := strncpy31 pipelineId
  cfg := cfg
  tracks := []
  tracks_le := Nat.zero_le _
  ring := fun _ => ⟨0, .admitOk, Observation.zero F⟩
  ringHead := 0
  nextWindowSeq := 1
  conns := fun _ => ConnSlot.zero F
  segmentFile := segmentFile
  socks := 0
  records := []
  frames := []
  pairs := []

-- ============================================================= admission

/-- A track that `find_or_create_track` zeroes and names. -/
def SensorTrack.fresh (sensorId : SensorId) : SensorTrack where
  sensorId := strncpy31 (cString sensorId)
  sourceBootId := 0
  hasData := false
  highestSequenceSeen := 0
  watermarkSampleTimeNs := 0

/-- The loop of `find_or_create_track`: the first track of the sensor. -/
def findTrack (tracks : List SensorTrack) (sensorId : SensorId) :
    Option Nat :=
  tracks.findIdx? fun t => strncmpEq t.sensorId sensorId

/-- `find_or_create_track`: the track's index and the tracks, or `none`
when the table is full. -/
def findOrCreateTrack (tracks : List SensorTrack) (sensorId : SensorId) :
    Option (Nat × List SensorTrack) :=
  match findTrack tracks sensorId with
  | some i => some (i, tracks)
  | none =>
      if tracks.length ≥ maxSensorTracks then none
      else some (tracks.length, tracks ++ [.fresh sensorId])

omit [DoubleBits F] in
/-- `compute_pending_depth_locked`. -/
def computePendingDepth (s : JournalState F) : UInt32 :=
  let brokers := (List.finRange maxConnections).filter fun i =>
    (s.conns i).inUse && (s.conns i).role == roleBroker
  match brokers.map fun i => (s.conns i).nextSeqToSend with
  | [] => 0
  | c :: cs => UInt32.ofNat (s.nextWindowSeq - cs.foldl min c)

theorem findOrCreateTrack_length {tracks tracks' : List SensorTrack}
    {sensorId : SensorId} {i : Nat}
    (h : findOrCreateTrack tracks sensorId = some (i, tracks'))
    (hle : tracks.length ≤ maxSensorTracks) :
    tracks'.length ≤ maxSensorTracks := by
  unfold findOrCreateTrack at h
  split at h
  · cases h
    exact hle
  · split at h
    · cases h
    · cases h
      rw [List.length_append, List.length_singleton]
      omega

/-- `admit_locked`: the decision, the window it assigned if it assigned
one, and the state it leaves. The outcome of the segment append is not
looked at. -/
def admitLocked [DoubleArith F] (s : JournalState F) (obs : Observation F)
    (now : Int64) (written : Written) :
    (AdmissionReason × Option Nat) × JournalState F :=
  match h : findOrCreateTrack s.tracks obs.sensorId with
  | none => ((.rejectOverflow, none), s)
  | some (i, tracks) =>
      let pending := computePendingDepth s
      let (reason, track) := obicallJournalAdmit s.cfg
        (tracks.getD i (.fresh obs.sensorId)) obs pending
      let windowSeq := s.nextWindowSeq
      let entry : RingEntry F := ⟨windowSeq, reason, obs⟩
      ((reason, some windowSeq),
        { s with
          tracks := tracks.set i track
          tracks_le := by
            rw [List.length_set]
            exact findOrCreateTrack_length h s.tracks_le
          nextWindowSeq := windowSeq + 1
          ring := Function.update s.ring
            (Lib.Ring.slot ringCapacity windowSeq) entry
          ringHead := windowSeq
          segmentFile := s.segmentFile.map fun file =>
            (obicallJournalAppendRecord file (UInt64.ofNat windowSeq) now
              reason obs written).2
          records := s.records ++ [entry] })

-- ============================================================== sending

omit [DoubleBits F] in
/-- The decision `send_ring_entry` builds for an entry. -/
def RingEntry.decision (e : RingEntry F) (pipelineId : PipelineId)
    (now : Int64) : MsgAdmissionDecision where
  pipelineId := strncpy31 (cString pipelineId)
  windowSeq := UInt64.ofNat e.windowSeq
  sensorId := strncpy31 (cString e.obs.sensorId)
  sequence := e.obs.sequence
  admitted := if e.admissionReason = .admitOk then 1 else 0
  reasonCode := e.admissionReason.code
  decidedAtNs := now

omit [DoubleBits F] in
def JournalState.setConn (s : JournalState F) (i : Fin maxConnections)
    (c : ConnSlot F) : JournalState F :=
  { s with conns := Function.update s.conns i c }

/-- The first half of `send_ring_entry`. -/
def sendData (s : JournalState F) (i : Fin maxConnections)
    (copied : Copied F) (delivered : Bool) : JournalState F :=
  let c := s.conns i
  match obicallWireEncodeObservation copied.entry.obs 1200 with
  | .error _ => s.setConn i { c with pc := .advance, cursor := c.cursor + 1 }
  | .ok buf =>
      { s.setConn i { c with pc := .decision copied buf } with
        frames := s.frames ++ [⟨c.sock, msgReplayData, buf, delivered⟩] }

/-- The second half of `send_ring_entry`, and the `cursor++` after it. -/
def sendDecision (s : JournalState F) (i : Fin maxConnections)
    (copied : Copied F) (buf : List UInt8) (now : Int64)
    (delivered : Bool) : JournalState F :=
  let c := s.conns i
  let dec := copied.entry.decision s.pipelineId now
  let s' := s.setConn i
    { c with
      pc := .advance
      cursor := c.cursor + 1
      sent := c.sent ++ [copied] }
  match obicallWireEncodeAdmissionDecision dec 256 with
  | .error _ => s'
  | .ok dbuf =>
      { s' with
        frames := s.frames ++ [⟨c.sock, msgAdmissionDecision, dbuf, delivered⟩]
        pairs := s.pairs
          ++ [⟨c.sock, copied.entry.windowSeq, buf, dec⟩] }

-- ============================================================ connections

omit [DoubleBits F] in
/-- The accept loop's search for a slot. -/
def JournalState.freeSlot (s : JournalState F) :
    Option (Fin maxConnections) :=
  (List.finRange maxConnections).find? fun i => !(s.conns i).inUse

omit [DoubleBits F] in
/-- A thread's last lines: close the socket and release the slot. -/
def JournalState.release (s : JournalState F) (i : Fin maxConnections) :
    JournalState F :=
  s.setConn i { s.conns i with inUse := false }

omit [DoubleBits F] in
/-- The oldest window the ring retains. -/
def JournalState.oldestAvailable (s : JournalState F) : Nat :=
  if s.ringHead + 1 > ringCapacity then s.ringHead + 1 - ringCapacity else 1

/-- `handle_broker_connection` up to its loop, on the first frame it
receives (`none` when it receives none). -/
def openReplay (s : JournalState F) (i : Fin maxConnections)
    (frame : Option (UInt8 × List UInt8)) : JournalState F :=
  match frame with
  | none => s.release i
  | some (msgType, payload) =>
      if msgType ≠ msgReplayRequest then s.release i
      else match obicallWireDecodeReplayRequest payload with
        | (.ok, req) =>
            let start := max req.fromWindowSeq.toNat 1
            let cursor := max start s.oldestAvailable
            s.setConn i
              { s.conns i with
                nextSeqToSend := cursor
                pc := .poll
                cursor := cursor
                start := start
                sent := [] }
        | (_, _) => s.release i

omit [DoubleBits F] in
/-- `has_more`. -/
def hasMore (s : JournalState F) (i : Fin maxConnections) : Bool :=
  1 ≤ (s.conns i).cursor && (s.conns i).cursor ≤ s.ringHead

omit [DoubleBits F] in
/-- One look at the ring: a copy of the cursor's slot, or the note that
the subscriber has caught up. -/
def pollRing (s : JournalState F) (i : Fin maxConnections)
    (delivered : Bool) : JournalState F :=
  let c := s.conns i
  if hasMore s i then
    s.setConn i { c with
      pc := .data ⟨s.ring (Lib.Ring.slot ringCapacity c.cursor), s.ringHead⟩ }
  else if c.caughtUp then s
  else
    { s.setConn i { c with caughtUp := true } with
      frames := s.frames ++ [⟨c.sock, msgReplayEnd, [], delivered⟩] }

-- ================================================================== runs

/-- What can happen next, and to which connection. -/
inductive JournalEvent where
  /-- `osal_accept` returns a connection -/
  | accept
  /-- the hello is verified with this role, or not -/
  | hello (i : Fin maxConnections) (role : Option UInt32)
  /-- a broker's first frame, or none -/
  | request (i : Fin maxConnections) (frame : Option (UInt8 × List UInt8))
  /-- a worker's frame; the clock and the disk of the append it causes -/
  | submit (i : Fin maxConnections) (msgType : UInt8) (payload : List UInt8)
      (now : Int64) (written : Written)
  /-- a worker's connection fails -/
  | hangup (i : Fin maxConnections)
  /-- a broker's thread looks at the ring -/
  | poll (i : Fin maxConnections) (delivered : Bool)
  | sendData (i : Fin maxConnections) (delivered : Bool)
  | sendDecision (i : Fin maxConnections) (now : Int64) (delivered : Bool)
  /-- it stores its cursor -/
  | advance (i : Fin maxConnections)

/-- The thread of a slot, when the slot is taken. -/
def ConnSlot.at (c : ConnSlot F) : Option (ConnPc F) :=
  if c.inUse then some c.pc else none

/-- The observation an event brings to admission: a worker's decodable
`OBSERVATION_SUBMIT`. -/
def JournalState.submitted (s : JournalState F) :
    JournalEvent → Option (Observation F)
  | .submit i msgType payload _ _ =>
      match (s.conns i).at with
      | some .worker =>
          if msgType ≠ msgObservationSubmit then none
          else match obicallWireDecodeObservation payload with
            | (.ok, obs) => some obs
            | (_, _) => none
      | _ => none
  | _ => none

/-- One event; one that the threads are not ready for changes nothing. -/
def JournalState.step [DoubleArith F] (s : JournalState F)
    (e : JournalEvent) : JournalState F :=
  match e with
  | .accept =>
      match s.freeSlot with
      | none => { s with socks := s.socks + 1 }
      | some i =>
          { s.setConn i
              { inUse := true
                sock := s.socks
                role := roleUnknown
                nextSeqToSend := 1
                caughtUp := false
                pc := .hello
                cursor := 0
                start := 0
                sent := [] } with
            socks := s.socks + 1 }
  | .hello i role =>
      match (s.conns i).at, role with
      | some .hello, none => s.release i
      | some .hello, some role =>
          if role = roleBroker then
            s.setConn i { s.conns i with role := role, pc := .request }
          else if role = roleWorker then
            s.setConn i { s.conns i with role := role, pc := .worker }
          else
            (s.setConn i { s.conns i with role := role }).release i
      | _, _ => s
  | .request i frame =>
      match (s.conns i).at with
      | some .request => openReplay s i frame
      | _ => s
  | .submit _ _ _ now written =>
      match s.submitted e with
      | some obs => (admitLocked s obs now written).2
      | none => s
  | .hangup i =>
      match (s.conns i).at with
      | some .worker => s.release i
      | _ => s
  | .poll i delivered =>
      match (s.conns i).at with
      | some .poll => pollRing s i delivered
      | _ => s
  | .sendData i delivered =>
      match (s.conns i).at with
      | some (.data copied) => sendData s i copied delivered
      | _ => s
  | .sendDecision i now delivered =>
      match (s.conns i).at with
      | some (.decision copied buf) =>
          sendDecision s i copied buf now delivered
      | _ => s
  | .advance i =>
      match (s.conns i).at with
      | some .advance =>
          s.setConn i
            { s.conns i with
              nextSeqToSend := (s.conns i).cursor
              pc := .poll }
      | _ => s

/-- The process after a list of events. -/
def journalRun [DoubleArith F] (s : JournalState F)
    (es : List JournalEvent) : JournalState F :=
  Lib.Run.run JournalState.step s es

end Obicall
