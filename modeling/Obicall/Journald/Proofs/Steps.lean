/-
What one step of the journal process can do, said once (`Stepped`): it
leaves the process as it is, accepts or turns away a connection, admits an
observation, or takes one thread further, which moves its own slot by a
`SlotStep` and adds a `LogStep` to the logs of what was sent. Every
invariant of the process is derived from this: of the window counters and
the ring (`step_assigns`), of a slot (`step_slot`), and of the logs
(`step_logs`).
-/
import Mathlib.Data.List.Basic
import Obicall.Journald.Process

namespace Obicall

open Lib.Ring

variable {F : Type} [DoubleBits F] [DoubleArith F]

-- =========================================================== admissions

/-- A state without its connections and logs: all that admission reads
and writes. -/
structure Windows (F : Type) where
  pipelineId : PipelineId
  cfg : JournalConfig
  tracks : List SensorTrack
  ring : Fin ringCapacity → RingEntry F
  ringHead : Nat
  nextWindowSeq : Nat
  records : List (RingEntry F)

def JournalState.windows (s : JournalState F) : Windows F :=
  ⟨s.pipelineId, s.cfg, s.tracks, s.ring, s.ringHead, s.nextWindowSeq,
    s.records⟩

/-- An event that brings one is an admission. -/
theorem step_submitted {s : JournalState F} {e : JournalEvent}
    {obs : Observation F} (h : s.submitted e = some obs) :
    ∃ now written, s.step e = (admitLocked s obs now written).2 := by
  cases e with
  | submit i msgType payload now written =>
      refine ⟨now, written, ?_⟩
      unfold JournalState.step
      rw [h]
  | _ => cases h

omit [DoubleArith F] in
/-- Whatever is submitted came off the wire. -/
theorem canonical_of_submitted {s : JournalState F} {e : JournalEvent}
    {obs : Observation F} (h : s.submitted e = some obs) :
    obs.Canonical := by
  unfold JournalState.submitted at h
  split at h
  · split at h
    · split at h
      · cases h
      split at h
      next hdec =>
        cases h
        exact canonical_of_decode_ok hdec
      · cases h
    · cases h
  · cases h

/-- The next window, recorded under the next number: the admission made
its decision on a track of the sensor. -/
structure Assigns (s : JournalState F) (obs : Observation F)
    (i : Nat) (tracks : List SensorTrack) (w : Windows F) : Prop where
  track : findOrCreateTrack s.tracks obs.sensorId = some (i, tracks)
  windows : w =
    let admitted := obicallJournalAdmit s.cfg
      (tracks.getD i (.fresh obs.sensorId)) obs (computePendingDepth s)
    let entry : RingEntry F := ⟨s.nextWindowSeq, admitted.1, obs⟩
    { pipelineId := s.pipelineId
      cfg := s.cfg
      tracks := tracks.set i admitted.2
      ring := Function.update s.ring (slot ringCapacity s.nextWindowSeq) entry
      ringHead := s.nextWindowSeq
      nextWindowSeq := s.nextWindowSeq + 1
      records := s.records ++ [entry] }

/-- An admission assigns the next window, or finds the track table full
and changes nothing. -/
theorem admitLocked_windows (s : JournalState F) (obs : Observation F)
    (now : Int64) (written : Written) :
    (findOrCreateTrack s.tracks obs.sensorId = none
      ∧ (admitLocked s obs now written).2 = s)
    ∨ ∃ i tracks, Assigns s obs i tracks
        (admitLocked s obs now written).2.windows := by
  unfold admitLocked
  split
  next h => exact .inl ⟨h, rfl⟩
  next i tracks h => exact .inr ⟨i, tracks, h, rfl⟩

/-- An admission touches no connection and sends nothing. -/
theorem admitLocked_conns (s : JournalState F) (obs : Observation F)
    (now : Int64) (written : Written) :
    (admitLocked s obs now written).2.conns = s.conns
    ∧ (admitLocked s obs now written).2.frames = s.frames
    ∧ (admitLocked s obs now written).2.pairs = s.pairs := by
  unfold admitLocked
  split
  · exact ⟨rfl, rfl, rfl⟩
  · exact ⟨rfl, rfl, rfl⟩

-- ============================================================== threads

/-- The slot whose thread an event runs. -/
def JournalEvent.slot : JournalEvent → Option (Fin maxConnections)
  | .accept => none
  | .hello i _ | .request i _ | .submit i _ _ _ _ | .hangup i | .poll i _
  | .sendData i _ | .sendDecision i _ _ | .advance i => some i

/-- An event of the sending loop that may send. -/
def JournalEvent.sends : JournalEvent → Bool
  | .poll _ _ | .sendData _ _ | .sendDecision _ _ _ => true
  | _ => false

/-- The thread is past its replay request. -/
def ConnPc.streaming : ConnPc F → Bool
  | .poll | .data _ | .decision _ _ | .advance => true
  | _ => false

def ConnSlot.streaming (c : ConnSlot F) : Bool := c.inUse && c.pc.streaming

omit [DoubleBits F] [DoubleArith F] in
theorem ConnSlot.at_eq_some {c : ConnSlot F} {pc : ConnPc F}
    (h : c.at = some pc) : c.inUse = true ∧ c.pc = pc := by
  unfold ConnSlot.at at h
  split at h
  next hin => exact ⟨hin, Option.some.inj h⟩
  · cases h

omit [DoubleBits F] [DoubleArith F] in
/-- A taken slot moved to `pc` is at `pc`. -/
theorem ConnSlot.at_of_inUse {c : ConnSlot F} {pc : ConnPc F}
    (hin : c.inUse = true) (hpc : c.pc = pc) : c.at = some pc := by
  unfold ConnSlot.at
  rw [if_pos hin, hpc]

omit [DoubleBits F] [DoubleArith F] in
theorem ConnSlot.streaming_of_at {c : ConnSlot F} {pc : ConnPc F}
    (h : c.at = some pc) : c.streaming = pc.streaming := by
  obtain ⟨hin, hpc⟩ := ConnSlot.at_eq_some h
  unfold ConnSlot.streaming
  rw [hin, hpc, Bool.true_and]

omit [DoubleBits F] [DoubleArith F] in
theorem not_streaming {c : ConnSlot F} {pc : ConnPc F} (h : c.at = some pc)
    (hpc : pc.streaming = false) : c.streaming = false := by
  rw [ConnSlot.streaming_of_at h, hpc]

omit [DoubleBits F] [DoubleArith F] in
theorem streaming_of_inUse {c : ConnSlot F} (h : c.streaming = true)
    {pc : ConnPc F} (hpc : pc.streaming = true) :
    ConnSlot.streaming { c with pc } = true := by
  rw [ConnSlot.streaming, Bool.and_eq_true] at h
  rw [ConnSlot.streaming, Bool.and_eq_true]
  exact ⟨h.1, hpc⟩

omit [DoubleBits F] [DoubleArith F] in
theorem conns_setConn_ne {s : JournalState F} {i j : Fin maxConnections}
    (h : j ≠ i) (c : ConnSlot F) : (s.setConn i c).conns j = s.conns j :=
  Function.update_of_ne h ..

omit [DoubleBits F] [DoubleArith F] in
theorem conns_setConn_self (s : JournalState F) (i : Fin maxConnections)
    (c : ConnSlot F) : (s.setConn i c).conns i = c :=
  Function.update_self ..

omit [DoubleBits F] [DoubleArith F] in
theorem release_setConn (s : JournalState F) (i : Fin maxConnections)
    (c : ConnSlot F) :
    (s.setConn i c).release i = s.setConn i { c with inUse := false } := by
  unfold JournalState.release JournalState.setConn
  dsimp only
  rw [Function.update_self, Function.update_idem]

-- ================================================================ slots

/-- What an event can make of slot `j`. -/
inductive SlotStep (s : JournalState F) (j : Fin maxConnections) :
    JournalEvent → ConnSlot F → Prop
  | same (e : JournalEvent) : SlotStep s j e (s.conns j)
  /-- free, or not (yet) a broker with a replay request -/
  | outside (e : JournalEvent) (c : ConnSlot F)
      (h : c.at = none ∨ c.at = some .hello ∨ c.at = some .request
        ∨ c.at = some .worker) : SlotStep s j e c
  | opened (e : JournalEvent) (start : Nat) (hstart : 1 ≤ start)
      (h : (s.conns j).at = some .request) :
      SlotStep s j e
        { s.conns j with
          nextSeqToSend := max start s.oldestAvailable
          pc := .poll
          cursor := max start s.oldestAvailable
          start := start
          sent := [] }
  | caughtUp (e : JournalEvent) :
      SlotStep s j e { s.conns j with caughtUp := true }
  | copied (delivered : Bool) (h : (s.conns j).at = some .poll)
      (hmore : hasMore s j = true) :
      SlotStep s j (.poll j delivered)
        { s.conns j with
          pc := .data ⟨s.ring (slot ringCapacity (s.conns j).cursor),
            s.ringHead⟩ }
  | unsendable (e : JournalEvent) (copied : Copied F) (st : Status)
      (h : (s.conns j).at = some (.data copied))
      (henc : obicallWireEncodeObservation copied.entry.obs 1200
        = .error st) :
      SlotStep s j e
        { s.conns j with pc := .advance, cursor := (s.conns j).cursor + 1 }
  | dataSent (e : JournalEvent) (copied : Copied F) (buf : List UInt8)
      (h : (s.conns j).at = some (.data copied))
      (henc : obicallWireEncodeObservation copied.entry.obs 1200 = .ok buf) :
      SlotStep s j e { s.conns j with pc := .decision copied buf }
  | decisionSent (e : JournalEvent) (copied : Copied F) (buf : List UInt8)
      (h : (s.conns j).at = some (.decision copied buf)) :
      SlotStep s j e
        { s.conns j with
          pc := .advance
          cursor := (s.conns j).cursor + 1
          sent := (s.conns j).sent ++ [copied] }
  | stored (e : JournalEvent) (h : (s.conns j).at = some .advance) :
      SlotStep s j e
        { s.conns j with
          nextSeqToSend := (s.conns j).cursor
          pc := .poll }

omit [DoubleBits F] [DoubleArith F] in
/-- Setting slot `i` is a step of `i` and of no other slot. -/
theorem SlotStep.setConn [DoubleBits F] {s : JournalState F}
    {e : JournalEvent} {i : Fin maxConnections} {c : ConnSlot F}
    (h : SlotStep s i e c) (j : Fin maxConnections) :
    SlotStep s j e ((s.setConn i c).conns j) := by
  unfold JournalState.setConn
  dsimp only
  by_cases hij : j = i
  · rw [hij, Function.update_self]
    exact h
  · rw [Function.update_of_ne hij]
    exact .same e

-- ================================================================= logs

/-- What an event can add to the frames and to the pairs. -/
inductive LogStep (s : JournalState F) :
    JournalEvent → List SentFrame → List SentPair → Prop
  | quiet (e : JournalEvent) : LogStep s e [] []
  | replayEnd (e : JournalEvent) (sock : Nat) (delivered : Bool) :
      LogStep s e [⟨sock, msgReplayEnd, [], delivered⟩] []
  | data (e : JournalEvent) (i : Fin maxConnections) (copied : Copied F)
      (buf : List UInt8) (delivered : Bool)
      (h : (s.conns i).at = some (.data copied))
      (henc : obicallWireEncodeObservation copied.entry.obs 1200 = .ok buf) :
      LogStep s e [⟨(s.conns i).sock, msgReplayData, buf, delivered⟩] []
  | decision (i : Fin maxConnections) (copied : Copied F)
      (buf : List UInt8) (now : Int64) (delivered : Bool)
      (h : (s.conns i).at = some (.decision copied buf)) :
      LogStep s (.sendDecision i now delivered)
        [⟨(s.conns i).sock, msgAdmissionDecision,
          (copied.entry.decision s.pipelineId now).bytes, delivered⟩]
        [⟨(s.conns i).sock, copied.entry.windowSeq, buf,
          copied.entry.decision s.pipelineId now⟩]

/-- The logs of `s'` are those of `s` and what the event added. -/
def Logs (s : JournalState F) (e : JournalEvent) (s' : JournalState F) :
    Prop :=
  ∃ frames pairs, LogStep s e frames pairs
    ∧ s'.frames = s.frames ++ frames ∧ s'.pairs = s.pairs ++ pairs

omit [DoubleArith F] in
theorem Logs.quiet {s s' : JournalState F} {e : JournalEvent}
    (hf : s'.frames = s.frames) (hp : s'.pairs = s.pairs) : Logs s e s' :=
  ⟨[], [], .quiet e, by rw [hf, List.append_nil],
    by rw [hp, List.append_nil]⟩

-- =========================================================== the decision

omit [DoubleBits F] [DoubleArith F] in
/-- The decision always fits its buffer, so the second half of
`send_ring_entry` always sends. -/
theorem sendDecision_eq (s : JournalState F) (i : Fin maxConnections)
    (copied : Copied F) (buf : List UInt8) (now : Int64)
    (delivered : Bool) :
    sendDecision s i copied buf now delivered
      = { s.setConn i
            { s.conns i with
              pc := .advance
              cursor := (s.conns i).cursor + 1
              sent := (s.conns i).sent ++ [copied] } with
          frames := s.frames ++ [⟨(s.conns i).sock, msgAdmissionDecision,
            (copied.entry.decision s.pipelineId now).bytes, delivered⟩]
          pairs := s.pairs ++ [⟨(s.conns i).sock, copied.entry.windowSeq,
            buf, copied.entry.decision s.pipelineId now⟩] } := by
  have henc := obicallWireEncodeAdmissionDecision_eq
    (copied.entry.decision s.pipelineId now) (show 96 ≤ 256 by decide)
  unfold sendDecision
  simp only [henc]

-- ============================================================= one step

/-- What an event can make of the process. A thread sends frames only where
its event says so, and does not leave the sending loop. -/
inductive Stepped (s : JournalState F) : JournalEvent → JournalState F → Prop
  | same (e : JournalEvent) : Stepped s e s
  | refused : Stepped s .accept { s with socks := s.socks + 1 }
  | accepted (i : Fin maxConnections) (c : ConnSlot F)
      (h : c.at = some .hello) :
      Stepped s .accept { s.setConn i c with socks := s.socks + 1 }
  | admitted {e : JournalEvent} (obs : Observation F) (now : Int64)
      (written : Written) (h : s.submitted e = some obs) :
      Stepped s e (admitLocked s obs now written).2
  | thread {e : JournalEvent} (i : Fin maxConnections) (c : ConnSlot F)
      (frames : List SentFrame) (pairs : List SentPair)
      (he : e.slot = some i) (hslot : SlotStep s i e c)
      (hlog : LogStep s e frames pairs)
      (hsends : e.sends = false → frames = [])
      (hstays : (s.conns i).streaming = true → c.streaming = true) :
      Stepped s e
        { s.setConn i c with
          frames := s.frames ++ frames
          pairs := s.pairs ++ pairs }

namespace Stepped

variable {s : JournalState F} {e : JournalEvent} {i : Fin maxConnections}
  {c : ConnSlot F}

/-- A thread that sends a frame without a decision. -/
theorem framed {frames : List SentFrame} (he : e.slot = some i)
    (hslot : SlotStep s i e c) (hlog : LogStep s e frames [])
    (hsends : e.sends = false → frames = [])
    (hstays : (s.conns i).streaming = true → c.streaming = true) :
    Stepped s e { s.setConn i c with frames := s.frames ++ frames } := by
  have h := Stepped.thread i c frames [] he hslot hlog hsends hstays
  rw [List.append_nil] at h
  exact h

/-- A thread that sends nothing. -/
theorem quiet (he : e.slot = some i) (hslot : SlotStep s i e c)
    (hstays : (s.conns i).streaming = true → c.streaming = true) :
    Stepped s e (s.setConn i c) := by
  have h := Stepped.framed he hslot (.quiet e) (fun _ => rfl) hstays
  rw [List.append_nil] at h
  exact h

/-- A thread that is not in the sending loop yet, or that returns. -/
theorem outside {pc : ConnPc F} (he : e.slot = some i)
    (hat : (s.conns i).at = some pc) (hpc : pc.streaming = false)
    (h : c.at = none ∨ c.at = some .hello ∨ c.at = some .request
      ∨ c.at = some .worker) : Stepped s e (s.setConn i c) := by
  refine .quiet he (.outside e c h) fun hstream => ?_
  rw [not_streaming hat hpc] at hstream
  cases hstream

theorem openReplay (hat : (s.conns i).at = some .request)
    (frame : Option (UInt8 × List UInt8)) :
    Stepped s (.request i frame) (openReplay s i frame) := by
  unfold Obicall.openReplay
  split
  · exact .outside rfl hat rfl (.inl rfl)
  split
  · exact .outside rfl hat rfl (.inl rfl)
  split
  next req _ =>
    refine .quiet rfl (.opened _ _ (Nat.le_max_right _ _) hat) fun hstream => ?_
    rw [not_streaming hat rfl] at hstream
    cases hstream
  · exact .outside rfl hat rfl (.inl rfl)

theorem pollRing (hat : (s.conns i).at = some .poll) (delivered : Bool) :
    Stepped s (.poll i delivered) (pollRing s i delivered) := by
  unfold Obicall.pollRing
  dsimp only
  split
  next hmore =>
    exact .quiet rfl (.copied delivered hat hmore)
      fun hstream => streaming_of_inUse hstream rfl
  split
  · exact .same _
  · exact .framed rfl (.caughtUp _) (.replayEnd _ _ delivered)
      (fun h => by cases h) id

theorem sendData {copied : Copied F}
    (hat : (s.conns i).at = some (.data copied)) (delivered : Bool) :
    Stepped s (.sendData i delivered) (sendData s i copied delivered) := by
  unfold Obicall.sendData
  split
  next st henc =>
    exact .quiet rfl (.unsendable _ copied st hat henc)
      fun hstream => streaming_of_inUse hstream rfl
  next buf henc =>
    exact .framed rfl (.dataSent _ copied buf hat henc)
      (.data _ i copied buf delivered hat henc) (fun h => by cases h)
      fun hstream => streaming_of_inUse hstream rfl

end Stepped

/-- Every event makes a step of the process. -/
theorem stepped (s : JournalState F) (e : JournalEvent) :
    Stepped s e (s.step e) := by
  unfold JournalState.step
  cases e with
  | accept =>
      dsimp only
      split
      · exact .refused
      next i _ => exact .accepted i _ rfl
  | hello i role =>
      dsimp only
      split
      next hat => exact .outside rfl hat rfl (.inl rfl)
      next role hat =>
        have hin := (ConnSlot.at_eq_some hat).1
        split
        · have hrequest := ConnSlot.at_of_inUse
            (c := { s.conns i with role := role, pc := .request }) hin rfl
          exact .outside rfl hat rfl (.inr (.inr (.inl hrequest)))
        split
        · have hworker := ConnSlot.at_of_inUse
            (c := { s.conns i with role := role, pc := .worker }) hin rfl
          exact .outside rfl hat rfl (.inr (.inr (.inr hworker)))
        · rw [release_setConn]
          exact .outside rfl hat rfl (.inl rfl)
      · exact .same _
  | request i frame =>
      dsimp only
      split
      next hat => exact .openReplay hat frame
      · exact .same _
  | submit i msgType payload now written =>
      dsimp only
      split
      next obs hsub => exact .admitted obs now written hsub
      · exact .same _
  | hangup i =>
      dsimp only
      split
      next hat => exact .outside rfl hat rfl (.inl rfl)
      · exact .same _
  | poll i delivered =>
      dsimp only
      split
      next hat => exact .pollRing hat delivered
      · exact .same _
  | sendData i delivered =>
      dsimp only
      split
      next copied hat => exact .sendData hat delivered
      · exact .same _
  | sendDecision i now delivered =>
      dsimp only
      split
      next copied buf hat =>
        rw [sendDecision_eq]
        exact .thread i _ _ _ rfl (.decisionSent _ copied buf hat)
          (.decision i copied buf now delivered hat) (fun h => by cases h)
          fun hstream => streaming_of_inUse hstream rfl
      · exact .same _
  | advance i =>
      dsimp only
      split
      next hat =>
        exact .quiet rfl (.stored _ hat)
          fun hstream => streaming_of_inUse hstream rfl
      · exact .same _

-- ======================================================= what follows of it

/-- An event that brings no observation leaves the windows alone. -/
theorem step_windows {s : JournalState F} {e : JournalEvent}
    (h : s.submitted e = none) : (s.step e).windows = s.windows := by
  have hstep := stepped s e
  generalize s.step e = s' at hstep ⊢
  cases hstep with
  | same => rfl
  | refused => rfl
  | accepted => rfl
  | admitted obs now written hsub =>
      rw [h] at hsub
      cases hsub
  | thread => rfl

/-- The same in one step of the process: the windows stay, or one window
is assigned. -/
theorem step_assigns (s : JournalState F) (e : JournalEvent) :
    (s.step e).windows = s.windows
    ∨ ∃ obs i tracks, s.submitted e = some obs
        ∧ Assigns s obs i tracks (s.step e).windows := by
  cases h : s.submitted e with
  | none => exact .inl (step_windows h)
  | some obs =>
      obtain ⟨now, written, hstep⟩ := step_submitted h
      rw [hstep]
      rcases admitLocked_windows s obs now written with ⟨_, hsame⟩ | hassign
      · rw [hsame]
        exact .inl rfl
      · obtain ⟨i, tracks, hassign⟩ := hassign
        exact .inr ⟨obs, i, tracks, rfl, hassign⟩

/-- Every event takes every slot through a `SlotStep`. -/
theorem step_slot (s : JournalState F) (e : JournalEvent)
    (j : Fin maxConnections) : SlotStep s j e ((s.step e).conns j) := by
  have hstep := stepped s e
  generalize s.step e = s' at hstep ⊢
  cases hstep with
  | same => exact .same e
  | refused => exact .same _
  | accepted i c h => exact .setConn (.outside _ c (.inr (.inl h))) j
  | admitted obs now written =>
      rw [(admitLocked_conns s obs now written).1]
      exact .same e
  | thread i c frames pairs _ hslot => exact hslot.setConn j

/-- Every event adds to the logs by a `LogStep`. -/
theorem step_logs (s : JournalState F) (e : JournalEvent) :
    Logs s e (s.step e) := by
  have hstep := stepped s e
  generalize s.step e = s' at hstep ⊢
  cases hstep with
  | same => exact .quiet rfl rfl
  | refused => exact .quiet rfl rfl
  | accepted => exact .quiet rfl rfl
  | admitted obs now written =>
      obtain ⟨-, hframes, hpairs⟩ := admitLocked_conns s obs now written
      exact .quiet hframes hpairs
  | thread i c frames pairs _ _ hlog => exact ⟨frames, pairs, hlog, rfl, rfl⟩

end Obicall
