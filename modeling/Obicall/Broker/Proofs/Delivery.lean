/-
From the journal's ring to the broker's queue over one connection, when
sends may fail.

The connection is a FIFO of the frames whose `osal_send_frame` call
succeeded; a failed call sends nothing and the journal goes on with the
next frame on the same connection, although the interface asks it to
close. The reader pairs a decision with the observation that arrived
last, so a decision whose own observation was lost can meet an
observation that still waits for its lost decision.

# The condition

When a decision is delivered, the last data or decision frame delivered
before it on that connection, if it is a data frame, carries the
observation of that very window (`ownData`). It does whenever that
window's own data frame was delivered. Then every entry queued is the
journal's record of its window (`queued_recorded_of_ownData`).
-/
import Mathlib.Data.List.Basic
import Obicall.Broker.Intake
import Obicall.Journald.Proofs.Subscription

namespace Obicall

open Lib.Run

variable {F : Type} [DoubleBits F]

-- ============================================================= statement

/-- The frames a connection has delivered, as the reader sees them. -/
def JournalState.deliveredTo (s : JournalState F) (sock : Nat) :
    List (UInt8 × List UInt8) :=
  (s.frames.filter fun f => f.sock = sock && f.delivered).map fun f =>
    (f.msgType, f.payload)

/-- A recorded entry as the reader queues it. -/
def RingEntry.queued (e : RingEntry F) : QueueEntry F where
  windowSeq := UInt64.ofNat e.windowSeq
  obs := e.obs
  admitted := if e.admissionReason = .admitOk then 1 else 0

/-- Whatever a reader has received of its connection so far, every entry
it queued is the journal's record of that window. -/
def JournalState.QueuedRecorded (s : JournalState F) : Prop :=
  ∀ sock, ∀ received, received <+: s.deliveredTo sock →
    ∀ q ∈ ((Reader.start F).frames received).1,
      ∃ e ∈ s.records, q = e.queued

/-- The last data or decision frame of a list. -/
def lastPaired (fs : List (UInt8 × List UInt8)) :
    Option (UInt8 × List UInt8) :=
  (fs.filter fun f =>
    f.1 = msgReplayData || f.1 = msgAdmissionDecision).getLast?

/-- A decision that is delivered does not meet the observation of another
window. -/
def ownData (s : JournalState F) : JournalEvent → Bool
  | .sendDecision i _ true =>
      match (s.conns i).at with
      | some (.decision _ buf) =>
          match lastPaired (s.deliveredTo (s.conns i).sock) with
          | some (msgType, payload) =>
              msgType != msgReplayData || payload == buf
          | none => true
      | _ => true
  | _ => true

-- ============================================================ the reader

/-- What a reader has queued is recorded, and what it holds is the last
data frame it received, if nothing was decided since. -/
structure Received (records : List (RingEntry F))
    (fs : List (UInt8 × List UInt8)) : Prop where
  queued : ∀ q ∈ ((Reader.start F).frames fs).1, ∃ e ∈ records, q = e.queued
  pending : ((Reader.start F).frames fs).2.havePending = true →
    ∃ payload, lastPaired fs = some (msgReplayData, payload)
      ∧ obicallWireDecodeObservation payload
        = (.ok, ((Reader.start F).frames fs).2.pendingObs)

theorem Received.nil (records : List (RingEntry F)) :
    Received records [] :=
  ⟨fun _ hq => (nomatch hq), fun h => (nomatch h)⟩

theorem Received.mono {records records' : List (RingEntry F)}
    {fs : List (UInt8 × List UInt8)} (h : Received records fs)
    (hsub : ∀ e ∈ records, e ∈ records') : Received records' fs where
  queued q hq := by
    obtain ⟨e, he, hqe⟩ := h.queued q hq
    exact ⟨e, hsub e he, hqe⟩
  pending := h.pending

theorem lastPaired_snoc (fs : List (UInt8 × List UInt8))
    (f : UInt8 × List UInt8) :
    lastPaired (fs ++ [f])
      = if f.1 = msgReplayData ∨ f.1 = msgAdmissionDecision then some f
        else lastPaired fs := by
  unfold lastPaired
  rw [List.filter_append]
  by_cases hf : f.1 = msgReplayData ∨ f.1 = msgAdmissionDecision
  · have hkeep : [f].filter (fun f => decide (f.1 = msgReplayData)
        || decide (f.1 = msgAdmissionDecision)) = [f] := by
      simp [hf]
    rw [if_pos hf, hkeep, List.getLast?_append]
    rfl
  · have hdrop : [f].filter (fun f => decide (f.1 = msgReplayData)
        || decide (f.1 = msgAdmissionDecision)) = [] := by
      simp only [not_or] at hf
      simp [hf]
    rw [if_neg hf, hdrop, List.append_nil]

/-- One more frame, after all those received. -/
theorem frames_snoc (fs : List (UInt8 × List UInt8))
    (f : UInt8 × List UInt8) :
    (Reader.start F).frames (fs ++ [f])
      = (((Reader.start F).frames fs).1
          ++ (((Reader.start F).frames fs).2.frame f.1 f.2).1.toList,
        (((Reader.start F).frames fs).2.frame f.1 f.2).2) := by
  rw [Reader.frames_append, Reader.frames_cons]
  show (_ ++ (_ ++ []), _) = _
  rw [List.append_nil]
  rfl

/-- A data frame is kept, whatever was there before. -/
theorem Received.data {records : List (RingEntry F)}
    {fs : List (UInt8 × List UInt8)} (h : Received records fs)
    {payload : List UInt8} {obs : Observation F}
    (hdec : obicallWireDecodeObservation payload = (.ok, obs)) :
    Received records (fs ++ [(msgReplayData, payload)]) := by
  have hframe : ∀ r : Reader F, r.frame msgReplayData payload
      = (none, ⟨obs, true⟩) := by
    intro r
    unfold Reader.frame
    rw [if_pos rfl, hdec]
    rfl
  constructor
  · rw [frames_snoc, hframe]
    intro q hq
    rw [Option.toList_none, List.append_nil] at hq
    exact h.queued q hq
  · rw [frames_snoc, hframe]
    intro _
    refine ⟨payload, ?_, hdec⟩
    rw [lastPaired_snoc, if_pos (.inl rfl)]

/-- A decision is paired with the observation of its own window, or with
none. -/
theorem Received.decision {records : List (RingEntry F)}
    {fs : List (UInt8 × List UInt8)} (h : Received records fs)
    {e : RingEntry F} (he : e ∈ records) {buf : List UInt8}
    (hbuf : obicallWireDecodeObservation buf = (.ok, e.obs))
    (hown : ∀ payload, lastPaired fs = some (msgReplayData, payload) →
      payload = buf) (pipelineId : PipelineId) (now : Int64) :
    Received records
      (fs ++ [(msgAdmissionDecision, (e.decision pipelineId now).bytes)]) := by
  have hframe : ∀ r : Reader F, ((Reader.start F).frames fs).2 = r →
      r.frame msgAdmissionDecision (e.decision pipelineId now).bytes
        = (if r.havePending then some e.queued else none,
          { r with havePending := false }) := by
    intro r hr
    have hpending := h.pending
    rw [hr] at hpending
    unfold Reader.frame
    rw [if_neg (by decide)]
    cases hp : r.havePending with
    | false =>
        have hsame : ({ r with havePending := false } : Reader F) = r := by
          rw [← hp]
        rw [if_neg (by simp), hsame]
        rfl
    | true =>
        obtain ⟨payload, hlast, hdec⟩ := hpending hp
        have hobs : r.pendingObs = e.obs := by
          rw [hown payload hlast, hbuf] at hdec
          injection hdec with _ hobs
          exact hobs.symm
        rw [if_pos (by rfl), obicallWireDecodeAdmissionDecision_bytes]
        dsimp only
        rw [hobs]
        rfl
  have hsnoc := frames_snoc fs
    (msgAdmissionDecision, (e.decision pipelineId now).bytes) (F := F)
  rw [hframe _ rfl] at hsnoc
  constructor
  · rw [hsnoc]
    intro q hq
    rcases List.mem_append.mp hq with hq | hq
    · exact h.queued q hq
    · cases hp : ((Reader.start F).frames fs).2.havePending with
      | false =>
          rw [hp] at hq
          cases hq
      | true =>
          rw [hp] at hq
          exact ⟨e, he, List.mem_singleton.mp hq⟩
  · rw [hsnoc]
    intro hno
    cases hno

/-- Other frames are not the reader's. -/
theorem Received.replayEnd {records : List (RingEntry F)}
    {fs : List (UInt8 × List UInt8)} (h : Received records fs) :
    Received records (fs ++ [(msgReplayEnd, [])]) := by
  have hframe : ∀ r : Reader F, r.frame msgReplayEnd [] = (none, r) := by
    intro r
    unfold Reader.frame
    rw [if_neg (by decide), if_neg (by simp [msgReplayEnd,
      msgAdmissionDecision])]
  constructor
  · rw [frames_snoc, hframe]
    intro q hq
    rw [Option.toList_none, List.append_nil] at hq
    exact h.queued q hq
  · rw [frames_snoc, hframe, lastPaired_snoc, if_neg (by decide)]
    exact h.pending

-- ========================================================= the connection

omit [DoubleBits F] in
theorem deliveredTo_append {s s' : JournalState F} {fs : List SentFrame}
    (h : s'.frames = s.frames ++ fs) (sock : Nat) :
    s'.deliveredTo sock = s.deliveredTo sock
      ++ (fs.filter fun f => f.sock = sock && f.delivered).map fun f =>
        (f.msgType, f.payload) := by
  unfold JournalState.deliveredTo
  rw [h, List.filter_append, List.map_append]

/-- Every reader is as it should be. -/
def Deliveries (s : JournalState F) : Prop :=
  ∀ sock, Received s.records (s.deliveredTo sock)

/-- One more frame on one connection: every reader that receives it is
still as it should be. -/
theorem Deliveries.snoc {s s' : JournalState F} (h : Deliveries s)
    {f : SentFrame} (hframes : s'.frames = s.frames ++ [f])
    (hf : f.delivered = true →
      Received s.records (s.deliveredTo f.sock ++ [(f.msgType, f.payload)]))
    (hrecords : ∀ e ∈ s.records, e ∈ s'.records) : Deliveries s' := by
  intro sock
  rw [deliveredTo_append hframes]
  by_cases hmine : f.sock = sock ∧ f.delivered = true
  · obtain ⟨hsock, hdelivered⟩ := hmine
    have hkeep : [f].filter (fun f => decide (f.sock = sock) && f.delivered)
        = [f] := by
      simp [hsock, hdelivered]
    rw [hkeep, List.map_singleton, ← hsock]
    exact (hf hdelivered).mono hrecords
  · have hdrop : [f].filter (fun f => decide (f.sock = sock) && f.delivered)
        = [] := by
      simpa using hmine
    rw [hdrop, List.map_nil, List.append_nil]
    exact (h sock).mono hrecords

variable [DoubleArith F]

/-- One event, when its decision does not meet another window's
observation. -/
theorem Deliveries.step {s : JournalState F} (hrec : Recorded s)
    (h : Deliveries s) {e : JournalEvent} (hown : ownData s e = true) :
    Deliveries (s.step e) := by
  have hmem : ∀ r ∈ s.records, r ∈ (s.step e).records := fun _ hr =>
    mem_records_step e hr
  obtain ⟨frames, pairs, hlog, hframes, _⟩ := step_logs s e
  cases hlog with
  | quiet =>
      intro sock
      rw [deliveredTo_append hframes]
      exact (List.append_nil _).symm ▸ (h sock).mono hmem
  | replayEnd _ sock delivered =>
      exact h.snoc hframes (fun _ => (h sock).replayEnd) hmem
  | data _ i copied buf delivered hat henc =>
      have hcan := hrec.windows.canonical _ ((hrec.slots i).data copied hat)
      have hdec : obicallWireDecodeObservation buf
          = (.ok, copied.entry.obs) := by
        rw [(encodable_of_encode_ok henc).2,
          obicallWireDecodeObservation_bytes hcan.encodable, hcan.normal]
      exact h.snoc hframes (fun _ => (h _).data hdec) hmem
  | decision i copied buf now delivered hat =>
      obtain ⟨hcopied, henc⟩ := (hrec.slots i).decision copied buf hat
      have hcan := hrec.windows.canonical _ hcopied
      have hdec : obicallWireDecodeObservation buf
          = (.ok, copied.entry.obs) := by
        rw [(encodable_of_encode_ok henc).2,
          obicallWireDecodeObservation_bytes hcan.encodable, hcan.normal]
      refine h.snoc hframes (fun hdelivered => ?_) hmem
      dsimp only at hdelivered
      rw [hdelivered] at hown
      refine (h _).decision hcopied hdec (fun payload hlast => ?_) _ _
      unfold ownData at hown
      simp only [hat, hlast] at hown
      simpa using hown

omit [DoubleArith F] in
/-- What is true of a whole reader is true of what it has queued after
any of its frames. -/
theorem Deliveries.queuedRecorded {s : JournalState F} (h : Deliveries s) :
    s.QueuedRecorded := by
  intro sock received hprefix q hq
  obtain ⟨rest, hrest⟩ := hprefix
  apply (h sock).queued
  rw [← hrest, Reader.frames_append]
  exact List.mem_append_left _ hq

/-- While no delivered decision meets the observation of another window,
everything a broker queues is what the journal recorded. -/
theorem queued_recorded_of_ownData (pipelineId : List UInt8)
    (cfg : JournalConfig) (segmentFile : Option (List UInt8))
    (es : List JournalEvent)
    (h : Meets JournalState.step (fun s e => ownData s e = true)
      (journaldMain (F := F) pipelineId cfg segmentFile) es) :
    (journalRun (journaldMain (F := F) pipelineId cfg segmentFile)
      es).QueuedRecorded := by
  have hinit : Recorded (journaldMain (F := F) pipelineId cfg segmentFile)
      ∧ Deliveries (journaldMain (F := F) pipelineId cfg segmentFile) :=
    ⟨Recorded.init pipelineId cfg segmentFile, fun _ => Received.nil _⟩
  have hrun : Recorded
      (journalRun (journaldMain (F := F) pipelineId cfg segmentFile) es)
      ∧ Deliveries
        (journalRun (journaldMain (F := F) pipelineId cfg segmentFile) es) :=
    run_inv_of_meets
      (P := fun s : JournalState F => Recorded s ∧ Deliveries s)
      (fun _ e hs he => ⟨hs.1.step e, hs.2.step hs.1 he⟩) hinit h
  exact hrun.2.queuedRecorded

-- ======================================================= concrete runs

/-- Two windows on a broker's connection; each of the four sends is
delivered or lost as told. -/
def twoWindows (data₁ decision₁ data₂ decision₂ : Bool) :
    List JournalEvent :=
  oneWorker ++ oneBroker ++ [submitFrom 1 1 1, submitFrom 1 2 2,
    .poll 1 true, .sendData 1 data₁, .sendDecision 1 0 decision₁, .advance 1,
    .poll 1 true, .sendData 1 data₂, .sendDecision 1 0 decision₂]

/-- Both frames of the first window lost, both of the second
delivered. -/
theorem queued_recorded_wholeWindowLost :
    (journalRun defaultJournal
      (twoWindows false false true true)).QueuedRecorded :=
  queued_recorded_of_ownData _ _ _ _ (by decide +kernel)

/-- The decision of the first window and the observation of the second
are lost: the reader queues window 2 with the observation of
window 1. -/
theorem lostBetween_not_recorded :
    ¬ (journalRun defaultJournal
      (twoWindows true false false true)).QueuedRecorded := by
  intro h
  have hqueued : ((Reader.start Binary64).frames
      ((journalRun defaultJournal
        (twoWindows true false false true)).deliveredTo 1)).1.map
        (fun q => (q.windowSeq, q.obs.sequence)) = [(2, 1)] := by
    decide +kernel
  have hrecorded : (journalRun defaultJournal
      (twoWindows true false false true)).records.map
        (fun e => (UInt64.ofNat e.windowSeq, e.obs.sequence))
      = [(1, 1), (2, 2)] := by
    decide +kernel
  have hq : ((2, 1) : UInt64 × UInt64) ∈ ((Reader.start Binary64).frames
      ((journalRun defaultJournal
        (twoWindows true false false true)).deliveredTo 1)).1.map
        (fun q => (q.windowSeq, q.obs.sequence)) := by
    rw [hqueued]
    exact List.mem_singleton.mpr rfl
  obtain ⟨q, hq, hq21⟩ := List.mem_map.mp hq
  obtain ⟨e, he, hqe⟩ := h 1 _ (List.prefix_refl _) q hq
  have hmem := List.mem_map_of_mem (f := fun e : RingEntry Binary64 =>
    (UInt64.ofNat e.windowSeq, e.obs.sequence)) he
  rw [hrecorded] at hmem
  rw [hqe] at hq21
  change (UInt64.ofNat e.windowSeq, e.obs.sequence) = (2, 1) at hq21
  rw [hq21] at hmem
  exact absurd hmem (by decide)

end Obicall
