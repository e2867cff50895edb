/-
The windows of one journal process: how the ring, the counters and the
record of what was admitted hang together, and what that says about the
pairs of frames sent.

# Identical windows

A slot of the ring is only ever read whole, and whatever is read was
recorded (`Lib.Ring.Written.mem`). So every pair of frames shows the one
recorded entry of its window, whoever receives it and however late
(`pairs_agree`).
-/
import Mathlib.Data.List.Basic
import Obicall.Journald.Proofs.Tracks

namespace Obicall

open Lib.Ring Lib.Run

variable {F : Type} [DoubleBits F] [DoubleArith F]

-- ============================================================== counters

/-- What holds between the counters, the ring and the records. -/
structure Windows.Inv (w : Windows F) : Prop where
  head : w.ringHead = w.records.length
  next : w.nextWindowSeq = w.records.length + 1
  numbered : ∀ k e, w.records[k]? = some e → e.windowSeq = k + 1
  canonical : ∀ e ∈ w.records, e.obs.Canonical
  ring : Lib.Ring.Written w.ring w.records

omit [DoubleArith F] in
theorem Windows.Inv.init (pipelineId : List UInt8) (cfg : JournalConfig)
    (segmentFile : Option (List UInt8)) :
    (journaldMain (F := F) pipelineId cfg segmentFile).windows.Inv where
  head := rfl
  next := rfl
  numbered k e h := by
    change ([] : List (RingEntry F))[k]? = some e at h
    rw [List.getElem?_nil] at h
    cases h
  canonical e h := nomatch h
  ring := Lib.Ring.Written.nil _

/-- Assigning the next window. -/
theorem Windows.Inv.assign {s : JournalState F} {obs : Observation F}
    {i : Nat} {tracks : List SensorTrack} {w : Windows F}
    (h : s.windows.Inv) (hobs : obs.Canonical)
    (hassign : Assigns s obs i tracks w) : w.Inv := by
  have hnext : s.nextWindowSeq = s.records.length + 1 := h.next
  rw [hassign.windows]
  refine ⟨?_, ?_, ?_, ?_, ?_⟩
  · dsimp only
    rw [List.length_append, List.length_singleton, hnext]
  · dsimp only
    rw [List.length_append, List.length_singleton, hnext]
  · dsimp only
    intro k e hk
    rcases Nat.lt_or_ge k s.records.length with hlt | hge
    · rw [List.getElem?_append_left hlt] at hk
      exact h.numbered k e hk
    · rw [List.getElem?_append_right hge] at hk
      have hk0 : k - s.records.length = 0 := by
        by_contra hne
        rw [List.getElem?_eq_none (by rw [List.length_singleton]; omega)]
          at hk
        cases hk
      rw [hk0] at hk
      cases hk
      dsimp only
      omega
  · dsimp only
    intro e he
    rcases List.mem_append.mp he with he | he
    · exact h.canonical e he
    · rw [List.mem_singleton.mp he]
      exact hobs
  · dsimp only
    rw [hnext]
    exact Lib.Ring.Written.push h.ring _

theorem Windows.Inv.step {s : JournalState F} (h : s.windows.Inv)
    (e : JournalEvent) : (s.step e).windows.Inv := by
  rcases step_assigns s e with hsame | ⟨obs, i, tracks, hsub, hassign⟩
  · rw [hsame]
    exact h
  · exact h.assign (canonical_of_submitted hsub) hassign

/-- Records are only ever added to. -/
theorem step_records (s : JournalState F) (e : JournalEvent) :
    ∃ es, (s.step e).records = s.records ++ es := by
  rcases step_assigns s e with hsame | ⟨obs, i, tracks, _, hassign⟩
  · refine ⟨[], ?_⟩
    rw [List.append_nil]
    exact congrArg Windows.records hsame
  · exact ⟨_, congrArg Windows.records hassign.windows⟩

theorem mem_records_step {s : JournalState F} (e : JournalEvent)
    {r : RingEntry F} (h : r ∈ s.records) : r ∈ (s.step e).records := by
  obtain ⟨es, hes⟩ := step_records s e
  rw [hes]
  exact List.mem_append_left _ h

/-- The pipeline's name is given at the start. -/
theorem step_pipelineId (s : JournalState F) (e : JournalEvent) :
    (s.step e).pipelineId = s.pipelineId := by
  rcases step_assigns s e with hsame | ⟨obs, i, tracks, _, hassign⟩
  · exact congrArg Windows.pipelineId hsame
  · exact congrArg Windows.pipelineId hassign.windows

/-- What `admit_locked` recorded for a window. -/
def JournalState.recorded (s : JournalState F) (windowSeq : Nat) :
    Option (RingEntry F) := s.records[windowSeq - 1]?

omit [DoubleArith F] in
/-- A recorded entry is the record of its own window. -/
theorem Windows.Inv.recorded {s : JournalState F} (h : s.windows.Inv)
    {e : RingEntry F} (he : e ∈ s.records) :
    s.recorded e.windowSeq = some e := by
  obtain ⟨k, hk⟩ := List.mem_iff_getElem?.mp he
  have hseq := h.numbered k e hk
  unfold JournalState.recorded
  rw [hseq, Nat.add_sub_cancel]
  exact hk

omit [DoubleArith F] in
/-- The slot of a window shows the last window of its class. -/
theorem Windows.Inv.slot_windowSeq {w : Windows F} (h : w.Inv) {p : Nat}
    (hp : 1 ≤ p) (hle : p ≤ w.ringHead) :
    (w.ring (slot ringCapacity p)).windowSeq
      = latest ringCapacity p w.ringHead := by
  rw [h.head] at hle ⊢
  have hseq := h.numbered _ _ (h.ring p hp hle)
  have := le_latest ringCapacity p w.records.length
  omega

-- ===================================================== identical windows

/-- The pair of frames shows this entry. -/
structure SentPair.Shows (p : SentPair) (pipelineId : PipelineId)
    (e : RingEntry F) : Prop where
  windowSeq : p.windowSeq = e.windowSeq
  payload : p.payload = e.obs.bytes
  decision : ∃ now, p.decision = e.decision pipelineId now

/-- A decision without the time it was sent at. -/
def MsgAdmissionDecision.timeless (d : MsgAdmissionDecision) :
    MsgAdmissionDecision := { d with decidedAtNs := 0 }

/-- Pairs with equal window numbers agree with each other and with the
record of that window. -/
structure JournalState.PairsAgree (s : JournalState F) : Prop where
  recorded : ∀ p ∈ s.pairs, ∃ e, s.recorded p.windowSeq = some e
    ∧ p.Shows s.pipelineId e
  same : ∀ p ∈ s.pairs, ∀ q ∈ s.pairs, p.windowSeq = q.windowSeq →
    p.payload = q.payload ∧ p.decision.timeless = q.decision.timeless

/-- What a thread holds of an entry was recorded. -/
structure ConnSlot.Holds (c : ConnSlot F) (records : List (RingEntry F)) :
    Prop where
  data : ∀ copied, c.at = some (.data copied) → copied.entry ∈ records
  decision : ∀ copied buf, c.at = some (.decision copied buf) →
    copied.entry ∈ records
    ∧ obicallWireEncodeObservation copied.entry.obs 1200 = .ok buf

/-- The process only ever holds and sends what was recorded. -/
structure Recorded (s : JournalState F) : Prop where
  windows : s.windows.Inv
  slots : ∀ j, (s.conns j).Holds s.records
  pairs : ∀ p ∈ s.pairs, ∃ e ∈ s.records, p.Shows s.pipelineId e

omit [DoubleArith F] in
/-- A thread that is at neither send holds nothing. -/
theorem ConnSlot.Holds.of_idle {c : ConnSlot F}
    {records : List (RingEntry F)}
    (hdata : ∀ copied, c.at ≠ some (.data copied))
    (hdecision : ∀ copied buf, c.at ≠ some (.decision copied buf)) :
    c.Holds records :=
  ⟨fun copied h => absurd h (hdata copied),
    fun copied buf h => absurd h (hdecision copied buf)⟩

omit [DoubleArith F] in
theorem ConnSlot.Holds.mono {c : ConnSlot F}
    {records records' : List (RingEntry F)} (h : c.Holds records)
    (hsub : ∀ e ∈ records, e ∈ records') : c.Holds records' :=
  ⟨fun copied hc => hsub _ (h.data copied hc), fun copied buf hc =>
    ⟨hsub _ (h.decision copied buf hc).1, (h.decision copied buf hc).2⟩⟩

omit [DoubleArith F] in
/-- One event on one slot: a copy is taken from the ring, everything else
hands on what was held. -/
theorem ConnSlot.Holds.step {s : JournalState F} {j : Fin maxConnections}
    {e : JournalEvent} {c : ConnSlot F} (hw : s.windows.Inv)
    (h : (s.conns j).Holds s.records) (hstep : SlotStep s j e c) :
    c.Holds s.records := by
  cases hstep with
  | same => exact h
  | outside _ _ hc =>
      refine .of_idle (fun copied hd => ?_) (fun copied buf hd => ?_)
      · rw [hd] at hc
        simp at hc
      · rw [hd] at hc
        simp at hc
  | opened _ start _ hat =>
      refine .of_idle (fun copied hd => ?_) (fun copied buf hd => ?_)
      · cases (ConnSlot.at_eq_some hd).2
      · cases (ConnSlot.at_eq_some hd).2
  | caughtUp => exact ⟨h.data, h.decision⟩
  | copied delivered hat hmore =>
      unfold hasMore at hmore
      simp only [Bool.and_eq_true, decide_eq_true_eq] at hmore
      have hle : (s.conns j).cursor ≤ s.records.length :=
        hw.head ▸ hmore.2
      refine ⟨fun copied hd => ?_, fun copied buf hd => ?_⟩
      · have hpc := (ConnSlot.at_eq_some hd).2
        cases hpc
        exact hw.ring.mem hmore.1 hle
      · cases (ConnSlot.at_eq_some hd).2
  | unsendable _ copied st hat _ =>
      refine .of_idle (fun copied hd => ?_) (fun copied buf hd => ?_)
      · cases (ConnSlot.at_eq_some hd).2
      · cases (ConnSlot.at_eq_some hd).2
  | dataSent _ copied buf hat henc =>
      refine ⟨fun copied' hd => ?_, fun copied' buf' hd => ?_⟩
      · cases (ConnSlot.at_eq_some hd).2
      · cases (ConnSlot.at_eq_some hd).2
        exact ⟨h.data copied hat, henc⟩
  | decisionSent _ copied buf hat =>
      refine .of_idle (fun copied hd => ?_) (fun copied buf hd => ?_)
      · cases (ConnSlot.at_eq_some hd).2
      · cases (ConnSlot.at_eq_some hd).2
  | stored _ hat =>
      refine .of_idle (fun copied hd => ?_) (fun copied buf hd => ?_)
      · cases (ConnSlot.at_eq_some hd).2
      · cases (ConnSlot.at_eq_some hd).2

omit [DoubleArith F] in
theorem Recorded.init (pipelineId : List UInt8) (cfg : JournalConfig)
    (segmentFile : Option (List UInt8)) :
    Recorded (journaldMain (F := F) pipelineId cfg segmentFile) where
  windows := Windows.Inv.init pipelineId cfg segmentFile
  slots _ := .of_idle (fun _ h => (nomatch h)) (fun _ _ h => (nomatch h))
  pairs _ h := nomatch h

theorem Recorded.step {s : JournalState F} (h : Recorded s)
    (e : JournalEvent) : Recorded (s.step e) where
  windows := h.windows.step e
  slots j := ((h.slots j).step h.windows (step_slot s e j)).mono
    fun _ hr => mem_records_step e hr
  pairs p hp := by
    obtain ⟨frames, pairs, hlog, _, hpairs⟩ := step_logs s e
    rw [step_pipelineId]
    rw [hpairs] at hp
    rcases List.mem_append.mp hp with hp | hp
    · obtain ⟨r, hr, hshows⟩ := h.pairs p hp
      exact ⟨r, mem_records_step e hr, hshows⟩
    · cases hlog with
      | quiet => cases hp
      | replayEnd => cases hp
      | data => cases hp
      | decision i copied buf now delivered hat =>
          obtain ⟨hmem, henc⟩ := (h.slots i).decision copied buf hat
          rw [List.mem_singleton.mp hp]
          exact ⟨copied.entry, mem_records_step _ hmem, rfl,
            (encodable_of_encode_ok henc).2, now, rfl⟩

omit [DoubleArith F] in
/-- Two pairs that show one entry differ in their times only. -/
theorem SentPair.Shows.timeless {p q : SentPair} {pipelineId : PipelineId}
    {e : RingEntry F} (hp : p.Shows pipelineId e)
    (hq : q.Shows pipelineId e) :
    p.payload = q.payload ∧ p.decision.timeless = q.decision.timeless := by
  obtain ⟨now, hdp⟩ := hp.decision
  obtain ⟨now', hdq⟩ := hq.decision
  refine ⟨hp.payload.trans hq.payload.symm, ?_⟩
  rw [hdp, hdq]
  rfl

omit [DoubleArith F] in
theorem Recorded.pairsAgree {s : JournalState F} (h : Recorded s) :
    s.PairsAgree := by
  have hrec : ∀ p ∈ s.pairs, ∃ e, s.recorded p.windowSeq = some e
      ∧ p.Shows s.pipelineId e := by
    intro p hp
    obtain ⟨e, he, hshows⟩ := h.pairs p hp
    refine ⟨e, ?_, hshows⟩
    rw [hshows.windowSeq]
    exact h.windows.recorded he
  refine ⟨hrec, fun p hp q hq hseq => ?_⟩
  obtain ⟨e, hep, hshows⟩ := hrec p hp
  obtain ⟨e', heq, hshows'⟩ := hrec q hq
  rw [hseq] at hep
  have hee : e' = e := Option.some.inj (heq.symm.trans hep)
  rw [hee] at hshows'
  exact hshows.timeless hshows'

/-- The process of a run, with what it holds and sends. -/
theorem recorded_run (pipelineId : List UInt8) (cfg : JournalConfig)
    (segmentFile : Option (List UInt8)) (es : List JournalEvent) :
    Recorded
      (journalRun (journaldMain (F := F) pipelineId cfg segmentFile) es) :=
  run_inv (fun _ e hs => hs.step e) (Recorded.init ..) es

/-- In every run, whatever is sent as one window is the same to every
subscriber, and is what was recorded for it. -/
theorem pairs_agree (pipelineId : List UInt8) (cfg : JournalConfig)
    (segmentFile : Option (List UInt8)) (es : List JournalEvent) :
    (journalRun (journaldMain (F := F) pipelineId cfg segmentFile)
      es).PairsAgree :=
  (recorded_run pipelineId cfg segmentFile es).pairsAgree

end Obicall
