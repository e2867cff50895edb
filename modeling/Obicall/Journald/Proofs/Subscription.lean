/-
What one subscriber is sent. Its cursor is moved up to the oldest
retained window when its replay opens, and from there it advances one
window at a time, reading the slot of its cursor whatever that slot
holds by then.

# Within a lap

While every copy is made less than a full lap behind the head, the slot
still holds the cursor's own window (`Lib.Ring.latest_of_lt`). So the
windows sent are consecutive from the opening cursor, and the only ones
missing were already evicted when the replay opened
(`ordered_of_keepsUp`).

# A lap behind

A subscriber that falls further behind afterwards is not moved up again.
It reads a window one lap ahead of its cursor, and comes to the older
windows after it (`lapped_not_ordered`).
-/
import Mathlib.Data.List.Range
import Obicall.Journald.Proofs.Windows

namespace Obicall

open Lib.Ring Lib.Run

variable {F : Type} [DoubleBits F] [DoubleArith F]

-- ============================================================= statement

/-- The copy a thread holds between its sends. -/
def ConnPc.holding : ConnPc F → Option (Copied F)
  | .data copied => some copied
  | .decision copied _ => some copied
  | _ => none

/-- The window numbers sent to the subscriber, in order. -/
def ConnSlot.sentWindows (c : ConnSlot F) : List Nat :=
  c.sent.map fun x => x.entry.windowSeq

/-- The windows sent increase from the start cursor, and a window left
out before one of them was out of the ring when that one was copied. -/
structure ConnSlot.Ordered (c : ConnSlot F) : Prop where
  increasing : c.sentWindows.Pairwise (· < ·)
  fromStart : ∀ w ∈ c.sentWindows, c.start ≤ w
  skipped : ∀ x ∈ c.sent, ∀ v, c.start ≤ v → v < x.entry.windowSeq →
    v ∉ c.sentWindows → v + ringCapacity ≤ x.head

/-- Every subscriber's windows are in order. -/
def JournalState.Ordered (s : JournalState F) : Prop :=
  ∀ j, (s.conns j).streaming = true → (s.conns j).Ordered

/-- The copy an event makes of the ring is of a window that is still in
it. -/
def keepsUp (s : JournalState F) : JournalEvent → Bool
  | .poll i _ =>
      match (s.conns i).at with
      | some .poll => !hasMore s i
          || s.ringHead < (s.conns i).cursor + ringCapacity
      | _ => true
  | _ => true

-- ============================================================== invariant

/-- The windows sent are consecutive from `first`, and those between the
start cursor and `first` were out of the ring when its head was `h₀`. -/
structure ConnSlot.Feed (c : ConnSlot F) (head first h₀ : Nat) : Prop where
  start_le : c.start ≤ first
  evicted : ∀ v, c.start ≤ v → v < first → v + ringCapacity ≤ h₀
  head_le : h₀ ≤ head
  sent : c.sentWindows = List.range' first c.sent.length
  heads : ∀ x ∈ c.sent, h₀ ≤ x.head
  cursor : c.cursor = first + c.sent.length
  held : ∀ copied, c.pc.holding = some copied →
    copied.entry.windowSeq = c.cursor ∧ h₀ ≤ copied.head

/-- Every streaming slot has such a feed. -/
def Feeds (s : JournalState F) : Prop :=
  ∀ j, (s.conns j).streaming = true →
    ∃ first h₀, (s.conns j).Feed s.ringHead first h₀

omit [DoubleBits F] [DoubleArith F] in
/-- The cursor a replay opens at, and what it leaves behind. -/
theorem evicted_of_lt_oldest {s : JournalState F} {start v : Nat}
    (hstart : 1 ≤ start) (hle : start ≤ v)
    (hlt : v < max start s.oldestAvailable) :
    v + ringCapacity ≤ s.ringHead := by
  unfold JournalState.oldestAvailable at hlt
  split at hlt
  · omega
  · omega

omit [DoubleBits F] [DoubleArith F] in
/-- Consecutive windows are in order. -/
theorem ConnSlot.Feed.ordered {c : ConnSlot F} {head first h₀ : Nat}
    (h : c.Feed head first h₀) : c.Ordered where
  increasing := by
    rw [h.sent]
    exact List.pairwise_lt_range'
  fromStart w hw := by
    rw [h.sent, List.mem_range'_1] at hw
    have := h.start_le
    omega
  skipped x hx v hv hlt hno := by
    have hxw : x.entry.windowSeq ∈ c.sentWindows :=
      List.mem_map_of_mem hx
    rw [h.sent, List.mem_range'_1] at hxw hno
    have hfirst : v < first := by omega
    have := h.evicted v hv hfirst
    have := h.heads x hx
    omega

omit [DoubleBits F] [DoubleArith F] in
/-- Sending a held window extends the run by one. -/
theorem ConnSlot.Feed.send {c c' : ConnSlot F} {head first h₀ : Nat}
    {copied : Copied F} (h : c.Feed head first h₀)
    (hheld : c.pc.holding = some copied) (hstart : c'.start = c.start)
    (hsent : c'.sent = c.sent ++ [copied]) (hcursor : c'.cursor = c.cursor + 1)
    (hpc : c'.pc = .advance) : c'.Feed head first h₀ := by
  obtain ⟨hseq, hhead⟩ := h.held copied hheld
  have hlen : c'.sent.length = c.sent.length + 1 := by
    rw [hsent, List.length_append, List.length_singleton]
  refine ⟨hstart ▸ h.start_le, hstart ▸ h.evicted, h.head_le, ?_, ?_, ?_, ?_⟩
  · have hwindows : c'.sentWindows
        = c.sentWindows ++ [copied.entry.windowSeq] := by
      unfold ConnSlot.sentWindows
      rw [hsent, List.map_append, List.map_singleton]
    rw [hwindows, h.sent, hlen, List.range'_concat, hseq, h.cursor,
      Nat.one_mul]
  · intro x hx
    rw [hsent] at hx
    rcases List.mem_append.mp hx with hx | hx
    · exact h.heads x hx
    · rw [List.mem_singleton.mp hx]
      exact hhead
  · rw [hcursor, hlen, h.cursor]
    omega
  · intro copied' hc
    rw [hpc] at hc
    cases hc

omit [DoubleArith F] in
/-- One event on one streaming slot. -/
theorem Feeds.slot {s : JournalState F} {j : Fin maxConnections}
    {e : JournalEvent} {c : ConnSlot F} (hrec : Recorded s)
    (h : Feeds s) (hcond : keepsUp s e = true) (hstep : SlotStep s j e c)
    (hc : c.streaming = true) : ∃ first h₀, c.Feed s.ringHead first h₀ := by
  cases hstep with
  | same => exact h j hc
  | outside _ _ hat =>
      -- the slot is not a subscriber's
      rcases hat with hat | hat | hat | hat
      · unfold ConnSlot.at at hat
        unfold ConnSlot.streaming at hc
        split at hat
        · cases hat
        next hin => simp [hin] at hc
      · rw [ConnSlot.streaming_of_at hat] at hc
        cases hc
      · rw [ConnSlot.streaming_of_at hat] at hc
        cases hc
      · rw [ConnSlot.streaming_of_at hat] at hc
        cases hc
  | opened _ start hstart hat =>
      refine ⟨max start s.oldestAvailable, s.ringHead, Nat.le_max_left _ _,
        fun v => evicted_of_lt_oldest hstart, le_rfl, rfl,
        fun x hx => (nomatch hx), rfl, fun _ hh => (nomatch hh)⟩
  | caughtUp =>
      obtain ⟨first, h₀, hf⟩ := h j hc
      exact ⟨first, h₀, hf.start_le, hf.evicted, hf.head_le, hf.sent,
        hf.heads, hf.cursor, hf.held⟩
  | copied delivered hat hmore =>
      have hstream : (s.conns j).streaming = true :=
        ConnSlot.streaming_of_at hat
      obtain ⟨first, h₀, hf⟩ := h j hstream
      -- the cursor's window is still in the ring, so its slot holds it
      have hlap : s.ringHead < (s.conns j).cursor + ringCapacity := by
        unfold keepsUp at hcond
        simp only [hat, hmore, Bool.not_true, Bool.false_or,
          decide_eq_true_eq] at hcond
        exact hcond
      unfold hasMore at hmore
      simp only [Bool.and_eq_true, decide_eq_true_eq] at hmore
      have hseq := hrec.windows.slot_windowSeq hmore.1 hmore.2
      refine ⟨first, h₀, hf.start_le, hf.evicted, hf.head_le, hf.sent,
        hf.heads, hf.cursor, fun copied hh => ?_⟩
      cases hh
      exact ⟨hseq.trans (latest_of_lt hmore.2 hlap), hf.head_le⟩
  | unsendable _ copied st hat henc =>
      -- every recorded observation fits the buffer
      have hmem := (hrec.slots j).data copied hat
      have hcan := hrec.windows.canonical _ hmem
      rw [obicallWireEncodeObservation_eq hcan.encodable, if_pos] at henc
      · cases henc
      · exact copied.entry.obs.length_bytes_le.trans (by decide)
  | dataSent _ copied buf hat henc =>
      have hstream : (s.conns j).streaming = true :=
        ConnSlot.streaming_of_at hat
      obtain ⟨first, h₀, hf⟩ := h j hstream
      have hpc := (ConnSlot.at_eq_some hat).2
      refine ⟨first, h₀, hf.start_le, hf.evicted, hf.head_le, hf.sent,
        hf.heads, hf.cursor, fun copied' hh => ?_⟩
      cases hh
      exact hf.held copied (by rw [hpc]; rfl)
  | decisionSent _ copied buf hat =>
      have hstream : (s.conns j).streaming = true :=
        ConnSlot.streaming_of_at hat
      obtain ⟨first, h₀, hf⟩ := h j hstream
      have hpc := (ConnSlot.at_eq_some hat).2
      exact ⟨first, h₀, hf.send (by rw [hpc]; rfl) rfl rfl rfl rfl⟩
  | stored _ hat =>
      have hstream : (s.conns j).streaming = true :=
        ConnSlot.streaming_of_at hat
      obtain ⟨first, h₀, hf⟩ := h j hstream
      exact ⟨first, h₀, hf.start_le, hf.evicted, hf.head_le, hf.sent,
        hf.heads, hf.cursor, fun _ hh => (nomatch hh)⟩

/-- The head never goes back. -/
theorem Recorded.ringHead_le {s : JournalState F} (h : Recorded s)
    (e : JournalEvent) : s.ringHead ≤ (s.step e).ringHead := by
  have hhead : s.ringHead = s.records.length := h.windows.head
  have hhead' : (s.step e).ringHead = (s.step e).records.length :=
    (h.step e).windows.head
  obtain ⟨es, hes⟩ := step_records s e
  rw [hhead, hhead', hes, List.length_append]
  omega

theorem Feeds.step {s : JournalState F} {e : JournalEvent}
    (hrec : Recorded s) (h : Feeds s) (hcond : keepsUp s e = true) :
    Feeds (s.step e) := by
  intro j hj
  obtain ⟨first, h₀, hf⟩ := h.slot hrec hcond (step_slot s e j) hj
  exact ⟨first, h₀, hf.start_le, hf.evicted,
    hf.head_le.trans (hrec.ringHead_le e), hf.sent, hf.heads, hf.cursor,
    hf.held⟩

/-- As long as every copy is of a window still in the ring, every
subscriber is sent its windows in order, and misses only what was
evicted. -/
theorem ordered_of_keepsUp (pipelineId : List UInt8) (cfg : JournalConfig)
    (segmentFile : Option (List UInt8)) (es : List JournalEvent)
    (h : Meets JournalState.step (fun s e => keepsUp s e = true)
      (journaldMain (F := F) pipelineId cfg segmentFile) es) :
    (journalRun (journaldMain (F := F) pipelineId cfg segmentFile)
      es).Ordered := by
  have hinit : Recorded (journaldMain (F := F) pipelineId cfg segmentFile)
      ∧ Feeds (journaldMain (F := F) pipelineId cfg segmentFile) :=
    ⟨Recorded.init pipelineId cfg segmentFile, fun j hj => (nomatch hj)⟩
  have hrun : Recorded
      (journalRun (journaldMain (F := F) pipelineId cfg segmentFile) es)
      ∧ Feeds
        (journalRun (journaldMain (F := F) pipelineId cfg segmentFile) es) :=
    run_inv_of_meets (P := fun s : JournalState F => Recorded s ∧ Feeds s)
      (fun _ e hs he => ⟨hs.1.step e, hs.2.step hs.1 he⟩) hinit h
  intro j hj
  obtain ⟨first, h₀, hf⟩ := hrun.2 j hj
  exact hf.ordered

-- ======================================================= concrete runs

/-- A broker connects in slot 1 and asks for everything. -/
def oneBroker : List JournalEvent :=
  [.accept, .hello 1 (some roleBroker),
    .request 1 (some (msgReplayRequest,
      [112] ++ List.replicate 31 0 ++ u64Bytes 0))]

/-- The thread of slot `j` sends the window at its cursor. -/
def sendNext (j : Fin maxConnections) : List JournalEvent :=
  [.poll j true, .sendData j true, .sendDecision j 0 true, .advance j]

/-- Two windows, sent as they come. -/
theorem ordered_of_keepsUp_live :
    (journalRun defaultJournal (oneWorker ++ oneBroker
      ++ submitFrom 1 1 1 :: sendNext 1 ++ submitFrom 1 2 2 :: sendNext 1
      )).Ordered :=
  ordered_of_keepsUp _ _ _ _ (by decide +kernel)

section Lapped

variable {s : JournalState F}

theorem step_poll_conn {j : Fin maxConnections}
    (hat : (s.conns j).at = some .poll) (hmore : hasMore s j = true)
    (delivered : Bool) :
    (s.step (.poll j delivered)).conns j
      = { s.conns j with
          pc := .data ⟨s.ring (slot ringCapacity (s.conns j).cursor),
            s.ringHead⟩ } := by
  unfold JournalState.step
  dsimp only
  rw [hat]
  unfold pollRing
  dsimp only
  rw [if_pos hmore]
  exact Function.update_self ..

theorem step_sendData_conn {j : Fin maxConnections} {copied : Copied F}
    (hat : (s.conns j).at = some (.data copied))
    (hobs : copied.entry.obs.Encodable) (delivered : Bool) :
    (s.step (.sendData j delivered)).conns j
      = { s.conns j with pc := .decision copied copied.entry.obs.bytes } := by
  have hfit : copied.entry.obs.bytes.length ≤ 1200 :=
    copied.entry.obs.length_bytes_le.trans (by decide)
  unfold JournalState.step
  dsimp only
  rw [hat]
  dsimp only
  unfold sendData
  dsimp only
  rw [obicallWireEncodeObservation_eq hobs, if_pos hfit]
  exact Function.update_self ..

theorem step_sendDecision_conn {j : Fin maxConnections} {copied : Copied F}
    {buf : List UInt8} (hat : (s.conns j).at = some (.decision copied buf))
    (now : Int64) (delivered : Bool) :
    (s.step (.sendDecision j now delivered)).conns j
      = { s.conns j with
          pc := .advance
          cursor := (s.conns j).cursor + 1
          sent := (s.conns j).sent ++ [copied] } := by
  unfold JournalState.step
  dsimp only
  rw [hat]
  dsimp only
  rw [sendDecision_eq]
  exact Function.update_self ..

theorem step_advance_conn {j : Fin maxConnections}
    (hat : (s.conns j).at = some .advance) :
    (s.step (.advance j)).conns j
      = { s.conns j with
          nextSeqToSend := (s.conns j).cursor
          pc := .poll } := by
  unfold JournalState.step
  dsimp only
  rw [hat]
  exact Function.update_self ..

/-- Four steps of a thread with more to send: the entry in the cursor's
slot goes out, and nothing else changes for it. -/
theorem run_sendNext (hrec : Recorded s) {j : Fin maxConnections}
    (hat : (s.conns j).at = some .poll) (hmore : hasMore s j = true) :
    (journalRun s (sendNext j)).windows = s.windows
    ∧ (journalRun s (sendNext j)).conns j
      = { s.conns j with
          nextSeqToSend := (s.conns j).cursor + 1
          pc := .poll
          cursor := (s.conns j).cursor + 1
          sent := (s.conns j).sent ++
            [⟨s.ring (slot ringCapacity (s.conns j).cursor), s.ringHead⟩] } := by
  have hin := (ConnSlot.at_eq_some hat).1
  let copied : Copied F :=
    ⟨s.ring (slot ringCapacity (s.conns j).cursor), s.ringHead⟩
  let s₁ := s.step (.poll j true)
  let s₂ := s₁.step (.sendData j true)
  let s₃ := s₂.step (.sendDecision j 0 true)
  let s₄ := s₃.step (.advance j)
  -- the copy
  have h₁ : s₁.conns j = { s.conns j with pc := .data copied } :=
    step_poll_conn hat hmore true
  have hat₁ : (s₁.conns j).at = some (.data copied) := by
    rw [h₁]
    exact ConnSlot.at_of_inUse hin rfl
  have hobs : copied.entry.obs.Canonical := by
    have hrec₁ := hrec.step (.poll j true)
    exact hrec₁.windows.canonical _ ((hrec₁.slots j).data copied hat₁)
  -- its two frames
  have h₂ : s₂.conns j
      = { s.conns j with pc := .decision copied copied.entry.obs.bytes } := by
    rw [step_sendData_conn hat₁ hobs.encodable true, h₁]
  have hat₂ : (s₂.conns j).at
      = some (.decision copied copied.entry.obs.bytes) := by
    rw [h₂]
    exact ConnSlot.at_of_inUse hin rfl
  have h₃ : s₃.conns j
      = { s.conns j with
          pc := .advance
          cursor := (s.conns j).cursor + 1
          sent := (s.conns j).sent ++ [copied] } := by
    rw [step_sendDecision_conn hat₂ 0 true, h₂]
  have hat₃ : (s₃.conns j).at = some .advance := by
    rw [h₃]
    exact ConnSlot.at_of_inUse hin rfl
  refine ⟨?_, ?_⟩
  · show s₄.windows = s.windows
    have hw₁ : s₁.windows = s.windows := step_windows rfl
    have hw₂ : s₂.windows = s₁.windows := step_windows rfl
    have hw₃ : s₃.windows = s₂.windows := step_windows rfl
    have hw₄ : s₄.windows = s₃.windows := step_windows rfl
    rw [hw₄, hw₃, hw₂, hw₁]
  · show s₄.conns j = _
    rw [step_advance_conn hat₃, h₃]

/-- A sensor that has a track keeps having one. -/
theorem lookup_step {name : List UInt8} {t : SensorTrack}
    (h : lookup s.tracks name = some t) (e : JournalEvent) :
    ∃ t', lookup (s.step e).tracks name = some t' := by
  rcases step_assigns s e with hsame | ⟨obs, i, tracks, _, hassign⟩
  · have htracks : (s.step e).tracks = s.tracks :=
      congrArg Windows.tracks hsame
    exact ⟨t, htracks ▸ h⟩
  · have htracks := congrArg Windows.tracks hassign.windows
    cases hdec : obicallJournalAdmit s.cfg
        (tracks.getD i (.fresh obs.sensorId)) obs (computePendingDepth s) with
    | mk reason track' =>
        rw [hdec] at htracks
        change (s.step e).tracks = tracks.set i track' at htracks
        rw [htracks]
        by_cases hreason : reason = .admitOk
        · rw [hreason] at hdec
          obtain ⟨_, _, _, htrack'⟩ := admit_ok hdec
          have hname : track'.name = cString obs.sensorId := by
            rw [htrack']
            rfl
          rw [lookup_admitted hassign.track hname]
          split
          · exact ⟨track', rfl⟩
          · exact ⟨t, h⟩
        · rw [admit_rejected hdec hreason]
          exact ⟨t, lookup_rejected hassign.track h⟩

/-- Resubmitting an observation of a tracked sensor assigns one window a
time. -/
theorem run_resubmit {e : JournalEvent} {obs : Observation F}
    (hsub : s.submitted e = some obs) {t : SensorTrack}
    (htrack : lookup s.tracks (cString obs.sensorId) = some t) (n : Nat) :
    (journalRun s (List.replicate n e)).records.length
      = s.records.length + n
    ∧ (journalRun s (List.replicate n e)).conns = s.conns := by
  induction n generalizing s t with
  | zero => exact ⟨rfl, rfl⟩
  | succ n ih =>
      obtain ⟨now, written, hstep⟩ := step_submitted hsub
      have hconns : (s.step e).conns = s.conns := by
        rw [hstep]
        exact (admitLocked_conns s obs now written).1
      have hsub' : (s.step e).submitted e = some obs := by
        rw [← hsub]
        unfold JournalState.submitted
        rw [hconns]
      have hlen : (s.step e).records.length = s.records.length + 1 := by
        rw [hstep]
        rcases admitLocked_windows s obs now written with ⟨hfull, _⟩ | hassign
        · unfold findOrCreateTrack at hfull
          split at hfull
          · cases hfull
          next hfind =>
            rw [lookup_of_findTrack_none hfind] at htrack
            cases htrack
        · obtain ⟨i, tracks, hassign⟩ := hassign
          have hrecords := congrArg Windows.records hassign.windows
          change (admitLocked s obs now written).2.records = _ at hrecords
          rw [hrecords, List.length_append]
          rfl
      obtain ⟨t', htrack'⟩ := lookup_step htrack e
      obtain ⟨hlen', hconns'⟩ := ih hsub' htrack'
      rw [List.replicate_succ]
      show (journalRun (s.step e) _).records.length = _
        ∧ (journalRun (s.step e) _).conns = _
      exact ⟨by rw [hlen', hlen]; omega, hconns'.trans hconns⟩

/-- A subscriber at window 1 with the head one lap ahead of it is sent the
head's window, and then window 2. -/
theorem sentWindows_of_lapped (hrec : Recorded s) {j : Fin maxConnections}
    (hat : (s.conns j).at = some .poll) (hcursor : (s.conns j).cursor = 1)
    (hsent : (s.conns j).sent = []) (hhead : s.ringHead = 4097) :
    ((journalRun s (sendNext j ++ sendNext j)).conns j).streaming = true
    ∧ ((journalRun s (sendNext j ++ sendNext j)).conns j).sentWindows
      = [4097, 2] := by
  have hin := (ConnSlot.at_eq_some hat).1
  have hmore : hasMore s j = true := by
    unfold hasMore
    rw [hcursor, hhead]
    rfl
  obtain ⟨hw, hconn⟩ := run_sendNext hrec hat hmore
  have hrun : journalRun s (sendNext j ++ sendNext j)
      = journalRun (journalRun s (sendNext j)) (sendNext j) :=
    run_append s _ _
  have hrec₁ : Recorded (journalRun s (sendNext j)) :=
    run_inv (fun _ e hs => hs.step e) hrec _
  have hring : (journalRun s (sendNext j)).ring = s.ring :=
    congrArg Windows.ring hw
  have hhead₁ : (journalRun s (sendNext j)).ringHead = 4097 :=
    (congrArg Windows.ringHead hw).trans hhead
  rw [hrun]
  generalize journalRun s (sendNext j) = s₁ at hconn hrec₁ hring hhead₁ ⊢
  have hat₁ : (s₁.conns j).at = some .poll := by
    rw [hconn]
    exact ConnSlot.at_of_inUse hin rfl
  have hcursor₁ : (s₁.conns j).cursor = 2 := by
    rw [hconn]
    show (s.conns j).cursor + 1 = 2
    rw [hcursor]
  have hmore₁ : hasMore s₁ j = true := by
    unfold hasMore
    rw [hcursor₁, hhead₁]
    rfl
  obtain ⟨_, hconn₁⟩ := run_sendNext hrec₁ hat₁ hmore₁
  -- what the two slots show
  have hfirst := hrec.windows.slot_windowSeq (p := 1) le_rfl
    (by show 1 ≤ s.ringHead; omega)
  have hsecond := hrec.windows.slot_windowSeq (p := 2) (by omega)
    (by show 2 ≤ s.ringHead; omega)
  change (s.ring _).windowSeq = latest _ _ s.ringHead at hfirst hsecond
  rw [hhead] at hfirst hsecond
  rw [hconn₁]
  refine ⟨?_, ?_⟩
  · have hin₁ := (ConnSlot.at_eq_some hat₁).1
    unfold ConnSlot.streaming
    dsimp only
    rw [hin₁]
    rfl
  · unfold ConnSlot.sentWindows
    dsimp only
    rw [hcursor₁, hring, hconn]
    dsimp only
    rw [hsent, hcursor]
    simp only [List.nil_append, List.map_cons, List.map_append, List.map_nil,
      hfirst, hsecond]
    decide

end Lapped

/-- A broker connects before anything is submitted, and the first
observation arrives. -/
def lappedStart : JournalState Binary64 :=
  journalRun defaultJournal (oneWorker ++ oneBroker ++ [submitFrom 1 1 1])

/-- It is not served until `n` more submissions have come in; then two
windows are sent to it. -/
def servedAfter (n : Nat) : List JournalEvent :=
  (oneWorker ++ oneBroker ++ [submitFrom 1 1 1])
    ++ (List.replicate n (submitFrom 1 1 1) ++ (sendNext 1 ++ sendNext 1))

theorem servedAfter_sent {n : Nat} (hn : n = 4096) :
    ((journalRun defaultJournal (servedAfter n)).conns 1).streaming = true
    ∧ ((journalRun defaultJournal (servedAfter n)).conns 1).sentWindows
      = [4097, 2] := by
  have hsub : ∃ obs, lappedStart.submitted (submitFrom 1 1 1) = some obs
      ∧ (lookup lappedStart.tracks (cString obs.sensorId)).isSome = true :=
    ⟨makeObs [99, 97, 109] 1 1 1 1.0 2.0, by decide +kernel,
      by decide +kernel⟩
  obtain ⟨obs, hsub, htrack⟩ := hsub
  obtain ⟨t, htrack⟩ := Option.isSome_iff_exists.mp htrack
  obtain ⟨hlen, hconns⟩ := run_resubmit hsub htrack n
  have hstart : lappedStart.records.length = 1
      ∧ (lappedStart.conns 1).at = some .poll
      ∧ (lappedStart.conns 1).cursor = 1
      ∧ (lappedStart.conns 1).sent = [] := by
    decide +kernel
  obtain ⟨hlen₀, hat, hcursor, hsent⟩ := hstart
  have hrec₀ : Recorded lappedStart := recorded_run ..
  have hrec : Recorded (journalRun lappedStart
      (List.replicate n (submitFrom 1 1 1))) :=
    run_inv (fun _ e hs => hs.step e) hrec₀ _
  have hrun : journalRun defaultJournal (servedAfter n)
      = journalRun (journalRun lappedStart
        (List.replicate n (submitFrom 1 1 1))) (sendNext 1 ++ sendNext 1) := by
    unfold servedAfter lappedStart journalRun
    rw [run_append, run_append]
  rw [hrun]
  generalize journalRun lappedStart
    (List.replicate n (submitFrom 1 1 1)) = s at hlen hconns hrec ⊢
  apply sentWindows_of_lapped hrec
  · rw [hconns]
    exact hat
  · rw [hconns]
    exact hcursor
  · rw [hconns]
    exact hsent
  · have hhead : s.ringHead = s.records.length := hrec.windows.head
    rw [hhead, hlen, hlen₀, hn]

/-- After 4097 submissions, window 4097 is sent before window 2. -/
theorem lapped_not_ordered :
    ¬ (journalRun defaultJournal (servedAfter 4096)).Ordered := by
  intro h
  obtain ⟨hstream, hsent⟩ := servedAfter_sent (n := 4096) rfl
  have hinc := (h 1 hstream).increasing
  rw [hsent] at hinc
  exact absurd hinc (by decide)

end Obicall
