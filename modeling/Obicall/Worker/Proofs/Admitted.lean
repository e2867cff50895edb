/-
The journal refuses no reading of a native worker but for its backlog.

A worker's readings reach the journal in the order in which they were
taken, if at all (`Lib.Merge`), and the journal's tracks have seen earlier
ones only. So none is a duplicate and none is late; and what a worker
sends has passed the journal's own validation. This is true of any number
of workers, of restarts in any order, and of two workers of one sensor
that displace each other's session with every reading
(`readings_admitted`).
-/
import Obicall.Journald.Proofs.Tracks
import Obicall.Lib.Merge
import Obicall.Provider.Proofs.Sim
import Obicall.Worker.Process

namespace Obicall

open Lib.Merge

variable {F : Type}

-- =============================================================== statement

/-- A reading was taken after another of its source. -/
def Later (obs obs' : Observation F) : Prop :=
  obs.sequence < obs'.sequence ∧ obs.sampleTimeNs ≤ obs'.sampleTimeNs

/-- What the journal has recorded, in the order of the windows. -/
def JournalState.logged (s : JournalState F) : List (Observation F) :=
  s.records.map fun r => r.obs

/-- The source that a reading names. -/
def bootOf (obs : Observation F) : UInt64 := obs.sourceBootId

-- ============================================================== one worker

/-- The readings of a source, logged or on their way. -/
def readings (log : List (Observation F))
    (queue : UInt64 → List (Observation F)) (boot : UInt64) :
    List (Observation F) :=
  taken bootOf log boot ++ queue boot

/-- What is true of a worker after the events `es`, with its readings so
far. -/
structure Works (es : List (SensorEvent F)) (rs : List (Observation F))
    (boot : UInt64) (p : SimProvider F) : Prop where
  named : p.sourceBootId = boot
  alive : ∃ e ∈ es, e.boot = some boot
  prompt : p.faultMode ≠ simFaultDelay
  counted : p.nextSequence.toNat ≤ es.length + 1
  ahead : ∀ obs ∈ rs, obs.sequence < p.nextSequence

variable {es : List (SensorEvent F)} {boot : UInt64}

/-- A worker has taken its turn without a reading. -/
theorem Works.kept {rs : List (Observation F)} {p q : SimProvider F}
    (h : Works es rs boot p) (hboot : q.sourceBootId = p.sourceBootId)
    (hmode : q.faultMode = p.faultMode)
    (hnext : q.nextSequence = p.nextSequence) : Works es rs boot q :=
  ⟨hboot.trans h.named, h.alive, hmode ▸ h.prompt, hnext ▸ h.counted,
    hnext ▸ h.ahead⟩

/-- A worker has counted a reading. -/
theorem Works.next {rs : List (Observation F)} {p q : SimProvider F}
    (h : Works es rs boot p) (hboot : q.sourceBootId = p.sourceBootId)
    (hmode : q.faultMode = p.faultMode)
    (hnext : q.nextSequence = p.nextSequence + 1)
    (hlen : es.length + 1 < 18446744073709551615) (e : SensorEvent F) :
    Works (es ++ [e]) rs boot q
      ∧ p.nextSequence < q.nextSequence := by
  have hcount := h.counted
  have hval : q.nextSequence.toNat = p.nextSequence.toNat + 1 := by
    rw [hnext, UInt64.toNat_add]
    exact Nat.mod_eq_of_lt (by show _ + 1 < _; omega)
  have hlt : p.nextSequence < q.nextSequence := by
    rw [UInt64.lt_iff_toNat_lt]
    omega
  obtain ⟨d, hd, hdboot⟩ := h.alive
  refine ⟨⟨hboot.trans h.named, ⟨d, List.mem_append_left _ hd, hdboot⟩,
    hmode ▸ h.prompt, ?_, ?_⟩, hlt⟩
  · rw [List.length_append, List.length_singleton]
    omega
  · intro o ho
    exact UInt64.lt_trans (h.ahead o ho) hlt

-- ============================================================ one admission

/-- What a track remembers is of readings that were logged. -/
structure Seen (log : List (Observation F)) (t : SensorTrack) : Prop where
  sequence : ∃ obs ∈ log, bootOf obs = t.sourceBootId
    ∧ obs.sequence = t.highestSequenceSeen
  sampleTime : ∃ obs ∈ log, bootOf obs = t.sourceBootId
    ∧ obs.sampleTimeNs = t.watermarkSampleTimeNs

theorem Seen.mono {log log' : List (Observation F)} {t : SensorTrack}
    (h : Seen log t) (hsub : log ⊆ log') : Seen log' t := by
  obtain ⟨⟨obs, hobs, hseq⟩, obs', hobs', htime⟩ := h
  exact ⟨⟨obs, hsub hobs, hseq⟩, obs', hsub hobs', htime⟩

variable [DoubleArith F] {cfg : JournalConfig} {log : List (Observation F)}
  {track : SensorTrack} {obs : Observation F}

/-- A reading that is later than the logged ones of its source is admitted
unless there is no room, and its track has then seen it. -/
theorem admit_later (hlate : 0 ≤ cfg.maxLatenessNs)
    (hvalid : obicallObservationValidate obs = .ok)
    (htrack : track.hasData = true → Seen log track)
    (hnext : ∀ o ∈ taken bootOf log (bootOf obs), Later o obs)
    (hpos : ∀ o ∈ log, 0 ≤ o.sampleTimeNs) (pending : UInt32) :
    obicallJournalAdmit cfg track obs pending = (.rejectOverflow, track)
    ∨ obicallJournalAdmit cfg track obs pending
        = (.admitOk, track.admitted obs)
      ∧ Seen (log ++ [obs]) (track.admitted obs) := by
  have hself : obs ∈ log ++ [obs] := by simp
  cases hnew : track.isNewSession obs with
  | true =>
      rw [admit_newSession hvalid hnew]
      split
      · exact .inl rfl
      · refine .inr ⟨rfl, ⟨obs, hself, rfl, rfl⟩, obs, hself, rfl, ?_⟩
        unfold SensorTrack.admitted
        rw [hnew, Bool.true_or, if_pos rfl]
  | false =>
      have hold := hnew
      unfold SensorTrack.isNewSession at hnew
      rw [Bool.or_eq_false_iff, Bool.not_eq_false',
        bne_eq_false_iff_eq] at hnew
      obtain ⟨hdata, hboot⟩ := hnew
      obtain ⟨⟨o, ho, hob, hseq⟩, o', ho', hob', htime⟩ := htrack hdata
      have hlater := hnext o (mem_taken.mpr ⟨ho, hob.trans hboot⟩)
      have hlater' := hnext o' (mem_taken.mpr ⟨ho', hob'.trans hboot⟩)
      -- neither late nor seen before
      have hnotLate : ¬ obs.sampleTimeNs
          < track.watermarkSampleTimeNs - cfg.maxLatenessNs := by
        have hzero := hpos o' ho'
        have hle := hlater'.2
        rw [htime] at hzero hle
        rw [Int64.le_iff_toInt_le] at hzero hle hlate
        rw [Int64.lt_iff_toInt_lt]
        have hup := track.watermarkSampleTimeNs.toInt_lt
        have hlow := cfg.maxLatenessNs.toInt_lt
        have hzero' : (0 : Int64).toInt = 0 := rfl
        have hsub : (track.watermarkSampleTimeNs - cfg.maxLatenessNs).toInt
            = track.watermarkSampleTimeNs.toInt
              - cfg.maxLatenessNs.toInt := by
          rw [Int64.toInt_sub]
          apply Int.bmod_eq_of_le
          · omega
          · omega
        omega
      rw [admit_inSession hvalid hold (hseq ▸ hlater.1), if_neg hnotLate]
      split
      · exact .inl rfl
      · refine .inr ⟨rfl, ⟨obs, hself, rfl, rfl⟩, ?_⟩
        unfold SensorTrack.admitted
        dsimp only
        split
        · exact ⟨obs, hself, rfl, rfl⟩
        · exact ⟨o', List.mem_append_left _ ho', hob'.trans hboot, htime⟩

-- ============================================================ the journal

/-- A track of the table after an admission is the one it decided on, one
that was there, or a fresh one. -/
theorem mem_assigned {tracks tracks' : List SensorTrack}
    {sensorId : SensorId} {i : Nat}
    (h : findOrCreateTrack tracks sensorId = some (i, tracks'))
    {t t' : SensorTrack} (ht : t ∈ tracks'.set i t') :
    t = t' ∨ t ∈ tracks ∨ t.hasData = false := by
  rcases List.mem_or_eq_of_mem_set ht with hmem | heq
  · rcases findOrCreateTrack_cases h with ⟨-, rfl⟩ | ⟨-, -, rfl⟩
    · exact .inr (.inl hmem)
    · rcases List.mem_append.mp hmem with hold | hnew
      · exact .inr (.inl hold)
      · rw [List.mem_singleton.mp hnew]
        exact .inr (.inr rfl)
  · exact .inl heq

/-- The track that is decided on was there, or is fresh. -/
theorem decided_mem {tracks tracks' : List SensorTrack}
    {sensorId : SensorId} {i : Nat}
    (h : findOrCreateTrack tracks sensorId = some (i, tracks')) :
    tracks'.getD i (.fresh sensorId) ∈ tracks
    ∨ (tracks'.getD i (.fresh sensorId)).hasData = false := by
  rcases decided_track h with hlook | ⟨-, hfresh⟩
  · exact .inl (List.mem_of_find?_eq_some hlook)
  · rw [hfresh]
    exact .inr rfl

/-- What is true of the journal when all it was sent came from workers. -/
structure JournalState.Undisturbed (s : JournalState F) : Prop where
  lateness : 0 ≤ s.cfg.maxLatenessNs
  tracks : ∀ t ∈ s.tracks, t.hasData = true → Seen s.logged t
  times : ∀ o ∈ s.logged, 0 ≤ o.sampleTimeNs
  reasons : ∀ r ∈ s.records,
    r.admissionReason = .admitOk ∨ r.admissionReason = .rejectOverflow

variable [DoubleBits F] {s : JournalState F}

omit [DoubleArith F] [DoubleBits F] in
theorem logged_of_windows {s' : JournalState F}
    (hw : s'.windows = s.windows) : s'.logged = s.logged :=
  congrArg (List.map fun r : RingEntry F => r.obs)
    (congrArg Windows.records hw)

omit [DoubleArith F] [DoubleBits F] in
/-- It is about the windows only. -/
theorem JournalState.Undisturbed.of_windows {s' : JournalState F}
    (h : s.Undisturbed) (hw : s'.windows = s.windows) : s'.Undisturbed := by
  have hcfg : s'.cfg = s.cfg := congrArg Windows.cfg hw
  have htracks : s'.tracks = s.tracks := congrArg Windows.tracks hw
  have hrecords : s'.records = s.records := congrArg Windows.records hw
  have hlogged := logged_of_windows hw
  exact ⟨hcfg ▸ h.lateness, by rw [htracks, hlogged]; exact h.tracks,
    hlogged ▸ h.times, hrecords ▸ h.reasons⟩

/-- The next reading of a source leaves the journal undisturbed; it is
logged, or there was no track for it. -/
theorem JournalState.Undisturbed.submit (h : s.Undisturbed)
    {e : JournalEvent} {obs : Observation F} (he : s.submitted e = some obs)
    (hvalid : obicallObservationValidate obs = .ok)
    (hpos : 0 ≤ obs.sampleTimeNs)
    (hnext : ∀ o ∈ taken bootOf s.logged (bootOf obs), Later o obs) :
    (s.step e).Undisturbed
    ∧ ((s.step e).logged = s.logged
      ∨ (s.step e).logged = s.logged ++ [obs]) := by
  rcases step_assigns s e with hw | ⟨obs', i, tracks, hsub, hfind, hw⟩
  · exact ⟨h.of_windows hw, .inl (logged_of_windows hw)⟩
  obtain rfl : obs = obs' := Option.some.inj (he.symm.trans hsub)
  have hdecided : (tracks.getD i (.fresh obs.sensorId)).hasData = true →
      Seen s.logged (tracks.getD i (.fresh obs.sensorId)) := by
    intro hdata
    rcases decided_mem hfind with hmem | hfresh
    · exact h.tracks _ hmem hdata
    · rw [hfresh] at hdata
      cases hdata
  have hadmit := admit_later h.lateness hvalid hdecided hnext
    h.times (computePendingDepth s)
  generalize obicallJournalAdmit s.cfg (tracks.getD i (.fresh obs.sensorId))
    obs (computePendingDepth s) = admitted at hw hadmit
  have hcfg : (s.step e).cfg = s.cfg := congrArg Windows.cfg hw
  have htracks : (s.step e).tracks = tracks.set i admitted.2 :=
    congrArg Windows.tracks hw
  have hrecords : (s.step e).records
      = s.records ++ [⟨s.nextWindowSeq, admitted.1, obs⟩] :=
    congrArg Windows.records hw
  have hlogged : (s.step e).logged = s.logged ++ [obs] := by
    unfold JournalState.logged
    rw [hrecords, List.map_append]
    rfl
  have hsub : s.logged ⊆ s.logged ++ [obs] := List.subset_append_left _ _
  have hseen : admitted.2.hasData = true →
      Seen (s.logged ++ [obs]) admitted.2 := by
    intro hdata
    rcases hadmit with hfull | ⟨hok, hnew⟩
    · rw [hfull] at hdata ⊢
      exact (hdecided hdata).mono hsub
    · rw [hok]
      exact hnew
  refine ⟨⟨hcfg ▸ h.lateness, ?_, ?_, ?_⟩, .inr hlogged⟩
  · rw [htracks, hlogged]
    intro t ht hdata
    rcases mem_assigned hfind ht with rfl | hold | hfresh
    · exact hseen hdata
    · exact (h.tracks t hold hdata).mono hsub
    · rw [hfresh] at hdata
      cases hdata
  · rw [hlogged, List.forall_mem_append, List.forall_mem_singleton]
    exact ⟨h.times, hpos⟩
  · rw [hrecords, List.forall_mem_append, List.forall_mem_singleton]
    refine ⟨h.reasons, ?_⟩
    rcases hadmit with hfull | ⟨hok, -⟩
    · rw [hfull]
      exact .inr rfl
    · rw [hok]
      exact .inl rfl

-- ============================================================== the workers

/-- What a worker makes of a reading: it is sent when it is valid. -/
theorem onProviderEvent_event {obs : Observation F} (h : obs.Canonical) :
    onProviderEvent F obs.event
      = if obicallObservationValidate obs = .ok then
          some ⟨msgObservationSubmit, obs.bytes⟩
        else none := by
  have hlen := obs.length_bytes_le
  have hdec : obicallWireDecodeObservation obs.event.payload = (.ok, obs) := by
    show obicallWireDecodeObservation obs.bytes = _
    rw [obicallWireDecodeObservation_bytes h.encodable, h.normal]
  have henc : obicallWireEncodeObservation obs 1200 = .ok obs.bytes := by
    rw [obicallWireEncodeObservation_eq h.encodable, if_pos (by omega)]
  have htype : obs.event.eventType = 1 := rfl
  unfold onProviderEvent
  rw [if_neg (not_not.mpr htype), hdec]
  dsimp only
  rw [henc]
  by_cases hvalid : obicallObservationValidate obs = .ok
  · rw [if_neg (not_not.mpr hvalid), if_pos hvalid]
  · rw [if_pos hvalid, if_neg hvalid]

/-- A reading on its way. -/
structure Sound (obs : Observation F) : Prop where
  canonical : obs.Canonical
  valid : obicallObservationValidate obs = .ok

/-- What is true after the events `es`, with the readings that are on
their way. -/
structure SensorNet.Orderly (es : List (SensorEvent F)) (s : SensorNet F)
    (queue : UInt64 → List (Observation F)) : Prop where
  wires : ∀ boot, s.wires boot
    = (queue boot).map fun obs => ⟨msgObservationSubmit, obs.bytes⟩
  sound : ∀ boot, ∀ obs ∈ queue boot, Sound obs
  merged : Ordered bootOf Later queue s.journal.logged
  known : ∀ boot, ∀ obs ∈ readings s.journal.logged queue boot,
    (∃ e ∈ es, e.boot = some boot)
      ∧ ∃ e ∈ es, e.clock = some obs.sampleTimeNs
  workers : ∀ boot p, s.workers boot = some p →
    Works es (readings s.journal.logged queue boot) boot p
  journal : s.journal.Undisturbed

variable {s : SensorNet F} {queue : UInt64 → List (Observation F)}

theorem orderly_init (pipelineId : List UInt8) {cfg : JournalConfig}
    (hlate : 0 ≤ cfg.maxLatenessNs) (segmentFile : Option (List UInt8)) :
    SensorNet.Orderly (F := F) [] (.init pipelineId cfg segmentFile)
      fun _ => [] where
  wires _ := rfl
  sound _ _ hobs := absurd hobs List.not_mem_nil
  merged := ordered_empty
  known _ _ hobs := absurd hobs List.not_mem_nil
  workers _ _ hp := nomatch hp
  journal :=
    { lateness := hlate
      tracks := fun _ ht => absurd ht List.not_mem_nil
      times := fun _ ho => absurd ho List.not_mem_nil
      reasons := fun _ hr => absurd hr List.not_mem_nil }

/-- Another event changes nothing of what is known. -/
theorem SensorNet.Orderly.more (h : s.Orderly es queue) (e : SensorEvent F) :
    s.Orderly (es ++ [e]) queue where
  wires := h.wires
  sound := h.sound
  merged := h.merged
  known boot obs hobs := by
    obtain ⟨⟨d, hd, hboot⟩, d', hd', hclock⟩ := h.known boot obs hobs
    exact ⟨⟨d, List.mem_append_left _ hd, hboot⟩,
      d', List.mem_append_left _ hd', hclock⟩
  workers boot p hp := by
    have hworks := h.workers boot p hp
    obtain ⟨d, hd, hboot⟩ := hworks.alive
    refine ⟨hworks.named, ⟨d, List.mem_append_left _ hd, hboot⟩,
      hworks.prompt, ?_, hworks.ahead⟩
    have hcount := hworks.counted
    rw [List.length_append]
    omega
  journal := h.journal

/-- A worker is replaced by one that is as it should be, or ends. -/
theorem SensorNet.Orderly.worker (h : s.Orderly es queue)
    {w : Option (SimProvider F)}
    (hw : ∀ p, w = some p →
      Works es (readings s.journal.logged queue boot) boot p) :
    SensorNet.Orderly es
      { s with workers := Function.update s.workers boot w } queue where
  wires := h.wires
  sound := h.sound
  merged := h.merged
  known := h.known
  workers b p hp := by
    by_cases hb : b = boot
    · subst hb
      apply hw
      exact (Function.update_self b w s.workers).symm.trans hp
    · apply h.workers
      exact (Function.update_of_ne hb w s.workers).symm.trans hp
  journal := h.journal

/-- A worker sends a reading that is later than all those before it. -/
theorem SensorNet.Orderly.send (h : s.Orderly es queue)
    {obs : Observation F} (hsound : Sound obs) (hboot : bootOf obs = boot)
    (hlater : ∀ o ∈ readings s.journal.logged queue boot, Later o obs)
    (halive : ∃ e ∈ es, e.boot = some boot)
    (hclock : ∃ e ∈ es, e.clock = some obs.sampleTimeNs)
    (hahead : ∀ p, s.workers boot = some p →
      obs.sequence < p.nextSequence) :
    SensorNet.Orderly es
      { s with
        wires := Function.update s.wires boot
          (s.wires boot ++ [⟨msgObservationSubmit, obs.bytes⟩]) }
      (Function.update queue boot (queue boot ++ [obs])) := by
  have hmore : ∀ b, ∀ o ∈ readings s.journal.logged
      (Function.update queue boot (queue boot ++ [obs])) b,
      o ∈ readings s.journal.logged queue b ∨ b = boot ∧ o = obs := by
    intro b o ho
    unfold readings at ho ⊢
    by_cases hb : b = boot
    · subst hb
      rw [Function.update_self, ← List.append_assoc] at ho
      rcases List.mem_append.mp ho with hold | hnew
      · exact .inl hold
      · exact .inr ⟨rfl, List.mem_singleton.mp hnew⟩
    · rw [Function.update_of_ne hb] at ho
      exact .inl ho
  constructor
  · intro b
    dsimp only
    by_cases hb : b = boot
    · subst hb
      rw [Function.update_self, Function.update_self, List.map_append,
        ← h.wires]
      rfl
    · rw [Function.update_of_ne hb, Function.update_of_ne hb]
      exact h.wires b
  · intro b o ho
    by_cases hb : b = boot
    · subst hb
      rw [Function.update_self] at ho
      rcases List.mem_append.mp ho with hold | hnew
      · exact h.sound b o hold
      · rw [List.mem_singleton.mp hnew]
        exact hsound
    · rw [Function.update_of_ne hb] at ho
      exact h.sound b o ho
  · exact h.merged.put hboot hlater
  · intro b o ho
    rcases hmore b o ho with hold | ⟨rfl, rfl⟩
    · exact h.known b o hold
    · exact ⟨halive, hclock⟩
  · intro b p hp
    have hworks := h.workers b p hp
    refine ⟨hworks.named, hworks.alive, hworks.prompt, hworks.counted, ?_⟩
    intro o ho
    rcases hmore b o ho with hold | ⟨rfl, rfl⟩
    · exact hworks.ahead o hold
    · exact hahead p hp
  · exact h.journal

omit [DoubleArith F] [DoubleBits F] in
/-- What is left of the readings when the first one on its way was taken,
or is lost. -/
theorem readings_take {log : List (Observation F)} {obs : Observation F}
    {rest : List (Observation F)} (hq : queue boot = obs :: rest)
    (hobs : bootOf obs = boot) {log' : List (Observation F)}
    (hlog : log' = log ∨ log' = log ++ [obs]) (b : UInt64) :
    readings log' (Function.update queue boot rest) b
      ⊆ readings log queue b := by
  intro o ho
  unfold readings at ho ⊢
  by_cases hb : b = boot
  · subst hb
    rw [Function.update_self] at ho
    rw [hq]
    rcases hlog with rfl | rfl
    · rcases List.mem_append.mp ho with h | h
      · exact List.mem_append_left _ h
      · exact List.mem_append_right _ (List.mem_cons_of_mem _ h)
    · rw [taken_append_self hobs, List.append_assoc] at ho
      exact ho
  · rw [Function.update_of_ne hb] at ho
    rcases hlog with rfl | rfl
    · exact ho
    · rw [taken_append_ne (hobs ▸ Ne.symm hb)] at ho
      exact ho

/-- The journal receives the next frame of a worker. -/
theorem SensorNet.Orderly.receive (h : s.Orderly es queue)
    (hpos : ∀ e ∈ es, ∀ t, e.clock = some t → 0 ≤ t) (worker : UInt64)
    (i : Fin maxConnections) (now : Int64) (written : Written) :
    ∃ queue', (s.receive worker i now written).Orderly es queue' := by
  unfold SensorNet.receive
  split
  next f rest hat hwire =>
    rw [h.wires] at hwire
    obtain ⟨obs, obss, hq, rfl, rfl⟩ := List.map_eq_cons_iff.mp hwire
    have hmem : obs ∈ queue worker := by
      rw [hq]
      exact List.mem_cons_self
    have hobs := h.merged.owned worker obs hmem
    have hsound := h.sound worker obs hmem
    have hsub : s.journal.submitted
        (.submit i msgObservationSubmit obs.bytes now written)
        = some obs := by
      unfold JournalState.submitted
      dsimp only
      rw [hat]
      dsimp only
      rw [if_neg (not_not.mpr rfl),
        obicallWireDecodeObservation_bytes hsound.canonical.encodable,
        hsound.canonical.normal]
    have htime : 0 ≤ obs.sampleTimeNs := by
      obtain ⟨-, e, he, hclock⟩ := h.known worker obs
        (List.mem_append_right _ hmem)
      exact hpos e he _ hclock
    have hnext : ∀ o ∈ taken bootOf s.journal.logged (bootOf obs),
        Later o obs := by
      rw [hobs]
      exact h.merged.next hq
    obtain ⟨hjournal, hlog⟩ :=
      h.journal.submit hsub hsound.valid htime hnext
    have hfewer := readings_take hq hobs hlog
    refine ⟨Function.update queue worker obss, ?_⟩
    exact {
      wires := by
        intro b
        dsimp only
        by_cases hb : b = worker
        · subst hb
          rw [Function.update_self, Function.update_self]
        · rw [Function.update_of_ne hb, Function.update_of_ne hb]
          exact h.wires b
      sound := by
        intro b o ho
        apply h.sound b o
        by_cases hb : b = worker
        · subst hb
          rw [Function.update_self] at ho
          rw [hq]
          exact List.mem_cons_of_mem _ ho
        · rw [Function.update_of_ne hb] at ho
          exact ho
      merged := by
        rcases hlog with hsame | hnew
        · rw [hsame]
          exact h.merged.drop hq
        · rw [hnew]
          exact h.merged.take hq
      known := fun b o ho => h.known b o (hfewer b ho)
      workers := by
        intro b p hp
        have hworks := h.workers b p hp
        exact ⟨hworks.named, hworks.alive, hworks.prompt, hworks.counted,
          fun o ho => hworks.ahead o (hfewer b ho)⟩
      journal := hjournal }
  · exact ⟨queue, h⟩

-- =================================================================== a turn

variable [DoubleText F]

/-- A worker that starts, none of whose readings is known. -/
theorem works_create (es : List (SensorEvent F)) (configJson : List UInt8)
    (seed : UInt64) (bootClock startClock : Int64)
    {rs : List (Observation F)} (hrs : ∀ o ∈ rs, False) :
    Works (es ++ [.start configJson seed bootClock startClock]) rs
      (simCreate configJson seed bootClock startClock
        : SimProvider F).sourceBootId
      (simCreate configJson seed bootClock startClock) where
  named := rfl
  alive := ⟨.start configJson seed bootClock startClock, by simp, rfl⟩
  prompt := by
    show simFaultNone ≠ simFaultDelay
    decide
  counted := by
    show 1 ≤ _ + 1
    omega
  ahead o ho := (hrs o ho).elim

omit [DoubleText F] in
/-- A poll adds nothing, or the worker's next reading. -/
theorem SensorNet.Orderly.poll (libm : Libm F) (h : s.Orderly es queue)
    {now : Int64}
    (hbefore : ∀ d ∈ es, ∀ t, d.clock = some t → t ≤ now)
    (hlen : es.length + 1 < 18446744073709551615) (worker : UInt64)
    (arrives : Bool) :
    ∃ queue', (s.poll libm worker now arrives).Orderly
      (es ++ [.poll worker now arrives]) queue' := by
  unfold SensorNet.poll
  cases hp : s.workers worker with
  | none => exact ⟨queue, h.more _⟩
  | some p =>
      have hworks := h.workers worker p hp
      have hnothing : s.wires worker ++ (if arrives then
          (none : Option Frame).toList else []) = s.wires worker := by
        cases arrives <;> exact List.append_nil _
      have hpoll := Obicall.polled libm p now
      dsimp only
      generalize simPollEvents libm p now = out at hpoll ⊢
      cases hpoll with
      | waits _ =>
          dsimp only [Option.bind_none]
          rw [hnothing, Function.update_eq_self, ← hp,
            Function.update_eq_self]
          exact ⟨queue, h.more _⟩
      | drops rng _ _ =>
          dsimp only [Option.bind_none]
          rw [hnothing, Function.update_eq_self]
          refine ⟨queue, (h.worker ?_).more _⟩
          rintro q hq
          obtain rfl := Option.some.inj hq
          exact hworks.kept rfl rfl rfl
      | emits zx zy rng _ _ =>
          have hcanon := canonical_simReading p now zx zy
          have hframe := onProviderEvent_event hcanon
          have hsample : (simReading p now zx zy).sampleTimeNs = now :=
            if_neg hworks.prompt
          dsimp only [Option.bind_some]
          rw [show onProviderEvent F ⟨cSimEventObservation, now,
            (simReading p now zx zy).bytes⟩ = _ from hframe]
          generalize hq : ({ p with
            lastEmitTimeNs := now
            nextSequence := p.nextSequence + 1
            rngState := rng } : SimProvider F) = q
          obtain ⟨hworks', hlt⟩ := hworks.next (q := q) (by rw [← hq])
            (by rw [← hq]) (by rw [← hq]) hlen (.poll worker now arrives)
          have hturned : SensorNet.Orderly (es ++ [.poll worker now arrives])
              { s with workers := Function.update s.workers worker (some q) }
              queue := by
            apply (h.more _).worker
            rintro q' hq'
            obtain rfl := Option.some.inj hq'
            exact hworks'
          by_cases hsent : arrives = true
              ∧ obicallObservationValidate (simReading p now zx zy) = .ok
          · obtain ⟨harrives, hvalid⟩ := hsent
            rw [if_pos hvalid, if_pos harrives]
            refine ⟨_, hturned.send ⟨hcanon, hvalid⟩ hworks.named ?_ ?_ ?_ ?_⟩
            · intro o ho
              refine ⟨hworks.ahead o ho, ?_⟩
              obtain ⟨-, d, hd, hclock⟩ := h.known worker o ho
              rw [hsample]
              exact hbefore d hd _ hclock
            · exact hworks'.alive
            · refine ⟨.poll worker now arrives, by simp, ?_⟩
              rw [hsample]
              rfl
            · intro q' hq'
              have hself : some q = some q' :=
                (Function.update_self worker (some q) s.workers).symm.trans
                  hq'
              obtain rfl := Option.some.inj hself
              exact hlt
          · have hnone : (if arrives then (if obicallObservationValidate
                (simReading p now zx zy) = .ok then
                some (⟨msgObservationSubmit,
                  (simReading p now zx zy).bytes⟩ : Frame)
                else none).toList else []) = [] := by
              cases arrives with
              | false => rfl
              | true =>
                  rw [if_pos rfl, if_neg fun hv => hsent ⟨rfl, hv⟩]
                  rfl
            rw [hnone, List.append_nil, Function.update_eq_self]
            exact ⟨queue, hturned⟩

-- ================================================================= one step

/-- A worker that is created knows nothing of what was read before. -/
theorem SensorNet.Orderly.start (libm : Libm F) (h : s.Orderly es queue)
    (configJson : List UInt8) (seed : UInt64) (bootClock startClock : Int64)
    (hnew : ∀ d ∈ es, ∀ b, d.boot = some b →
      b ≠ bootClock.toUInt64 ^^^ seed) :
    (s.step libm (.start configJson seed bootClock startClock)).Orderly
      (es ++ [.start configJson seed bootClock startClock]) queue := by
  apply (h.more _).worker
  intro p hp
  obtain rfl := Option.some.inj hp
  apply works_create
  intro o ho
  obtain ⟨⟨d, hd, hdboot⟩, -⟩ := h.known _ o ho
  exact hnew d hd _ hdboot rfl

/-- A control observation that delays nothing changes none of what a worker
counts. -/
theorem SensorNet.Orderly.control (libm : Libm F) (h : s.Orderly es queue)
    (worker : UInt64) (obs : Observation F)
    (hdelay : ¬ (SensorEvent.control worker obs).Delays) :
    (s.step libm (.control worker obs)).Orderly
      (es ++ [.control worker obs]) queue := by
  apply (h.more _).worker
  intro q hq
  obtain ⟨p, hp, rfl⟩ := Option.map_eq_some_iff.mp hq
  have hworks := (h.more (.control worker obs)).workers worker p hp
  obtain ⟨hnext, -, -, -⟩ := simSubmit_keeps p obs
  refine ⟨?_, hworks.alive, ?_, hnext ▸ hworks.counted,
    hnext ▸ hworks.ahead⟩
  · unfold simSubmit
    split
    · exact hworks.named
    · exact hworks.named
  · unfold simSubmit
    split
    next hobeys => exact fun hmode => hdelay ⟨hobeys, hmode⟩
    next => exact hworks.prompt

/-- What else happens at the journal writes no window. -/
theorem SensorNet.Orderly.elsewhere (libm : Libm F) (h : s.Orderly es queue)
    (e : JournalEvent) :
    (s.step libm (.journal e)).Orderly (es ++ [.journal e]) queue := by
  unfold SensorNet.step
  dsimp only
  split
  · exact h.more _
  next hne =>
    have hw : (s.journal.step e).windows = s.journal.windows := by
      apply step_windows
      unfold JournalState.submitted
      split
      · exact absurd rfl (hne _ _ _ _ _)
      · rfl
    have hlogged := logged_of_windows hw
    have h' := h.more (.journal e)
    exact {
      wires := h'.wires
      sound := h'.sound
      merged := by rw [hlogged]; exact h'.merged
      known := by rw [hlogged]; exact h'.known
      workers := by rw [hlogged]; exact h'.workers
      journal := h'.journal.of_windows hw }

/-- The clock does not go back from one event to the other, and no boot id
is drawn twice. -/
def SensorEvent.Before (d e : SensorEvent F) : Prop :=
  (∀ t, d.clock = some t → ∀ t', e.clock = some t' → t ≤ t')
    ∧ ∀ b, d.boot = some b → ∀ b', e.boot = some b' → b ≠ b'

theorem SensorNet.Orderly.step (libm : Libm F) (h : s.Orderly es queue)
    (hpos : ∀ d ∈ es, ∀ t, d.clock = some t → 0 ≤ t)
    (hlen : es.length + 1 < 18446744073709551615) {e : SensorEvent F}
    (hdelay : ¬ e.Delays) (hbefore : ∀ d ∈ es, d.Before e) :
    ∃ queue', (s.step libm e).Orderly (es ++ [e]) queue' := by
  cases e with
  | start configJson seed bootClock startClock =>
      exact ⟨queue, h.start libm configJson seed bootClock startClock
        fun d hd b hb => (hbefore d hd).2 b hb _ rfl⟩
  | poll worker now arrives =>
      exact h.poll libm (fun d hd t ht => (hbefore d hd).1 t ht now rfl) hlen
        worker arrives
  | control worker obs => exact ⟨queue, h.control libm worker obs hdelay⟩
  | ends worker => exact ⟨queue, (h.more _).worker fun _ hp => nomatch hp⟩
  | receive worker i now written =>
      obtain ⟨queue', h'⟩ := h.receive hpos worker i now written
      exact ⟨queue', h'.more _⟩
  | journal e => exact ⟨queue, h.elsewhere libm e⟩

-- ==================================================================== a run

/-- Native workers come and go and poll their sensors, and what they send
arrives or does not; no instance draws the boot id of another, the clock
they share does not go back, and no fault delays their readings. Then every
reading that the journal records is admitted or refused for the backlog,
and those of one worker are recorded in the order in which it took them,
none of them twice. -/
theorem readings_admitted (libm : Libm F) (pipelineId : List UInt8)
    {cfg : JournalConfig} (segmentFile : Option (List UInt8))
    {es : List (SensorEvent F)}
    (hboot : (es.filterMap SensorEvent.boot).Nodup)
    (hclock : (es.filterMap SensorEvent.clock).Pairwise (· ≤ ·))
    (hpos : ∀ t ∈ es.filterMap SensorEvent.clock, 0 ≤ t)
    (hdelay : ∀ e ∈ es, ¬ e.Delays) (hlate : 0 ≤ cfg.maxLatenessNs)
    (hlen : es.length < 18446744073709551615) :
    let journal := (sensorRun libm pipelineId cfg segmentFile es).journal
    (∀ r ∈ journal.records,
      r.admissionReason = .admitOk ∨ r.admissionReason = .rejectOverflow)
    ∧ ∀ boot, (taken bootOf journal.logged boot).Pairwise Later := by
  intro journal
  have hend : ([] ++ es).length < 18446744073709551615 →
      ∃ queue, SensorNet.Orderly ([] ++ es)
        (sensorRun libm pipelineId cfg segmentFile es) queue := by
    refine Lib.Run.run_trace_of_pairwise
      (P := fun es s => (∀ e ∈ es, ∀ t, e.clock = some t → 0 ≤ t)
        ∧ (es.length < 18446744073709551615 →
          ∃ queue, SensorNet.Orderly es s queue))
      (C := fun e => (∀ t, e.clock = some t → 0 ≤ t) ∧ ¬ e.Delays)
      (R := SensorEvent.Before)
      ?_ ⟨by simp, fun _ => ⟨_, orderly_init _ hlate _⟩⟩ ?_ ?_ |>.2
    · rintro es s e ⟨hepos, hedelay⟩ hbefore ⟨hespos, h⟩
      rw [List.forall_mem_append, List.forall_mem_singleton]
      refine ⟨⟨hespos, hepos⟩, fun hlen => ?_⟩
      rw [List.length_append, List.length_singleton] at hlen
      obtain ⟨queue, h⟩ := h (by omega)
      exact h.step libm hespos (by omega) hedelay hbefore
    · intro e he
      exact ⟨fun t ht => hpos t (List.mem_filterMap.mpr ⟨e, he, ht⟩),
        hdelay e he⟩
    · exact (List.pairwise_filterMap.mp hclock).and
        (List.pairwise_filterMap.mp hboot)
  obtain ⟨queue, h⟩ := hend hlen
  exact ⟨h.journal.reasons, h.merged.logged⟩

/-- Two workers of one sensor, connected at once. Their readings come to
the journal in turn, each of another source than the one before it but for
the second and the third. -/
def displacingWorkers : List (SensorEvent Binary64) :=
  [.journal .accept, .journal .accept,
    .journal (.hello 0 (some roleWorker)),
    .journal (.hello 1 (some roleWorker)),
    .start [] 42 400000000 400000000, .start [] 42 400000256 400000256,
    .poll 400000042 500000000 true, .poll 400000298 500000100 true,
    .receive 400000298 1 510000000 .all,
    .receive 400000042 0 520000000 .all,
    .poll 400000042 600000000 true, .poll 400000298 600000100 true,
    .receive 400000042 0 610000000 .all,
    .receive 400000298 1 620000000 .all]

theorem readings_admitted_displacing :
    let journal := (sensorRun seed42Libm (ascii "demo") defaultCfg none
      displacingWorkers).journal
    journal.logged.map (fun obs => (bootOf obs, obs.sequence))
      = [(400000298, 1), (400000042, 1), (400000042, 2), (400000298, 2)]
    ∧ (∀ r ∈ journal.records,
      r.admissionReason = .admitOk ∨ r.admissionReason = .rejectOverflow)
    ∧ (taken bootOf journal.logged 400000042).Pairwise Later
    ∧ (taken bootOf journal.logged 400000298).Pairwise Later := by
  intro journal
  have hlogged : journal.logged.map (fun obs => (bootOf obs, obs.sequence))
      = [(400000298, 1), (400000042, 1), (400000042, 2), (400000298, 2)] := by
    decide +kernel
  have hboot : (displacingWorkers.filterMap SensorEvent.boot).Nodup := by
    decide
  have hclock : (displacingWorkers.filterMap SensorEvent.clock).Pairwise
      (· ≤ ·) := by
    decide
  have hpos : (displacingWorkers.filterMap SensorEvent.clock).all
      fun t => 0 ≤ t := by
    decide
  have hdelay : ∀ e ∈ displacingWorkers, ¬ e.Delays := by
    unfold displacingWorkers
    simp [SensorEvent.Delays]
  have hlate : 0 ≤ defaultCfg.maxLatenessNs := by decide
  obtain ⟨hreasons, horder⟩ := readings_admitted seed42Libm (ascii "demo")
    none hboot hclock
    (fun t ht => of_decide_eq_true (List.all_eq_true.mp hpos t ht))
    hdelay hlate (by decide)
  exact ⟨hlogged, hreasons, horder _, horder _⟩

end Obicall
