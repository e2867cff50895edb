/-
The track table and the admissions it decides: a sensor's track is the
first of its name, admissions only ever change that track, and so the
track remembers the newest session of its sensor.

# Double admission

A track holds one boot id and is reset when an observation of another
boot arrives. Within a session the sequence numbers admitted climb, but
a source that reappears after the other one was admitted finds the
high-water mark gone: with two live sources of a sensor the same triple
is admitted twice (`interleavedBoots_admitted_twice`). No triple is, as
long as a submission that switches its sensor's track to a boot brings a
sequence number above all that were admitted from that boot before
(`admitted_once_of_forward`).
-/
import Mathlib.Data.List.Nodup
import Obicall.Journald.Proofs.Steps

namespace Obicall

open Lib.Run

variable {F : Type}

-- ================================================================ lookup

/-- The name a track goes by. -/
def SensorTrack.name (t : SensorTrack) : List UInt8 := cString t.sensorId

/-- The first track of a name. -/
def lookup (tracks : List SensorTrack) (name : List UInt8) :
    Option SensorTrack :=
  tracks.find? fun t => t.name == name

theorem lookup_append_of_some {tracks ts : List SensorTrack}
    {name : List UInt8} {t : SensorTrack} (h : lookup tracks name = some t) :
    lookup (tracks ++ ts) name = some t := by
  unfold lookup at h ⊢
  rw [List.find?_append, h]
  rfl

theorem lookup_append_of_none {tracks ts : List SensorTrack}
    {name : List UInt8} (h : lookup tracks name = none) :
    lookup (tracks ++ ts) name = lookup ts name := by
  unfold lookup at h ⊢
  rw [List.find?_append, h]
  rfl

/-- What the search loop stops at is the first track of the name. -/
theorem lookup_of_findTrack {tracks : List SensorTrack}
    {sensorId : SensorId} {i : Nat}
    (h : findTrack tracks sensorId = some i) (z : SensorTrack) :
    lookup tracks (cString sensorId) = some (tracks.getD i z) := by
  unfold findTrack at h
  induction tracks generalizing i with
  | nil => cases h
  | cons t ts ih =>
      rw [List.findIdx?_cons] at h
      unfold lookup
      rw [List.find?_cons]
      by_cases ht : strncmpEq t.sensorId sensorId = true
      · rw [if_pos ht] at h
        cases h
        have hname : (t.name == cString sensorId) = true := ht
        rw [hname]
        rfl
      · have hname : (t.name == cString sensorId) = false :=
          Bool.not_eq_true _ ▸ ht
        rw [if_neg ht] at h
        rw [hname]
        obtain ⟨k, hk, rfl⟩ := Option.map_eq_some_iff.mp h
        exact ih hk

theorem lookup_of_findTrack_none {tracks : List SensorTrack}
    {sensorId : SensorId} (h : findTrack tracks sensorId = none) :
    lookup tracks (cString sensorId) = none := by
  unfold findTrack at h
  rw [List.findIdx?_eq_none_iff] at h
  unfold lookup
  rw [List.find?_eq_none]
  intro t ht
  have hno := h t ht
  exact Bool.not_eq_true _ ▸ hno

/-- Overwriting the track found changes the lookup of its name, and of
no other. -/
theorem lookup_set {tracks : List SensorTrack} {sensorId : SensorId}
    {i : Nat} (h : findTrack tracks sensorId = some i) {t' : SensorTrack}
    (ht' : t'.name = cString sensorId) (name : List UInt8) :
    lookup (tracks.set i t') name
      = if name = cString sensorId then some t' else lookup tracks name := by
  unfold findTrack at h
  induction tracks generalizing i with
  | nil => cases h
  | cons t ts ih =>
      rw [List.findIdx?_cons] at h
      by_cases ht : strncmpEq t.sensorId sensorId = true
      · rw [if_pos ht] at h
        cases h
        have htname : t.name = cString sensorId := beq_iff_eq.mp ht
        unfold lookup
        rw [List.set_cons_zero, List.find?_cons, List.find?_cons, ht', htname]
        by_cases hname : name = cString sensorId
        · rw [if_pos hname, hname, beq_self_eq_true]
        · have hne : (cString sensorId == name) = false :=
            beq_eq_false_iff_ne.mpr fun heq => hname heq.symm
          rw [if_neg hname, hne]
      · have htname : t.name ≠ cString sensorId := fun heq =>
          ht (beq_iff_eq.mpr heq)
        rw [if_neg ht] at h
        obtain ⟨k, hk, rfl⟩ := Option.map_eq_some_iff.mp h
        have ih' := ih hk
        unfold lookup at ih' ⊢
        rw [List.set_cons_succ, List.find?_cons, List.find?_cons, ih']
        by_cases hname : name = cString sensorId
        · have hne : (t.name == name) = false :=
            beq_eq_false_iff_ne.mpr fun heq => htname (heq.trans hname)
          rw [hne]
        · simp only [hname, if_false]

-- ============================================================ admissions

/-- The track an observation is decided on: the sensor's, when it has
one; otherwise a fresh one at the end of the table. -/
theorem findOrCreateTrack_cases {tracks tracks' : List SensorTrack}
    {sensorId : SensorId} {i : Nat}
    (h : findOrCreateTrack tracks sensorId = some (i, tracks')) :
    (findTrack tracks sensorId = some i ∧ tracks' = tracks)
    ∨ (findTrack tracks sensorId = none ∧ i = tracks.length
      ∧ tracks' = tracks ++ [.fresh sensorId]) := by
  unfold findOrCreateTrack at h
  split at h
  next j hfind =>
    cases h
    exact .inl ⟨hfind, rfl⟩
  next hfind =>
    split at h
    · cases h
    · cases h
      exact .inr ⟨hfind, rfl, rfl⟩

/-- The table after a decision that left the track as it was still has
every track it had. -/
theorem lookup_rejected {tracks tracks' : List SensorTrack}
    {sensorId : SensorId} {i : Nat}
    (h : findOrCreateTrack tracks sensorId = some (i, tracks'))
    {name : List UInt8} {t : SensorTrack} (ht : lookup tracks name = some t) :
    lookup (tracks'.set i (tracks'.getD i (.fresh sensorId))) name
      = some t := by
  have hset : tracks'.set i (tracks'.getD i (.fresh sensorId)) = tracks' := by
    rw [List.getD_eq_getElem?_getD]
    by_cases hi : i < tracks'.length
    · rw [List.getElem?_eq_getElem hi, Option.getD_some,
        List.set_getElem_self]
    · exact List.set_eq_of_length_le (not_lt.mp hi)
  rw [hset]
  rcases findOrCreateTrack_cases h with ⟨_, rfl⟩ | ⟨_, _, rfl⟩
  · exact ht
  · exact lookup_append_of_some ht

/-- The table after an admission: the sensor's track is the new one, the
others are as they were. -/
theorem lookup_admitted {tracks tracks' : List SensorTrack}
    {sensorId : SensorId} {i : Nat}
    (h : findOrCreateTrack tracks sensorId = some (i, tracks'))
    {t' : SensorTrack} (ht' : t'.name = cString sensorId)
    (name : List UInt8) :
    lookup (tracks'.set i t') name
      = if name = cString sensorId then some t' else lookup tracks name := by
  rcases findOrCreateTrack_cases h with ⟨hfind, rfl⟩ | ⟨hfind, rfl, rfl⟩
  · exact lookup_set hfind ht' name
  · have hset : (tracks ++ [SensorTrack.fresh sensorId]).set tracks.length t'
        = tracks ++ [t'] := by
      rw [List.set_append_right _ _ le_rfl, Nat.sub_self, List.set_cons_zero]
    have hnone := lookup_of_findTrack_none hfind
    rw [hset]
    by_cases hname : name = cString sensorId
    · rw [if_pos hname, hname, lookup_append_of_none hnone]
      unfold lookup
      rw [List.find?_cons, ht', beq_self_eq_true]
    · rw [if_neg hname]
      cases hold : lookup tracks name with
      | some t => exact lookup_append_of_some hold
      | none =>
          rw [lookup_append_of_none hold]
          unfold lookup
          have hne : (t'.name == name) = false :=
            beq_eq_false_iff_ne.mpr fun heq => hname (heq.symm.trans ht')
          rw [List.find?_cons, hne, List.find?_nil]

/-- The track decided on is the first of the sensor's name, or has seen
nothing. -/
theorem decided_track {tracks tracks' : List SensorTrack}
    {sensorId : SensorId} {i : Nat}
    (h : findOrCreateTrack tracks sensorId = some (i, tracks')) :
    lookup tracks (cString sensorId)
        = some (tracks'.getD i (.fresh sensorId))
    ∨ lookup tracks (cString sensorId) = none
      ∧ tracks'.getD i (.fresh sensorId) = .fresh sensorId := by
  rcases findOrCreateTrack_cases h with ⟨hfind, rfl⟩ | ⟨hfind, rfl, rfl⟩
  · exact .inl (lookup_of_findTrack hfind _)
  · refine .inr ⟨lookup_of_findTrack_none hfind, ?_⟩
    rw [List.getD_eq_getElem?_getD, List.getElem?_append_right le_rfl,
      Nat.sub_self]
    rfl

-- ====================================================== double admission

/-- What identifies a submission: the sensor, as a string, the boot of
its source, and the sequence number. -/
def RingEntry.key (e : RingEntry F) : List UInt8 × UInt64 × UInt64 :=
  (cString e.obs.sensorId, e.obs.sourceBootId, e.obs.sequence)

/-- The entries admitted so far, oldest first. -/
def JournalState.admitted (s : JournalState F) : List (RingEntry F) :=
  s.records.filter fun e => e.admissionReason = .admitOk

/-- No triple has been given `OBICALL_ADMIT_OK` twice. -/
def JournalState.AdmittedOnce (s : JournalState F) : Prop :=
  (s.admitted.map RingEntry.key).Nodup

/-- The sequence number is above all that were admitted from this sensor
and boot. -/
def JournalState.above (s : JournalState F) (obs : Observation F) : Bool :=
  s.admitted.all fun r =>
    !(cString r.obs.sensorId == cString obs.sensorId
      && r.obs.sourceBootId == obs.sourceBootId)
    || r.obs.sequence < obs.sequence

/-- A submission that switches its sensor's track to another boot (it is
valid, and the backlog has room for it) comes with a sequence number
above all that were admitted from that boot. -/
def switchesForward [DoubleBits F] [DoubleArith F] (s : JournalState F)
    (e : JournalEvent) : Bool :=
  match s.submitted e with
  | none => true
  | some obs =>
      match findOrCreateTrack s.tracks obs.sensorId with
      | none => true
      | some (i, tracks) =>
          let track := tracks.getD i (.fresh obs.sensorId)
          if track.hasData && track.sourceBootId != obs.sourceBootId
              && obicallObservationValidate obs = .ok
              && computePendingDepth s < s.cfg.maxPendingPerPipeline then
            s.above obs
          else true

/-- The track of an admitted sensor is in its newest session, and in that
session at or above everything admitted. -/
structure TracksInv (tracks : List SensorTrack)
    (admitted : List (RingEntry F)) : Prop where
  tracked : ∀ r ∈ admitted, ∃ t,
    lookup tracks (cString r.obs.sensorId) = some t ∧ t.hasData = true
    ∧ (r.obs.sourceBootId = t.sourceBootId →
      r.obs.sequence ≤ t.highestSequenceSeen)
  once : (admitted.map RingEntry.key).Nodup

section Runs

variable [DoubleBits F] [DoubleArith F]

/-- Within its session or under the condition, an admitted observation is
above every earlier one of its sensor and boot. -/
theorem TracksInv.above {s : JournalState F} {e : JournalEvent}
    {obs : Observation F} {i : Nat} {tracks : List SensorTrack}
    {track' : SensorTrack} (hinv : TracksInv s.tracks s.admitted)
    (hcond : switchesForward s e = true) (hsub : s.submitted e = some obs)
    (hfind : findOrCreateTrack s.tracks obs.sensorId = some (i, tracks))
    (hok : obicallJournalAdmit s.cfg (tracks.getD i (.fresh obs.sensorId))
      obs (computePendingDepth s) = (.admitOk, track')) :
    ∀ r ∈ s.admitted, cString r.obs.sensorId = cString obs.sensorId →
      r.obs.sourceBootId = obs.sourceBootId →
      r.obs.sequence < obs.sequence := by
  obtain ⟨hvalid, hsession, hroom, _⟩ := admit_ok hok
  intro r hr hname hboot
  obtain ⟨t, hlook, hdata, hhigh⟩ := hinv.tracked r hr
  rw [hname] at hlook
  rcases decided_track hfind with hdec | ⟨hdec, _⟩
  · have ht : tracks.getD i (.fresh obs.sensorId) = t :=
      Option.some.inj (hdec.symm.trans hlook)
    rw [ht] at hsession
    by_cases hsame : t.sourceBootId = obs.sourceBootId
    · -- the track's own session: above its high-water mark
      have hold : t.isNewSession obs = false := by
        unfold SensorTrack.isNewSession
        rw [hdata, hsame]
        simp
      have hle := hhigh (hboot.trans hsame.symm)
      exact UInt64.lt_of_le_of_lt hle (hsession hold)
    · -- a switch of session: this is what the condition asks for
      unfold switchesForward at hcond
      rw [hsub] at hcond
      dsimp only at hcond
      rw [hfind] at hcond
      dsimp only at hcond
      rw [ht, if_pos (by simp [hdata, hsame, hvalid, hroom])] at hcond
      unfold JournalState.above at hcond
      have hall := List.all_eq_true.mp hcond r hr
      simpa [hname, hboot] using hall
  · rw [hdec] at hlook
    cases hlook

omit [DoubleBits F] [DoubleArith F] in
/-- An entry that is above all that were admitted of its sensor and boot
joins them, on a track that has seen it. -/
theorem TracksInv.admitted {tracks tracks' : List SensorTrack}
    {admitted : List (RingEntry F)} (hinv : TracksInv tracks admitted)
    {r : RingEntry F} {t : SensorTrack}
    (hlook : ∀ name, lookup tracks' name
      = if name = cString r.obs.sensorId then some t else lookup tracks name)
    (hdata : t.hasData = true) (hhigh : t.highestSequenceSeen = r.obs.sequence)
    (habove : ∀ r' ∈ admitted,
      cString r'.obs.sensorId = cString r.obs.sensorId →
      r'.obs.sourceBootId = r.obs.sourceBootId →
      r'.obs.sequence < r.obs.sequence)
    (hboot : t.sourceBootId = r.obs.sourceBootId) :
    TracksInv tracks' (admitted ++ [r]) := by
  constructor
  · rw [List.forall_mem_append, List.forall_mem_singleton]
    constructor
    · intro r' hr'
      rw [hlook]
      by_cases hname : cString r'.obs.sensorId = cString r.obs.sensorId
      · rw [if_pos hname]
        refine ⟨t, rfl, hdata, fun hsame => ?_⟩
        rw [hhigh]
        exact UInt64.le_of_lt (habove r' hr' hname (hsame.trans hboot))
      · rw [if_neg hname]
        exact hinv.tracked r' hr'
    · rw [hlook, if_pos rfl]
      exact ⟨t, rfl, hdata, fun _ => hhigh ▸ UInt64.le_refl _⟩
  · rw [List.map_append, List.nodup_append]
    refine ⟨hinv.once, List.nodup_singleton _, ?_⟩
    intro k hk k' hk' heq
    obtain ⟨r', hr', rfl⟩ := List.mem_map.mp hk
    rw [List.map_singleton, List.mem_singleton] at hk'
    rw [hk'] at heq
    unfold RingEntry.key at heq
    injection heq with hname heq
    injection heq with hsame hseq
    have hlt := habove r' hr' hname hsame
    rw [hseq] at hlt
    exact UInt64.lt_irrefl _ hlt

/-- An admission keeps the invariant. -/
theorem TracksInv.assign {s s' : JournalState F} {e : JournalEvent}
    {obs : Observation F} {i : Nat} {tracks : List SensorTrack}
    (hinv : TracksInv s.tracks s.admitted)
    (hcond : switchesForward s e = true) (hsub : s.submitted e = some obs)
    (h : Assigns s obs i tracks s'.windows) :
    TracksInv s'.tracks s'.admitted := by
  have htracks := congrArg Windows.tracks h.windows
  have hrecords := congrArg Windows.records h.windows
  cases hdec : obicallJournalAdmit s.cfg
      (tracks.getD i (.fresh obs.sensorId)) obs (computePendingDepth s) with
  | mk reason track' =>
      rw [hdec] at htracks hrecords
      change s'.tracks = tracks.set i track' at htracks
      change s'.records = s.records ++ [⟨s.nextWindowSeq, reason, obs⟩]
        at hrecords
      by_cases hreason : reason = .admitOk
      · rw [hreason] at hdec hrecords
        have habove := hinv.above hcond hsub h.track hdec
        obtain ⟨_, _, _, htrack'⟩ := admit_ok hdec
        have hname : track'.name = cString obs.sensorId := by
          rw [htrack']
          rfl
        have hadm : s'.admitted
            = s.admitted ++ [⟨s.nextWindowSeq, .admitOk, obs⟩] := by
          unfold JournalState.admitted
          rw [hrecords, List.filter_append]
          rfl
        rw [htracks, hadm]
        refine hinv.admitted (lookup_admitted h.track hname) ?_ ?_ habove ?_
        · rw [htrack']
          rfl
        · rw [htrack']
          rfl
        · rw [htrack']
          rfl
      · have hsame := admit_rejected hdec hreason
        have hadm : s'.admitted = s.admitted := by
          unfold JournalState.admitted
          rw [hrecords, List.filter_append]
          simp [hreason]
        rw [htracks, hadm, hsame]
        refine ⟨fun r hr => ?_, hinv.once⟩
        obtain ⟨t, hlook, ht⟩ := hinv.tracked r hr
        exact ⟨t, lookup_rejected h.track hlook, ht⟩

/-- One event keeps the invariant, under the condition. -/
theorem TracksInv.step {s : JournalState F} {e : JournalEvent}
    (hinv : TracksInv s.tracks s.admitted)
    (hcond : switchesForward s e = true) :
    TracksInv (s.step e).tracks (s.step e).admitted := by
  rcases step_assigns s e with hsame | ⟨obs, i, tracks, hsub, hassign⟩
  · have htracks : (s.step e).tracks = s.tracks :=
      congrArg Windows.tracks hsame
    have hrecords : (s.step e).records = s.records :=
      congrArg Windows.records hsame
    unfold JournalState.admitted
    rw [htracks, hrecords]
    exact hinv
  · exact hinv.assign hcond hsub hassign

/-- As long as every switch of a track comes with a sequence number above
all admitted from the boot it switches to, no triple is admitted
twice. -/
theorem admitted_once_of_forward (pipelineId : List UInt8)
    (cfg : JournalConfig) (segmentFile : Option (List UInt8))
    (es : List JournalEvent)
    (h : Meets JournalState.step (fun s e => switchesForward s e = true)
      (journaldMain (F := F) pipelineId cfg segmentFile) es) :
    (journalRun (journaldMain (F := F) pipelineId cfg segmentFile)
      es).AdmittedOnce := by
  have hinit : TracksInv
      (journaldMain (F := F) pipelineId cfg segmentFile).tracks
      (journaldMain (F := F) pipelineId cfg segmentFile).admitted :=
    ⟨fun r hr => (nomatch hr), List.nodup_nil⟩
  have hrun : TracksInv
      (journalRun (journaldMain pipelineId cfg segmentFile) es).tracks
      (journalRun (journaldMain (F := F) pipelineId cfg segmentFile)
        es).admitted :=
    run_inv_of_meets (P := fun s : JournalState F =>
        TracksInv s.tracks s.admitted)
      (fun _ _ hs he => hs.step he) hinit h
  exact hrun.once

end Runs

-- ======================================================= concrete runs

/-- A process with one worker connected, in slot 0. -/
def oneWorker : List JournalEvent := [.accept, .hello 0 (some roleWorker)]

/-- The submission of a reading of one sensor over that connection. -/
def submitFrom (bootId seq : UInt64) (sampleNs : Int64) : JournalEvent :=
  .submit 0 msgObservationSubmit
    (makeObs [99, 97, 109] bootId seq sampleNs 1.0 2.0).bytes 0 .all

def defaultJournal : JournalState Binary64 :=
  journaldMain [112] defaultCfg none

/-- A source that restarts with higher numbers is admitted once. -/
theorem admitted_once_restart :
    (journalRun defaultJournal (oneWorker ++
      [submitFrom 1 1 1, submitFrom 1 2 2, submitFrom 2 1 3,
        submitFrom 2 1 4])).AdmittedOnce :=
  admitted_once_of_forward _ _ _ _ (by decide +kernel)

/-- Two live boots of one sensor take turns; the first number of boot 1
is admitted before and after the first number of boot 2. -/
def interleavedBoots : List JournalEvent :=
  oneWorker ++ [submitFrom 1 1 1, submitFrom 2 1 2, submitFrom 1 1 3]

theorem interleavedBoots_admitted_twice :
    ¬ (journalRun defaultJournal interleavedBoots).AdmittedOnce := by
  have hkeys : (journalRun defaultJournal interleavedBoots).admitted.map
      RingEntry.key
      = [([99, 97, 109], 1, 1), ([99, 97, 109], 2, 1),
        ([99, 97, 109], 1, 1)] := by
    decide +kernel
  unfold JournalState.AdmittedOnce
  rw [hkeys]
  decide

end Obicall
