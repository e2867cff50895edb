/-
The track table over a run: who takes its entries, and what happens to a
submission that finds none left.

`find_or_create_track` runs before the observation is looked at, so an
entry goes to the first observation that brings a name, valid or not, and
is never given back. A submission that needs an entry when all are taken
is dropped: it gets no decision, no window and no record, although it was
decoded and may be valid.

# Names

A name is stored cut to 31 characters. An id without a terminator is 32
characters long, matches no stored name, and takes a new entry every time
(`enterName`).

So every submission of a run is given its window exactly when the run's
submissions need no more than 32 names (`all_kept_iff`). Whether they were
admitted plays no part, and 32 invalid ones are enough to shut everybody
else out (`invalid_ids_fill_table`).
-/
import Obicall.Journald.Proofs.Tracks

namespace Obicall

open Lib.Ring Lib.Run

variable {F : Type}

-- ============================================================= statement

/-- 32 sensors other than this one have had an observation admitted. -/
def JournalState.takenByOthers (s : JournalState F) (obs : Observation F) :
    Prop :=
  ∃ names : List (List UInt8), names.Nodup
    ∧ names.length = maxSensorTracks ∧ cString obs.sensorId ∉ names
    ∧ ∀ name ∈ names, ∃ r ∈ s.admitted, cString r.obs.sensorId = name

/-- The observation has the next window with a decision, and only that:
one number, one entry of the ring, one record. -/
structure GetsWindow (s s' : JournalState F) (obs : Observation F)
    (reason : AdmissionReason) : Prop where
  number : s'.nextWindowSeq = s.nextWindowSeq + 1
  head : s'.ringHead = s.nextWindowSeq
  ring : s'.ring = Function.update s.ring
    (slot ringCapacity s.nextWindowSeq) ⟨s.nextWindowSeq, reason, obs⟩
  record : s'.records = s.records ++ [⟨s.nextWindowSeq, reason, obs⟩]

/-- A submission is kept: it gets its window, and, valid, is without a
track only when 32 other sensors have had an observation admitted. -/
def KeepsSubmission [DoubleBits F] [DoubleArith F] (s : JournalState F)
    (e : JournalEvent) : Prop :=
  ∀ obs, s.submitted e = some obs →
    (obicallObservationValidate obs = .ok →
      findOrCreateTrack s.tracks obs.sensorId = none → s.takenByOthers obs)
    ∧ ∃ reason, GetsWindow s (s.step e) obs reason

/-- The observations that a run brings to admission, in order. -/
def submissions [DoubleBits F] [DoubleArith F] :
    JournalState F → List JournalEvent → List (Observation F)
  | _, [] => []
  | s, e :: es => (s.submitted e).toList ++ submissions (s.step e) es

/-- The names after one more observation: its own is there, or it takes
an entry under its first 31 characters. -/
def enterName (names : List (List UInt8)) (obs : Observation F) :
    List (List UInt8) :=
  if cString obs.sensorId ∈ names then names
  else names ++ [(cString obs.sensorId).take 31]

/-- The names a table without bound would hold. -/
def namesNeeded (observations : List (Observation F)) : List (List UInt8) :=
  observations.foldl enterName []

-- ================================================================= names

theorem length_foldl_enterName (observations : List (Observation F))
    (names : List (List UInt8)) :
    names.length ≤ (observations.foldl enterName names).length := by
  induction observations generalizing names with
  | nil => exact Nat.le_refl _
  | cons obs rest ih =>
      refine Nat.le_trans ?_ (ih (enterName names obs))
      rw [enterName]
      split
      · exact Nat.le_refl _
      · rw [List.length_append]
        exact Nat.le_add_right _ _

/-- An id is found exactly when its name is in the table. -/
theorem findTrack_eq_none_iff {tracks : List SensorTrack}
    {sensorId : SensorId} :
    findTrack tracks sensorId = none
      ↔ cString sensorId ∉ tracks.map SensorTrack.name := by
  rw [findTrack, List.findIdx?_eq_none_iff, List.mem_map, not_exists]
  refine forall_congr' fun t => ?_
  rw [not_and]
  refine imp_congr_right fun _ => ?_
  rw [strncmpEq, beq_eq_false_iff_ne]
  rfl

theorem findOrCreateTrack_eq_none {tracks : List SensorTrack}
    {sensorId : SensorId} (h : findOrCreateTrack tracks sensorId = none) :
    findTrack tracks sensorId = none ∧ maxSensorTracks ≤ tracks.length := by
  unfold findOrCreateTrack at h
  split at h
  · cases h
  next hfind =>
    split at h
    next hfull => exact ⟨hfind, hfull⟩
    · cases h

/-- A fresh track has the first 31 characters of its sensor's id. -/
theorem name_fresh (sensorId : SensorId) :
    (SensorTrack.fresh sensorId).name = (cString sensorId).take 31 :=
  cString_strncpy31 fun _ hb => ne_zero_of_mem_cString hb

/-- The names after a decision: those before it, and the sensor's when it
has taken an entry. An admission leaves the entry's name as it is. -/
theorem names_decided {tracks tracks' : List SensorTrack}
    {obs : Observation F} {i : Nat}
    (h : findOrCreateTrack tracks obs.sensorId = some (i, tracks'))
    {t : SensorTrack}
    (ht : t = tracks'.getD i (.fresh obs.sensorId)
      ∨ t.name = cString obs.sensorId
        ∧ (cString obs.sensorId).length ≤ 31) :
    (tracks'.set i t).map SensorTrack.name
      = enterName (tracks.map SensorTrack.name) obs := by
  rw [enterName]
  rcases findOrCreateTrack_cases h with ⟨hfind, rfl⟩ | ⟨hfind, rfl, rfl⟩
  · obtain ⟨hi, hname, -⟩ := List.findIdx?_eq_some_iff_getElem.mp hfind
    have hname' : tracks'[i].name = cString obs.sensorId :=
      beq_iff_eq.mp hname
    have hin : cString obs.sensorId ∈ tracks'.map SensorTrack.name :=
      List.mem_map.mpr ⟨_, List.getElem_mem hi, hname'⟩
    have hi' : i < (tracks'.map SensorTrack.name).length := by
      rw [List.length_map]
      exact hi
    have htname : t.name = (tracks'.map SensorTrack.name)[i] := by
      rw [List.getElem_map, hname']
      rcases ht with rfl | ⟨ht, -⟩
      · rw [List.getD_eq_getElem?_getD, List.getElem?_eq_getElem hi]
        exact hname'
      · exact ht
    rw [if_pos hin, List.map_set, htname, List.set_getElem_self]
  · rw [if_neg (findTrack_eq_none_iff.mp hfind),
      List.set_append_right _ _ (Nat.le_refl _), Nat.sub_self,
      List.set_cons_zero, List.map_append, List.map_singleton]
    have htname : t.name = (cString obs.sensorId).take 31 := by
      rcases ht with rfl | ⟨ht, hle⟩
      · rw [List.getD_eq_getElem?_getD,
          List.getElem?_append_right (Nat.le_refl _), Nat.sub_self]
        exact name_fresh obs.sensorId
      · rw [ht, List.take_of_length_le hle]
    rw [htname]

section Runs

variable [DoubleBits F] [DoubleArith F]

omit [DoubleBits F] in
/-- After a decision the names are those needed so far. -/
theorem names_assigned {s : JournalState F} {obs : Observation F} {i : Nat}
    {tracks : List SensorTrack} {w : Windows F}
    (h : Assigns s obs i tracks w) :
    w.tracks.map SensorTrack.name
      = enterName (s.tracks.map SensorTrack.name) obs := by
  have htracks := congrArg Windows.tracks h.windows
  dsimp only at htracks
  rw [htracks]
  refine names_decided h.track ?_
  by_cases hok : (obicallJournalAdmit s.cfg
      (tracks.getD i (.fresh obs.sensorId)) obs
      (computePendingDepth s)).1 = .admitOk
  · obtain ⟨hvalid, -, -, htrack⟩ := admit_fst_ok hok
    rw [htrack]
    exact .inr ⟨rfl, Nat.le_of_lt_succ
      (length_cString_lt (sensorId_terminated_of_valid hvalid))⟩
  · exact .inl (admit_rejected Prod.mk.eta.symm hok)

omit [DoubleBits F] in
/-- An assigned window is the observation's only one. -/
theorem getsWindow_assigned {s s' : JournalState F} {obs : Observation F}
    {i : Nat} {tracks : List SensorTrack}
    (h : Assigns s obs i tracks s'.windows) :
    ∃ reason, GetsWindow s s' obs reason :=
  ⟨_, congrArg Windows.nextWindowSeq h.windows,
    congrArg Windows.ringHead h.windows, congrArg Windows.ring h.windows,
    congrArg Windows.records h.windows⟩

/-- A submission is decided on a track, or finds the table full and is
dropped. -/
theorem step_decides {s : JournalState F} {e : JournalEvent}
    {obs : Observation F} (h : s.submitted e = some obs) :
    (findOrCreateTrack s.tracks obs.sensorId = none ∧ s.step e = s)
    ∨ ∃ i tracks, Assigns s obs i tracks (s.step e).windows := by
  obtain ⟨now, written, hstep⟩ := step_submitted h
  rw [hstep]
  exact admitLocked_windows s obs now written

/-- It is kept exactly when it is decided. -/
theorem keepsSubmission_iff {s : JournalState F} {e : JournalEvent}
    {obs : Observation F} (h : s.submitted e = some obs) :
    KeepsSubmission s e ↔ findOrCreateTrack s.tracks obs.sensorId ≠ none := by
  rcases step_decides h with ⟨hfull, hsame⟩ | ⟨i, tracks, hassign⟩
  · refine iff_of_false (fun hkeep => ?_) (not_not.mpr hfull)
    obtain ⟨-, reason, hwindow⟩ := hkeep obs h
    have hrecords := hwindow.record
    rw [hsame] at hrecords
    have hlen := congrArg List.length hrecords
    rw [List.length_append, List.length_singleton] at hlen
    omega
  · have hfound := hassign.track
    refine iff_of_true (fun obs' h' => ?_) (by rw [hfound]; simp)
    cases h.symm.trans h'
    refine ⟨fun _ hfull => ?_, getsWindow_assigned hassign⟩
    rw [hfound] at hfull
    cases hfull

/-- Every submission of a run is kept exactly when the names in the table
and those the run needs besides are no more than it has entries. -/
theorem meets_keepsSubmission_iff (s : JournalState F)
    (es : List JournalEvent) :
    Meets JournalState.step KeepsSubmission s es
      ↔ ((submissions s es).foldl enterName
          (s.tracks.map SensorTrack.name)).length ≤ maxSensorTracks := by
  induction es generalizing s with
  | nil =>
      refine iff_of_true trivial ?_
      rw [submissions, List.foldl_nil, List.length_map]
      exact s.tracks_le
  | cons e es ih =>
      show KeepsSubmission s e ∧ Meets JournalState.step _ _ es ↔ _
      rw [ih, submissions, List.foldl_append]
      cases hsub : s.submitted e with
      | none =>
          have htracks : (s.step e).tracks = s.tracks :=
            congrArg Windows.tracks (step_windows hsub)
          have hkeep : KeepsSubmission s e := by
            intro obs h
            rw [hsub] at h
            cases h
          rw [htracks]
          exact and_iff_right hkeep
      | some obs =>
          rw [keepsSubmission_iff hsub, Option.toList_some,
            List.foldl_cons, List.foldl_nil]
          rcases step_decides hsub with ⟨hfull, hsame⟩ | ⟨i, tracks, hassign⟩
          · -- one name more than there are entries, whatever comes later
            refine iff_of_false (fun h => h.1 hfull) ?_
            obtain ⟨hnone, hlen⟩ := findOrCreateTrack_eq_none hfull
            have hmore := length_foldl_enterName
              (submissions (s.step e) es)
              (enterName (s.tracks.map SensorTrack.name) obs)
            rw [enterName, if_neg (findTrack_eq_none_iff.mp hnone),
              List.length_append, List.length_map, List.length_singleton]
              at hmore
            rw [enterName, if_neg (findTrack_eq_none_iff.mp hnone)]
            omega
          · have hfound := hassign.track
            have hnames := names_assigned hassign
            rw [hfound, ← hnames]
            exact and_iff_right (by simp)

/-- In a run from the start every submission is given one window, and no
valid one is without a track before 32 other sensors have had an
observation admitted, exactly when the run's submissions need no more than
32 names. -/
theorem all_kept_iff (pipelineId : List UInt8) (cfg : JournalConfig)
    (segmentFile : Option (List UInt8)) (es : List JournalEvent) :
    Meets JournalState.step KeepsSubmission
        (journaldMain (F := F) pipelineId cfg segmentFile) es
      ↔ (namesNeeded (submissions
          (journaldMain (F := F) pipelineId cfg segmentFile) es)).length
        ≤ maxSensorTracks :=
  meets_keepsSubmission_iff _ es

end Runs

-- ======================================================= concrete runs

/-- A worker's submission of an observation. -/
def submitObs (obs : Observation Binary64) : JournalEvent :=
  .submit 0 msgObservationSubmit obs.bytes 0 .all

/-- An observation with nothing in it but its sensor, never admitted. -/
def emptyObs (sensor : UInt8) : Observation Binary64 :=
  { Observation.zero Binary64 with sensorId := strncpy31 [sensor] }

/-- 32 of them, each of a sensor of its own. -/
def emptyObsRun : List JournalEvent :=
  oneWorker ++ (List.range 32).map fun n =>
    submitObs (emptyObs (UInt8.ofNat (n + 1)))

/-- They take all the entries. The first valid submission, of a 33rd
sensor, is dropped, though nothing was ever admitted. -/
theorem invalid_ids_fill_table :
    let s := journalRun defaultJournal emptyObsRun
    let obs := makeObs [99, 97, 109] 1 1 1 1.0 2.0
    s.submitted (submitObs obs) = some obs
      ∧ obicallObservationValidate obs = .ok
      ∧ findOrCreateTrack s.tracks obs.sensorId = none
      ∧ s.admitted = []
      ∧ (s.step (submitObs obs)).records.length = s.records.length
      ∧ ¬ KeepsSubmission s (submitObs obs) := by
  intro s obs
  have hrun : s.submitted (submitObs obs) = some obs
      ∧ findOrCreateTrack s.tracks obs.sensorId = none
      ∧ s.admitted = [] := by
    decide +kernel
  obtain ⟨hsub, hfull, hnone⟩ := hrun
  have hdropped : (s.step (submitObs obs)).records.length
      = s.records.length := by
    rcases step_decides hsub with ⟨-, hsame⟩ | ⟨i, tracks, hassign⟩
    · rw [hsame]
    · rw [hassign.track] at hfull
      cases hfull
  exact ⟨hsub, by decide +kernel, hfull, hnone, hdropped,
    fun hkeep => (keepsSubmission_iff hsub).mp hkeep hfull⟩

end Obicall
