/-
The lives of journald on one pipeline and one segment file: it is
started, runs for a while, stops or is killed, and is started again on
the file it left.

# Numbers start over

The file is opened for append and never read, and `next_window_seq` is 1
at every start. So each life that assigns any window assigns 1, 2, 3 and
so on, and the numbers of a history increase exactly when at most one
life assigns any (`neverReused_iff`): that is, when at most one is sent
a submission at all. In the next life every window is at or below the
gate's high-water mark until the earlier count is passed.
-/
import Mathlib.Data.List.Range
import Obicall.Gate.Proofs.Marks
import Obicall.Journald.Proofs.Subscription

namespace Obicall

open Lib.Run

variable {F : Type} [DoubleBits F] [DoubleArith F]

-- ================================================================= model

/-- One start of the process, and everything that happens to it. -/
structure Lifetime where
  cfg : JournalConfig
  events : List JournalEvent

/-- The process as it comes up in each lifetime, on the segment file the
one before left, with the events of that lifetime. -/
def lifetimes (pipelineId : List UInt8) :
    List UInt8 → List Lifetime → List (JournalState F × List JournalEvent)
  | _, [] => []
  | file, l :: ls =>
      let start : JournalState F := journaldMain pipelineId l.cfg (some file)
      let file' := (journalRun start l.events).segmentFile.getD file
      (start, l.events) :: lifetimes pipelineId file' ls

omit [DoubleBits F] [DoubleArith F] in
/-- The window numbers a process assigned, in order. -/
def JournalState.windowSeqs (s : JournalState F) : List Nat :=
  s.records.map RingEntry.windowSeq

/-- The window numbers of a whole history, in order. -/
def assigned (runs : List (JournalState F × List JournalEvent)) : List Nat :=
  runs.flatMap fun r => (journalRun r.1 r.2).windowSeqs

/-- A decodable submission arrives on a worker's connection. -/
def receives : JournalState F → List JournalEvent → Bool
  | _, [] => false
  | s, e :: es => (s.submitted e).isSome || receives (s.step e) es

/-- Every window number is above all those before it, so above the gate's
high-water mark for the pipeline, which is one of them. -/
structure NeverReused (pipelineId : PipelineId) (windows : List Nat) :
    Prop where
  increasing : windows.Pairwise (· < ·)
  aboveHighWater : ∀ (before : List Nat) (w : Nat) (after : List Nat),
    windows = before ++ w :: after → ∀ g : GateState, (g.high pipelineId = ⊥
      ∨ ∃ v ∈ before, g.high pipelineId = (v : WithBot Nat)) →
    g.high pipelineId < (w : WithBot Nat)

-- ============================================================ one process

omit [DoubleArith F] in
/-- The numbers of one process are 1, 2, 3 and so on. -/
theorem Recorded.windowSeqs {s : JournalState F} (h : Recorded s) :
    s.windowSeqs = List.range' 1 s.records.length := by
  apply List.ext_getElem?
  intro k
  unfold JournalState.windowSeqs
  rw [List.getElem?_map]
  cases hk : s.records[k]? with
  | none =>
      have hlen := List.getElem?_eq_none_iff.mp hk
      rw [List.getElem?_eq_none (by rw [List.length_range']; exact hlen)]
      rfl
  | some e =>
      have hlt := (List.getElem?_eq_some_iff.mp hk).1
      have hseq : e.windowSeq = k + 1 := h.windows.numbered k e hk
      rw [List.getElem?_range' hlt, Option.map_some, hseq]
      congr 1
      omega

/-- A process only ever adds to its records. -/
theorem run_records (s : JournalState F) (es : List JournalEvent) :
    ∃ rs, (journalRun s es).records = s.records ++ rs := by
  induction es generalizing s with
  | nil => exact ⟨[], (List.append_nil _).symm⟩
  | cons e es ih =>
      obtain ⟨rs, hrs⟩ := step_records s e
      obtain ⟨rs', hrs'⟩ := ih (s.step e)
      refine ⟨rs ++ rs', ?_⟩
      show (journalRun (s.step e) es).records = _
      rw [hrs', hrs, List.append_assoc]

/-- The first submission a process receives is assigned a window: its
track table is still empty. -/
theorem step_first {s : JournalState F} {e : JournalEvent}
    {obs : Observation F} (htracks : s.tracks = [])
    (hsub : s.submitted e = some obs) : (s.step e).records ≠ [] := by
  obtain ⟨now, written, hstep⟩ := step_submitted hsub
  rw [hstep]
  rcases admitLocked_windows s obs now written with ⟨hfull, _⟩ | hassign
  · rw [htracks] at hfull
    cases hfull
  · obtain ⟨i, tracks, hassign⟩ := hassign
    have hrecords := congrArg Windows.records hassign.windows
    change (admitLocked s obs now written).2.records = _ at hrecords
    rw [hrecords]
    exact List.append_ne_nil_of_right_ne_nil _ (List.cons_ne_nil _ _)

/-- A fresh process assigns a window exactly when it receives a
submission. -/
theorem records_ne_nil_iff {s : JournalState F} (htracks : s.tracks = [])
    (hrecords : s.records = []) (es : List JournalEvent) :
    (journalRun s es).records ≠ [] ↔ receives s es = true := by
  induction es generalizing s with
  | nil =>
      unfold receives
      exact iff_of_false (fun h => h hrecords) Bool.false_ne_true
  | cons e es ih =>
      unfold receives
      show (journalRun (s.step e) es).records ≠ [] ↔ _
      cases hsub : s.submitted e with
      | none =>
          have hsame := step_windows hsub
          have htracks' : (s.step e).tracks = [] :=
            (congrArg Windows.tracks hsame).trans htracks
          have hrecords' : (s.step e).records = [] :=
            (congrArg Windows.records hsame).trans hrecords
          rw [ih htracks' hrecords', Option.isSome_none, Bool.false_or]
      | some obs =>
          have hne := step_first htracks hsub
          obtain ⟨rs, hrs⟩ := run_records (s.step e) es
          rw [hrs, Option.isSome_some, Bool.true_or]
          exact iff_of_true (List.append_ne_nil_of_left_ne_nil hne _) rfl

-- ============================================================== histories

/-- Runs of consecutive numbers, all from 1, increase when all but one
are empty, and only then. -/
theorem pairwise_flatMap_range' (ns : List Nat) :
    (ns.flatMap fun n => List.range' 1 n).Pairwise (· < ·)
      ↔ ns.countP (0 < ·) ≤ 1 := by
  induction ns with
  | nil => exact iff_of_true .nil (Nat.zero_le _)
  | cons n ns ih =>
      rw [List.flatMap_cons, List.countP_cons]
      cases n with
      | zero => simpa using ih
      | succ n =>
          rw [List.pairwise_append]
          have hrange := List.pairwise_lt_range' (s := 1) (n := n + 1)
          constructor
          · rintro ⟨_, _, hlt⟩
            -- a later run would start again at 1
            have hnone : ns.countP (0 < ·) = 0 := by
              rw [List.countP_eq_zero]
              intro m hm hpos
              have hm1 : 1 ∈ ns.flatMap fun n => List.range' 1 n := by
                refine List.mem_flatMap.mpr ⟨m, hm, ?_⟩
                rw [List.mem_range'_1]
                have := of_decide_eq_true hpos
                omega
              have h1 : 1 ∈ List.range' 1 (n + 1) := by
                rw [List.mem_range'_1]
                omega
              exact absurd (hlt 1 h1 1 hm1) (lt_irrefl 1)
            rw [hnone]
            split
            · exact le_rfl
            · exact Nat.zero_le 1
          · intro hle
            have hnone : ns.countP (0 < ·) = 0 := by
              have hpos : decide (0 < n + 1) = true := by simp
              rw [hpos] at hle
              simp only [if_true] at hle
              omega
            have hempty : ns.flatMap (fun n => List.range' 1 n) = [] := by
              rw [List.countP_eq_zero] at hnone
              rw [List.flatMap_eq_nil_iff]
              intro m hm
              have hzero : m = 0 := by
                have := hnone m hm
                simp only [decide_eq_true_eq] at this
                omega
              rw [hzero]
              rfl
            rw [hempty]
            exact ⟨hrange, .nil, fun _ _ _ hm => (nomatch hm)⟩

/-- What every lifetime of a history starts from. -/
theorem mem_lifetimes {pipelineId : List UInt8}
    {ls : List Lifetime} {file : List UInt8}
    {r : JournalState F × List JournalEvent}
    (h : r ∈ lifetimes pipelineId file ls) :
    ∃ cfg file', r.1 = journaldMain pipelineId cfg (some file') := by
  induction ls generalizing file with
  | nil => cases h
  | cons l ls ih =>
      rcases List.mem_cons.mp h with h | h
      · rw [h]
        exact ⟨l.cfg, file, rfl⟩
      · exact ih h

/-- A history's numbers are the lifetimes' own, one after the other. -/
theorem assigned_lifetimes (pipelineId : List UInt8) (file : List UInt8)
    (ls : List Lifetime) :
    assigned (lifetimes (F := F) pipelineId file ls)
      = ((lifetimes (F := F) pipelineId file ls).map fun r =>
          (journalRun r.1 r.2).records.length).flatMap
        fun n => List.range' 1 n := by
  unfold assigned
  rw [List.flatMap_map]
  apply List.flatMap_congr
  intro r hr
  obtain ⟨cfg, file', hstart⟩ := mem_lifetimes hr
  rw [hstart]
  exact (recorded_run pipelineId cfg (some file') r.2).windowSeqs

theorem receives_iff {pipelineId : List UInt8} {file : List UInt8}
    {ls : List Lifetime} {r : JournalState F × List JournalEvent}
    (h : r ∈ lifetimes pipelineId file ls) :
    0 < (journalRun r.1 r.2).records.length ↔ receives r.1 r.2 = true := by
  obtain ⟨cfg, file', hstart⟩ := mem_lifetimes h
  rw [List.length_pos_iff, records_ne_nil_iff]
  · rw [hstart]
    rfl
  · rw [hstart]
    rfl

/-- Increasing numbers are above every high-water mark drawn from the
ones before. -/
theorem neverReused_of_increasing {pipelineId : PipelineId}
    {windows : List Nat} (h : windows.Pairwise (· < ·)) :
    NeverReused pipelineId windows where
  increasing := h
  aboveHighWater before w after hsplit g hhigh := by
    rcases hhigh with hbot | ⟨v, hv, hhigh⟩
    · rw [hbot]
      exact WithBot.bot_lt_coe w
    · rw [hhigh]
      rw [hsplit, List.pairwise_append] at h
      exact WithBot.coe_lt_coe.mpr (h.2.2 v hv w List.mem_cons_self)

/-- Window numbers are never reused in a history exactly when at most one
of its lifetimes receives a submission. -/
theorem neverReused_iff (pipelineId : List UInt8) (file : List UInt8)
    (ls : List Lifetime) :
    NeverReused (strncpy31 pipelineId)
        (assigned (lifetimes (F := F) pipelineId file ls))
      ↔ (lifetimes (F := F) pipelineId file ls).countP
          (fun r => receives r.1 r.2) ≤ 1 := by
  have hcount : ((lifetimes (F := F) pipelineId file ls).map fun r =>
        (journalRun r.1 r.2).records.length).countP (0 < ·)
      = (lifetimes (F := F) pipelineId file ls).countP
          (fun r => receives r.1 r.2) := by
    rw [List.countP_map]
    apply List.countP_congr
    intro r hr
    show decide (0 < _) = true ↔ _
    rw [decide_eq_true_iff]
    exact receives_iff hr
  rw [← hcount, ← pairwise_flatMap_range', ← assigned_lifetimes]
  exact ⟨fun h => h.increasing, neverReused_of_increasing⟩

/-- Two lifetimes on one file, one submission in each. -/
def restartedOnce : List Lifetime :=
  [⟨defaultCfg, oneWorker ++ [submitFrom 1 1 1]⟩,
    ⟨defaultCfg, oneWorker ++ [submitFrom 2 1 2]⟩]

/-- Both are assigned window 1. -/
theorem restartedOnce_reuses :
    ¬ NeverReused (strncpy31 [112])
      (assigned (lifetimes (F := Binary64) [112] [] restartedOnce)) := by
  intro h
  have hwindows : assigned (lifetimes (F := Binary64) [112] [] restartedOnce)
      = [1, 1] := by
    decide +kernel
  have hinc := h.increasing
  rw [hwindows] at hinc
  exact absurd hinc (by decide)

end Obicall
