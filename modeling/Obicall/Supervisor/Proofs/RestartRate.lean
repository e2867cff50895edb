/-
How often a child is restarted, against "5 restarts per 60s window". As
long as nobody resumes it, no interval of sixty seconds holds more than
five restarts of one child (`restarts_in_a_minute`).

# Restarts in a row

The window has no fixed beginning: every spawn moves it, so the counter
goes back to zero only when a child has stayed up for more than sixty
seconds. What the counter counts is therefore the restarts in a row that
each came within sixty seconds of the start before (`quickInARow`). That
is enough for the bound, since the rows are more than sixty seconds
apart. It is also why a child that dies once a minute is left stopped
after its fifth restart (`stopped_iff`).
-/
import Mathlib.Data.List.Basic
import Obicall.Lib.Bursts
import Obicall.Lib.Elapsed
import Obicall.Supervisor.Process

namespace Obicall

open Lib.Run Lib.Bursts

-- =============================================================== the record

/-- What is remembered of a child: when it was found down and started
again, and that it was resumed. -/
inductive LogEntry where
  | restarted (found start : Int64)
  | resumed

/-- What an event adds to it. -/
def ChildProc.logged (c : ChildProc) : ChildEvent → List LogEntry
  | .tick now a =>
      match (c.monitor now a).2, a.spawn with
      | .restarted, some t => [.restarted now t]
      | _, _ => []
  | .resumed _ => [.resumed]
  | _ => []

/-- The supervisor beside the records of its children, latest first. -/
structure Watched where
  sv : Supervisor
  log : Nat → List LogEntry

def Watched.step (w : Watched) (e : SupervisorEvent) : Watched :=
  { sv := w.sv.step e
    log := fun i => match w.sv.val[i]? with
      | some c => c.logged (e.at w.sv i) ++ w.log i
      | none => w.log i }

/-- The record of a child after some events. -/
def restartLog (sv : Supervisor) (es : List SupervisorEvent) (i : Nat) :
    List LogEntry :=
  (run Watched.step ⟨sv, fun _ => []⟩ es).log i

/-- When the restarts in a record happened. -/
def starts : List LogEntry → List Int
  | [] => []
  | .restarted _ start :: log => start.toInt :: starts log
  | .resumed :: log => starts log

theorem mem_starts {s : Int} {log : List LogEntry} :
    s ∈ starts log
      ↔ ∃ found start, .restarted found start ∈ log ∧ s = start.toInt := by
  induction log with
  | nil => simp [starts]
  | cons entry log ih =>
      cases entry with
      | restarted found start =>
          rw [starts, List.mem_cons, ih]
          constructor
          · rintro (rfl | ⟨f, t, hmem, rfl⟩)
            · exact ⟨found, start, List.mem_cons_self, rfl⟩
            · exact ⟨f, t, List.mem_cons_of_mem _ hmem, rfl⟩
          · rintro ⟨f, t, hmem, rfl⟩
            rcases List.mem_cons.mp hmem with heq | hmem
            · cases heq
              exact .inl rfl
            · exact .inr ⟨f, t, hmem, rfl⟩
      | resumed => simp [starts, ih]

/-- Restarts in a row up to `now`: each time the child was found down no
more than sixty seconds after the start before. -/
def quickInARow (now : Int64) : List LogEntry → Nat
  | .restarted found start :: log =>
      if 60000000000 < now - start then 0 else quickInARow found log + 1
  | _ => 0

theorem run_watched_sv (w : Watched) (es : List SupervisorEvent) :
    (run Watched.step w es).sv = run Supervisor.step w.sv es := by
  induction es generalizing w with
  | nil => rfl
  | cons e es ih => exact ih (w.step e)

-- =================================================================== clocks

/-- The event comes with this reading of the monotonic clock. -/
def SupervisorEvent.Reads (e : SupervisorEvent) (t : Int64) : Prop :=
  match e with
  | .tick now answers => t = now ∨ ∃ i, (answers i).spawn = some t
  | .resumeChild _ now => t = now
  | _ => False

/-- A tick reads the clock before it spawns anything. -/
def SupervisorEvent.Forward : SupervisorEvent → Prop
  | .tick now answers => ∀ i t, (answers i).spawn = some t → now ≤ t
  | _ => True

def SupervisorEvent.Before (e f : SupervisorEvent) : Prop :=
  ∀ t u, e.Reads t → f.Reads u → t ≤ u

/-- The clock never goes back. -/
def ClockForward (es : List SupervisorEvent) : Prop :=
  (∀ e ∈ es, e.Forward) ∧ es.Pairwise SupervisorEvent.Before

/-- `supervisor_resume_child` is called. -/
def SupervisorEvent.Resumes : SupervisorEvent → Prop
  | .resumeChild _ _ => True
  | _ => False

-- ============================================================= one child

/-- The counter and the window say what the record says, while there is a
handle. -/
def ChildProc.Counts (c : ChildProc) (log : List LogEntry) : Prop :=
  c.proc ≠ none → ∀ now, c.attempt now = quickInARow now log + 1

/-- A record of restarts within the bound, by a clock that never goes
back. -/
inductive Kept : List LogEntry → Prop where
  | nil : Kept []
  | restarted {found start : Int64} {log : List LogEntry} :
      found ≤ start → (∀ s ∈ starts log, s ≤ found.toInt) →
      quickInARow found log < 5 → Kept log →
      Kept (.restarted found start :: log)
  | resumed {log : List LogEntry} : Kept log → Kept (.resumed :: log)

theorem Kept.sorted {log : List LogEntry} (h : Kept log) :
    (starts log).Pairwise (· ≥ ·) := by
  induction h with
  | nil => exact .nil
  | restarted hle hlate _ _ ih =>
      refine List.pairwise_cons.mpr ⟨fun s hs => ?_, ih⟩
      exact Int.le_trans (hlate s hs) (Int64.le_iff_toInt_le.mp hle)
  | resumed _ ih => exact ih

/-- What a tick is for a child whose counter is right. -/
theorem counts_monitor {c : ChildProc} {log : List LogEntry} (now : Int64)
    (a : TickAnswer) (h : c.Counts log) :
    (c.monitor now a).1.Counts (c.logged (.tick now a) ++ log) := by
  have hcase := monitor_case c now a
  rw [ChildProc.logged]
  generalize c.monitor now a = out at hcase ⊢
  cases hcase with
  | absent hp => exact h
  | running hp halive hfresh => exact h
  | suspended hp hsusp => exact fun hsome => (hsome rfl).elim
  | exceeded hdue hatt => exact fun hsome => (hsome rfl).elim
  | @restarted t hdue hatt hspawn =>
      obtain ⟨⟨p, hp, -⟩, -⟩ := hdue
      have hcount := h (by rw [hp]; exact Option.some_ne_none p) now
      intro _ later
      simp only [hspawn, List.cons_append, List.nil_append, quickInARow]
      rw [← hcount, ChildProc.attempt]
  | spawnFailed w hdue hatt hspawn => exact fun hsome => (hsome rfl).elim

theorem counts_step {c : ChildProc} {log : List LogEntry} (e : ChildEvent)
    (h : c.Counts log) : (c.step e).Counts (c.logged e ++ log) := by
  cases e with
  | nothing => exact h
  | exits =>
      intro hsome now
      refine h (fun hp => hsome ?_) now
      rw [ChildProc.step, hp]
      rfl
  | tick now a => exact counts_monitor now a h
  | suspended => exact h
  | resumed t =>
      intro _ now
      change (if _ then 0 else 0) + 1 = 0 + 1
      rw [ite_self]

/-- An event of a child whose readings come no earlier than the restarts
so far. -/
def ChildEvent.Late (log : List LogEntry) : ChildEvent → Prop
  | .tick now a => (∀ s ∈ starts log, s ≤ now.toInt)
      ∧ ∀ t, a.spawn = some t → now ≤ t
  | _ => True

theorem kept_step {c : ChildProc} {log : List LogEntry} {e : ChildEvent}
    (hcounts : c.Counts log) (hlate : e.Late log) (h : Kept log) :
    Kept (c.logged e ++ log) := by
  cases e with
  | tick now a =>
      rw [ChildProc.logged]
      have hcase := monitor_case c now a
      generalize c.monitor now a = out at hcase ⊢
      cases hcase with
      | @restarted t hdue hatt hspawn =>
          obtain ⟨⟨p, hp, -⟩, -⟩ := hdue
          have hcount := hcounts (by rw [hp]; exact Option.some_ne_none p) now
          simp only [hspawn, List.cons_append, List.nil_append]
          exact .restarted (hlate.2 t hspawn) hlate.1 (by omega) h
      | _ => exact h
  | resumed t => exact .resumed h
  | _ => exact h

-- ===================================================================== runs

/-- The event accounts for an entry of a record. -/
def SupervisorEvent.Accounts (e : SupervisorEvent) : LogEntry → Prop
  | .restarted _ start => e.Reads start
  | .resumed => e.Resumes

theorem accounts_logged {sv : Supervisor} {e : SupervisorEvent} {i : Nat}
    {c : ChildProc} {entry : LogEntry}
    (h : entry ∈ c.logged (e.at sv i)) : e.Accounts entry := by
  cases e with
  | tick now answers =>
      simp only [SupervisorEvent.at, ChildProc.logged] at h
      split at h
      next t _ hspawn =>
        obtain rfl := List.mem_singleton.mp h
        exact .inr ⟨i, hspawn⟩
      next => cases h
  | resumeChild name now =>
      rw [SupervisorEvent.at] at h
      split at h
      · obtain rfl := List.mem_singleton.mp h
        trivial
      · cases h
  | killChild name => cases h
  | exits j =>
      rw [SupervisorEvent.at] at h
      split at h
      · cases h
      · cases h
  | killChildAndSuspend name =>
      rw [SupervisorEvent.at] at h
      split at h
      · cases h
      · cases h

/-- What holds of the records after some events. -/
structure RestartsRecorded (es : List SupervisorEvent) (w : Watched) : Prop where
  counts : ∀ (i : Nat) (c : ChildProc), w.sv.val[i]? = some c →
    c.Counts (w.log i)
  kept : ∀ i, Kept (w.log i)
  accounted : ∀ i, ∀ entry ∈ w.log i, ∃ e ∈ es, e.Accounts entry

theorem restartsRecorded_start {specs : List ChildSpec} {sv : Supervisor}
    (h : supervisorStart specs = some sv) :
    RestartsRecorded [] ⟨sv, fun _ => []⟩ := by
  refine ⟨fun i c hc _ now => ?_, fun _ => .nil, fun _ _ hentry => ?_⟩
  · have hstarted := supervisorStart_started h c (List.mem_of_getElem? hc)
    rw [ChildProc.attempt, hstarted.restartCount, ite_self]
    rfl
  · cases hentry

/-- What the clock says of the next event, to each child. -/
theorem late_at {es : List SupervisorEvent} {w : Watched}
    {e : SupervisorEvent} (hforward : e.Forward)
    (hclock : ∀ d ∈ es, d.Before e) (h : RestartsRecorded es w) (i : Nat) :
    (e.at w.sv i).Late (w.log i) := by
  cases e with
  | tick now answers =>
      refine ⟨fun s hs => ?_, hforward i⟩
      obtain ⟨found, start, hentry, rfl⟩ := mem_starts.mp hs
      obtain ⟨d, hd, hread⟩ := h.accounted i _ hentry
      exact Int64.le_iff_toInt_le.mp (hclock d hd start now hread (.inl rfl))
  | killChild name => trivial
  | exits j =>
      rw [SupervisorEvent.at]
      split
      · trivial
      · trivial
  | killChildAndSuspend name =>
      rw [SupervisorEvent.at]
      split
      · trivial
      · trivial
  | resumeChild name now =>
      rw [SupervisorEvent.at]
      split
      · trivial
      · trivial

theorem restartsRecorded_step {es : List SupervisorEvent} {w : Watched}
    {e : SupervisorEvent} (hforward : e.Forward)
    (hclock : ∀ d ∈ es, d.Before e) (h : RestartsRecorded es w) :
    RestartsRecorded (es ++ [e]) (w.step e) := by
  have hlog : ∀ i c, w.sv.val[i]? = some c →
      (w.step e).log i = c.logged (e.at w.sv i) ++ w.log i := by
    intro i c hc
    simp only [Watched.step, hc]
  have hsame : ∀ i, w.sv.val[i]? = none → (w.step e).log i = w.log i := by
    intro i hc
    simp only [Watched.step, hc]
  have hold : ∀ i, ∀ entry ∈ w.log i,
      ∃ d ∈ es ++ [e], d.Accounts entry := by
    intro i entry hentry
    obtain ⟨d, hd, haccounts⟩ := h.accounted i entry hentry
    exact ⟨d, List.mem_append_left _ hd, haccounts⟩
  refine ⟨fun i c' hc' => ?_, fun i => ?_, fun i entry hentry => ?_⟩
  · rw [Watched.step, step_getElem?] at hc'
    obtain ⟨c, hc, rfl⟩ := Option.map_eq_some_iff.mp hc'
    rw [hlog i c hc]
    exact counts_step _ (h.counts i c hc)
  · cases hc : w.sv.val[i]? with
    | none =>
        rw [hsame i hc]
        exact h.kept i
    | some c =>
        rw [hlog i c hc]
        exact kept_step (h.counts i c hc) (late_at hforward hclock h i)
          (h.kept i)
  · cases hc : w.sv.val[i]? with
    | none =>
        rw [hsame i hc] at hentry
        exact hold i entry hentry
    | some c =>
        rw [hlog i c hc] at hentry
        rcases List.mem_append.mp hentry with hnew | hentry
        · exact ⟨e, List.mem_append_right _ (List.mem_singleton_self e),
            accounts_logged hnew⟩
        · exact hold i entry hentry

theorem restartsRecorded_run {specs : List ChildSpec} {sv : Supervisor}
    (hstart : supervisorStart specs = some sv) {es : List SupervisorEvent}
    (hclock : ClockForward es) :
    RestartsRecorded es (run Watched.step ⟨sv, fun _ => []⟩ es) := by
  rw [← List.nil_append es]
  exact run_trace_of_pairwise
    (fun _ _ _ hforward hbefore h => restartsRecorded_step hforward hbefore h)
    (restartsRecorded_start hstart) hclock.1 hclock.2

-- ============================================================== the bound

/-- The restarts on top that the counter counts. -/
def rowLength : List LogEntry → Nat
  | .restarted found _ :: log => quickInARow found log + 1
  | _ => 0

/-- Without a resumption, the rows of a record are bursts. -/
theorem Kept.burst {log : List LogEntry} (h : Kept log)
    (hno : LogEntry.resumed ∉ log) :
    Burst 5 (rowLength log) 60000000000 (starts log) := by
  induction h with
  | nil => exact Burst.nil
  | @restarted found start log hle hlate hquick hkept ih =>
      have hburst := ih fun hmem => hno (List.mem_cons_of_mem _ hmem)
      have hlast : ∀ s ∈ starts log, s ≤ start.toInt := fun s hs =>
        Int.le_trans (hlate s hs) (Int64.le_iff_toInt_le.mp hle)
      cases hkept with
      | nil => exact Burst.join hburst hlast
      | resumed _ => exact (hno (List.mem_cons_of_mem _ List.mem_cons_self)).elim
      | @restarted found' start' log' hle' hlate' hquick' hkept' =>
          have hafter : start' ≤ found :=
            Int64.le_iff_toInt_le.mpr (hlate _ List.mem_cons_self)
          simp only [rowLength, quickInARow] at hburst hquick ⊢
          by_cases hgap : 60000000000 < found - start'
          · -- the child stayed up for long: a new row
            rw [if_pos hgap]
            have hminute : (60000000000 : Int64).toInt = 60000000000 := rfl
            have hfound := Lib.Elapsed.lt_of_lt_sub hafter hgap
            rw [hminute] at hfound
            have hstart := Int64.le_iff_toInt_le.mp hle
            refine Burst.begin hburst hquick' fun s hs => ?_
            rcases List.mem_cons.mp hs with rfl | hs
            · omega
            · have hs' := hlate' s hs
              have hstart' := Int64.le_iff_toInt_le.mp hle'
              omega
          · rw [if_neg hgap]
            exact Burst.join hburst hlast
  | resumed _ _ => exact (hno List.mem_cons_self).elim

theorem Kept.rowLength_le {log : List LogEntry} (h : Kept log) :
    rowLength log ≤ 5 := by
  cases h with
  | nil => exact Nat.zero_le 5
  | restarted _ _ hquick _ => exact hquick
  | resumed _ => exact Nat.zero_le 5

/-- In a run in which nobody resumes a child, no closed interval of sixty
seconds holds more than five restarts of one child. -/
theorem restarts_in_a_minute {specs : List ChildSpec} {sv : Supervisor}
    (hstart : supervisorStart specs = some sv) {es : List SupervisorEvent}
    (hclock : ClockForward es) (hno : ∀ e ∈ es, ¬ e.Resumes) (i : Nat)
    (t : Int) :
    (starts (restartLog sv es i)).countP
      (fun s => t ≤ s ∧ s ≤ t + 60000000000) ≤ 5 := by
  have hrec := restartsRecorded_run hstart hclock
  have hkept : Kept (restartLog sv es i) := hrec.kept i
  have hnone : LogEntry.resumed ∉ restartLog sv es i := by
    intro hmem
    obtain ⟨e, he, hresumes⟩ := hrec.accounted i _ hmem
    exact hno e he hresumes
  exact ((hkept.burst hnone).bursts hkept.rowLength_le).countP_le t

/-- The child dies and is found down, again and again. -/
def crashes (ticks : List Int64) : List SupervisorEvent :=
  ticks.flatMap fun t => [.exits 0, .tick t (quiet t)]

theorem reads_of_mem_crash {e : SupervisorEvent} {t u : Int64}
    (he : e ∈ [.exits 0, SupervisorEvent.tick t (quiet t)])
    (hread : e.Reads u) : u = t := by
  rcases List.mem_cons.mp he with rfl | he
  · exact hread.elim
  · obtain rfl := List.mem_singleton.mp he
    rcases hread with rfl | ⟨i, hspawn⟩
    · rfl
    · exact (Option.some.inj hspawn).symm

theorem crashes_clockForward {ticks : List Int64}
    (h : ticks.Pairwise (· ≤ ·)) : ClockForward (crashes ticks) := by
  constructor
  · intro e he
    obtain ⟨t, -, he⟩ := List.mem_flatMap.mp he
    rcases List.mem_cons.mp he with rfl | he
    · trivial
    · obtain rfl := List.mem_singleton.mp he
      intro i u hu
      exact Int64.le_of_eq (Option.some.inj hu)
  · rw [crashes, List.pairwise_flatMap]
    refine ⟨fun t _ => ?_, h.imp fun hle e he f hf t u ht hu => ?_⟩
    · refine List.pairwise_pair.mpr fun u v hu _ => hu.elim
    · rw [reads_of_mem_crash he ht, reads_of_mem_crash hf hu]
      exact hle

theorem not_resumes_of_mem_crashes {ticks : List Int64}
    {e : SupervisorEvent} (h : e ∈ crashes ticks) : ¬ e.Resumes := by
  obtain ⟨t, -, he⟩ := List.mem_flatMap.mp h
  rcases List.mem_cons.mp he with rfl | he
  · exact id
  · rw [List.mem_singleton.mp he]
    exact id

/-- A child that dies every second, five times. -/
def fastTicks : List Int64 :=
  [1000000000, 2000000000, 3000000000, 4000000000, 5000000000]

/-- A child that dies a sixth time is not started again: the minute from
the first restart on has no more than the five. -/
theorem restarts_in_a_minute_five :
    ∃ sv, supervisorStart oneChild = some sv
      ∧ starts (restartLog sv (crashes (fastTicks ++ [6000000000])) 0)
        = [5000000000, 4000000000, 3000000000, 2000000000, 1000000000]
      ∧ (starts (restartLog sv (crashes (fastTicks ++ [6000000000]))
          0)).countP (fun s => 1000000000 ≤ s
            ∧ s ≤ 1000000000 + 60000000000) ≤ 5 := by
  obtain ⟨sv, hstart, hlog⟩ : ∃ sv, supervisorStart oneChild = some sv
      ∧ starts (restartLog sv (crashes (fastTicks ++ [6000000000])) 0)
        = [5000000000, 4000000000, 3000000000, 2000000000, 1000000000] :=
    ⟨_, rfl, rfl⟩
  have hclock : ClockForward (crashes (fastTicks ++ [6000000000])) :=
    crashes_clockForward (by decide)
  exact ⟨sv, hstart, hlog, restarts_in_a_minute hstart hclock
    (fun _ => not_resumes_of_mem_crashes) 0 1000000000⟩

-- =========================================================== left stopped

/-- The tick finds the child down after five restarts in a row, the first
of them more than sixty seconds ago. -/
def ChildProc.SlowlyUsedUp (c : ChildProc) (log : List LogEntry)
    (now : Int64) (a : TickAnswer) : Prop :=
  c.Due now a ∧ 5 ≤ quickInARow now log
    ∧ ∃ s, (starts log)[4]? = some s ∧ s + 60000000000 < now.toInt

theorem monitor_exceeded {c : ChildProc} {now : Int64} {a : TickAnswer} :
    (c.monitor now a).2 = .exceeded ↔ c.Due now a ∧ 5 < c.attempt now := by
  have hcase := monitor_case c now a
  generalize c.monitor now a = out at hcase ⊢
  cases hcase with
  | exceeded hdue hatt => exact iff_of_true rfl ⟨hdue, hatt⟩
  | absent hp =>
      refine iff_of_false (by simp) fun h => ?_
      exact h.1.proc_ne_none hp
  | running hp halive hfresh =>
      refine iff_of_false (by simp) fun h => ?_
      exact h.1.not_running hp halive hfresh
  | suspended hp hsusp =>
      refine iff_of_false (by simp) fun h => ?_
      rw [h.1.2] at hsusp
      cases hsusp
  | restarted hdue hatt hspawn =>
      exact iff_of_false (by simp) fun h => Nat.not_lt.mpr hatt h.2
  | spawnFailed w hdue hatt hspawn =>
      exact iff_of_false (by simp) fun h => Nat.not_lt.mpr hatt h.2

theorem starts_of_quick {now : Int64} {log : List LogEntry}
    {k : Nat} (h : k < quickInARow now log) : ∃ s, (starts log)[k]? = some s := by
  induction log generalizing now k with
  | nil => cases h
  | cons entry log ih =>
      cases entry with
      | resumed => cases h
      | restarted found start =>
          rw [quickInARow] at h
          split at h
          · cases h
          · cases k with
            | zero => exact ⟨_, rfl⟩
            | succ k => exact ih (Nat.lt_of_succ_lt_succ h)

/-- A child that a tick leaves stopped because of the bound has five
restarts within the sixty seconds before exactly when it was not used up
slowly. -/
theorem stopped_iff {specs : List ChildSpec} {sv : Supervisor}
    (hstart : supervisorStart specs = some sv) {es : List SupervisorEvent}
    {now : Int64} {answers : Nat → TickAnswer}
    (hclock : ClockForward (es ++ [.tick now answers])) {i : Nat}
    {c : ChildProc} (hc : (run Supervisor.step sv es).val[i]? = some c) :
    ((supervisorMonitorTick (run Supervisor.step sv es) now answers).2[i]?
          = some .exceeded →
        5 ≤ (starts (restartLog sv es i)).countP fun s =>
          now.toInt - 60000000000 ≤ s ∧ s ≤ now.toInt)
      ↔ ¬ c.SlowlyUsedUp (restartLog sv es i) now (answers i) := by
  have hbefore := List.pairwise_append.mp hclock.2
  have hrec := restartsRecorded_run hstart
    ⟨fun e he => hclock.1 e (List.mem_append_left _ he), hbefore.1⟩
  have hkept : Kept (restartLog sv es i) := hrec.kept i
  have hcounts : c.Counts (restartLog sv es i) := by
    refine hrec.counts i c ?_
    rw [run_watched_sv]
    exact hc
  have hpast : ∀ s ∈ starts (restartLog sv es i), s ≤ now.toInt := by
    intro s hs
    obtain ⟨found, start, hentry, rfl⟩ := mem_starts.mp hs
    obtain ⟨e, he, hread⟩ := hrec.accounted i _ hentry
    have hle := hbefore.2.2 e he _ (List.mem_singleton_self _)
    exact Int64.le_iff_toInt_le.mp (hle start now hread (.inl rfl))
  generalize restartLog sv es i = log at hkept hcounts hpast ⊢
  have hseen : (supervisorMonitorTick (run Supervisor.step sv es) now
        answers).2[i]? = some .exceeded
      ↔ c.Due now (answers i) ∧ 5 ≤ quickInARow now log := by
    rw [supervisorMonitorTick, List.getElem?_mapIdx, hc, Option.map_some,
      Option.some_inj, monitor_exceeded]
    refine and_congr_right fun hdue => ?_
    rw [hcounts hdue.proc_ne_none now]
    omega
  have hcount : 5 ≤ ((starts log).countP fun s =>
        now.toInt - 60000000000 ≤ s ∧ s ≤ now.toInt)
      ↔ ∃ s, (starts log)[4]? = some s ∧ now.toInt - 60000000000 ≤ s := by
    rw [← lt_countP_iff hkept.sorted 4]
    refine Iff.of_eq (congrArg (4 < ·) (List.countP_congr fun s hs => ?_))
    simp [hpast s hs]
  rw [hseen, hcount, ChildProc.SlowlyUsedUp]
  constructor
  · rintro h ⟨hdue, hquick, s, hs, hold⟩
    obtain ⟨s', hs', hnew⟩ := h ⟨hdue, hquick⟩
    obtain rfl := Option.some.inj (hs.symm.trans hs')
    omega
  · rintro h ⟨hdue, hquick⟩
    obtain ⟨s, hs⟩ := starts_of_quick (k := 4) hquick
    refine ⟨s, hs, ?_⟩
    by_contra hold
    exact h ⟨hdue, hquick, s, hs, by omega⟩

/-- A child that dies every 59 seconds. -/
def slowTicks : List Int64 :=
  [59000000000, 118000000000, 177000000000, 236000000000, 295000000000]

/-- It is found down the sixth time, and left stopped, one restart in the
last sixty seconds. -/
theorem slow_crashes_stopped :
    ∃ sv, supervisorStart oneChild = some sv
      ∧ ClockForward (crashes (slowTicks ++ [354000000000]))
      ∧ (supervisorMonitorTick
            (run Supervisor.step sv (crashes slowTicks ++ [.exits 0]))
            354000000000 (quiet 354000000000)).2[0]? = some .exceeded
      ∧ (starts (restartLog sv (crashes slowTicks ++ [.exits 0]) 0)).countP
          (fun s => 354000000000 - 60000000000 ≤ s ∧ s ≤ 354000000000) = 1 := by
  refine ⟨_, rfl, crashes_clockForward (by decide), by decide, by decide⟩

/-- A child that dies every second is left stopped with its five restarts
in the last sixty seconds. -/
theorem stopped_iff_fast :
    ∃ sv, supervisorStart oneChild = some sv
      ∧ (supervisorMonitorTick
            (run Supervisor.step sv (crashes fastTicks ++ [.exits 0]))
            6000000000 (quiet 6000000000)).2[0]? = some .exceeded
      ∧ 5 ≤ (starts (restartLog sv (crashes fastTicks ++ [.exits 0]) 0)).countP
          fun s => (6000000000 : Int64).toInt - 60000000000 ≤ s
            ∧ s ≤ (6000000000 : Int64).toInt := by
  obtain ⟨sv, c, hstart, hc, hstopped, hfifth⟩ :
      ∃ sv c, supervisorStart oneChild = some sv
        ∧ (run Supervisor.step sv
            (crashes fastTicks ++ [.exits 0])).val[0]? = some c
        ∧ (supervisorMonitorTick
            (run Supervisor.step sv (crashes fastTicks ++ [.exits 0]))
            6000000000 (quiet 6000000000)).2[0]? = some .exceeded
        ∧ (starts (restartLog sv
            (crashes fastTicks ++ [.exits 0]) 0))[4]? = some 1000000000 :=
    ⟨_, _, rfl, rfl, by decide, by decide⟩
  have hsame : crashes (fastTicks ++ [6000000000]) = crashes fastTicks
      ++ [.exits 0] ++ [.tick 6000000000 (quiet 6000000000)] := by
    simp [crashes]
  have hclock := crashes_clockForward
    (show (fastTicks ++ [6000000000]).Pairwise (· ≤ ·) by decide)
  rw [hsame] at hclock
  refine ⟨sv, hstart, hstopped, (stopped_iff hstart hclock hc).mpr ?_ hstopped⟩
  rintro ⟨-, -, s, hs, hold⟩
  obtain rfl := Option.some.inj (hfifth.symm.trans hs)
  exact absurd hold (by decide)

end Obicall
