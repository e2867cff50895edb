/-
What a tick leaves of the children: running, suspended, just failed to
spawn, or out of attempts. It does so for every child that still has a
handle when the tick begins, and for no other.

# Strays

A child without a handle is passed over by every later tick, so it is
lost for good unless it is suspended or has used up its bound
(`ChildProc.Stray`). Two steps make a stray: resuming a child after a
tick has closed its handle, and a spawn that fails before the fifth
attempt (`ChildEvent.Strands`). A tick keeps the children up exactly when
no step before it made a stray (`tick_keepsUp_iff`).
-/
import Mathlib.Data.List.Basic
import Obicall.Supervisor.Process

namespace Obicall

open Lib.Run

-- ============================================================= statement

/-- What is asked of a child after a tick: it runs, or is suspended, or
its spawn has just failed, or its bound is used up. Five attempts counted
use it up, for good: no tick counts again for a child without a handle. -/
def ChildProc.KeptUp (c : ChildProc) (m : Monitored) : Prop :=
  (∃ p, c.proc = some p ∧ p.alive = true) ∨ c.restartSuspended = true
    ∨ m = .spawnFailed ∨ 5 ≤ c.restartCount

/-- The tick leaves every child so. -/
def KeepsUp (out : Supervisor × List Monitored) : Prop :=
  ∀ (i : Nat) (c : ChildProc) (m : Monitored),
    out.1.val[i]? = some c → out.2[i]? = some m → c.KeptUp m

/-- The child is resumed without a handle, or its spawn fails, and not
the fifth time. -/
def ChildEvent.Strands (c : ChildProc) : ChildEvent → Prop
  | .tick now a => c.Due now a ∧ c.attempt now < 5 ∧ a.spawn = none
  | .resumed _ => c.proc = none
  | _ => False

/-- No child is stranded by the event. -/
def makesNoStray (sv : Supervisor) (e : SupervisorEvent) : Prop :=
  ∀ (i : Nat) (c : ChildProc), sv.val[i]? = some c →
    ¬ (e.at sv i).Strands c

-- ============================================================= one child

/-- Without a handle, and nothing that explains it. -/
def ChildProc.Stray (c : ChildProc) : Prop :=
  c.proc = none ∧ c.restartSuspended = false ∧ c.restartCount < 5

theorem not_stray_of_proc {c : ChildProc} (h : c.proc ≠ none) :
    ¬ c.Stray := fun hstray => h hstray.1

theorem restartCount_of_exceeded {c : ChildProc} {now : Int64}
    (h : 5 < c.attempt now) : 5 ≤ c.restartCount := by
  rw [ChildProc.attempt] at h
  split at h
  · omega
  · omega

/-- The tick leaves a child as asked unless it is a stray. -/
theorem keptUp_monitor (c : ChildProc) (now : Int64) (a : TickAnswer) :
    (c.monitor now a).1.KeptUp (c.monitor now a).2 ↔ ¬ c.Stray := by
  have hcase := monitor_case c now a
  generalize c.monitor now a = out at hcase ⊢
  cases hcase with
  | absent hp => simp [ChildProc.KeptUp, ChildProc.Stray, hp, imp_iff_not_or]
  | running hp halive hfresh =>
      have hsome : c.proc ≠ none := by rw [hp]; exact Option.some_ne_none _
      exact iff_of_true (.inl ⟨_, hp, halive⟩) (not_stray_of_proc hsome)
  | suspended hp hsusp =>
      have hsome := Option.isSome_iff_ne_none.mp hp
      exact iff_of_true (.inr (.inl hsusp)) (not_stray_of_proc hsome)
  | exceeded hdue hatt =>
      exact iff_of_true (.inr (.inr (.inr (restartCount_of_exceeded hatt))))
        (not_stray_of_proc hdue.proc_ne_none)
  | restarted hdue hatt hspawn =>
      exact iff_of_true (.inl ⟨_, rfl, rfl⟩)
        (not_stray_of_proc hdue.proc_ne_none)
  | spawnFailed w hdue hatt hspawn =>
      exact iff_of_true (.inr (.inr (.inl rfl)))
        (not_stray_of_proc hdue.proc_ne_none)

/-- A tick makes a stray by the last kind of spawn failure only. -/
theorem stray_monitor (c : ChildProc) (now : Int64) (a : TickAnswer) :
    (c.monitor now a).1.Stray
      ↔ c.Stray ∨ (ChildEvent.tick now a).Strands c := by
  have hcase := monitor_case c now a
  generalize c.monitor now a = out at hcase ⊢
  cases hcase with
  | absent hp =>
      refine (or_iff_left ?_).symm
      rintro ⟨hdue, -⟩
      exact hdue.proc_ne_none hp
  | running hp halive hfresh =>
      refine (or_iff_left ?_).symm
      rintro ⟨hdue, -⟩
      exact hdue.not_running hp halive hfresh
  | suspended hp hsusp =>
      refine iff_of_false (fun h => ?_) ?_
      · rw [h.2.1] at hsusp
        cases hsusp
      · rintro (h | ⟨⟨-, h⟩, -⟩)
        · exact not_stray_of_proc (Option.isSome_iff_ne_none.mp hp) h
        · rw [h] at hsusp
          cases hsusp
  | exceeded hdue hatt =>
      have hcount := restartCount_of_exceeded hatt
      refine iff_of_false (fun h => ?_) ?_
      · exact absurd h.2.2 (Nat.not_lt.mpr hcount)
      · rintro (h | ⟨-, h, -⟩)
        · exact not_stray_of_proc hdue.proc_ne_none h
        · omega
  | restarted hdue hatt hspawn =>
      refine iff_of_false (fun h => Option.some_ne_none _ h.1) ?_
      rintro (h | ⟨-, -, h⟩)
      · exact not_stray_of_proc hdue.proc_ne_none h
      · rw [hspawn] at h
        cases h
  | spawnFailed w hdue hatt hspawn =>
      rw [or_iff_right (not_stray_of_proc hdue.proc_ne_none)]
      constructor
      · rintro ⟨-, -, hcount⟩
        exact ⟨hdue, hcount, hspawn⟩
      · rintro ⟨-, hcount, -⟩
        exact ⟨rfl, hdue.2, hcount⟩

/-- What an event makes of a child. A suspension is meant for a child
with a handle. -/
theorem stray_step {c : ChildProc} {e : ChildEvent}
    (hsusp : e = .suspended → c.proc ≠ none) :
    (c.step e).Stray ↔ c.Stray ∨ e.Strands c := by
  cases e with
  | nothing => exact (or_iff_left id).symm
  | exits => simp [ChildProc.step, ChildProc.Stray, ChildEvent.Strands]
  | tick now a => exact stray_monitor c now a
  | suspended =>
      refine iff_of_false (fun h => Bool.noConfusion h.2.1) ?_
      rintro (h | h)
      · exact not_stray_of_proc (hsusp rfl) h
      · exact h
  | resumed now =>
      constructor
      · rintro ⟨hp, -, -⟩
        exact .inr hp
      · rintro (⟨hp, -, -⟩ | hp)
        · exact ⟨hp, rfl, Nat.zero_lt_succ 4⟩
        · exact ⟨hp, rfl, Nat.zero_lt_succ 4⟩

-- ============================================================== all of them

/-- Only a child with a handle is suspended. -/
theorem proc_of_suspended {sv : Supervisor} {e : SupervisorEvent} {i : Nat}
    {c : ChildProc} (hc : sv.val[i]? = some c)
    (he : e.at sv i = .suspended) : c.proc ≠ none := by
  cases e with
  | exits j =>
      rw [SupervisorEvent.at] at he
      split at he
      · cases he
      · cases he
  | tick now answers => cases he
  | killChild name => cases he
  | killChildAndSuspend name =>
      rw [SupervisorEvent.at] at he
      split at he
      next hrun =>
        rw [Supervisor.running, List.findIdx?_eq_some_iff_getElem] at hrun
        obtain ⟨hi, hfound, -⟩ := hrun
        rw [List.getElem?_eq_getElem hi] at hc
        rw [Option.some.inj hc, Bool.and_eq_true] at hfound
        exact Option.isSome_iff_ne_none.mp hfound.2
      · cases he
  | resumeChild name now =>
      rw [SupervisorEvent.at] at he
      split at he
      · cases he
      · cases he

def NoStray (sv : Supervisor) : Prop :=
  ∀ (i : Nat) (c : ChildProc), sv.val[i]? = some c → ¬ c.Stray

/-- A step leaves no stray exactly when there was none and it makes
none. -/
theorem noStray_step (sv : Supervisor) (e : SupervisorEvent) :
    NoStray (sv.step e) ↔ NoStray sv ∧ makesNoStray sv e := by
  have hchild : ∀ (i : Nat) (c : ChildProc), sv.val[i]? = some c →
      ((c.step (e.at sv i)).Stray ↔ c.Stray ∨ (e.at sv i).Strands c) :=
    fun i c hc => stray_step (proc_of_suspended hc)
  constructor
  · intro h
    refine ⟨fun i c hc hstray => ?_, fun i c hc hstray => ?_⟩
    · refine h i (c.step (e.at sv i)) ?_ ((hchild i c hc).mpr (.inl hstray))
      rw [step_getElem?, hc]
      rfl
    · refine h i (c.step (e.at sv i)) ?_ ((hchild i c hc).mpr (.inr hstray))
      rw [step_getElem?, hc]
      rfl
  · rintro ⟨hno, hmakes⟩ i c' hc' hstray
    rw [step_getElem?] at hc'
    obtain ⟨c, hc, rfl⟩ := Option.map_eq_some_iff.mp hc'
    rcases (hchild i c hc).mp hstray with h | h
    · exact hno i c hc h
    · exact hmakes i c hc h

/-- A tick keeps the children up exactly when none is a stray. -/
theorem keepsUp_tick (sv : Supervisor) (now : Int64)
    (answers : Nat → TickAnswer) :
    KeepsUp (supervisorMonitorTick sv now answers) ↔ NoStray sv := by
  have hat : ∀ i, (supervisorMonitorTick sv now answers).1.val[i]?
        = sv.val[i]?.map fun c : ChildProc =>
          (c.monitor now (answers i)).1 :=
    fun i => List.getElem?_mapIdx
  have hseen : ∀ i, (supervisorMonitorTick sv now answers).2[i]?
        = sv.val[i]?.map fun c : ChildProc =>
          (c.monitor now (answers i)).2 :=
    fun i => List.getElem?_mapIdx
  constructor
  · intro h i c hc
    refine (keptUp_monitor c now (answers i)).mp (h i _ _ ?_ ?_)
    · rw [hat, hc]; rfl
    · rw [hseen, hc]; rfl
  · intro h i c' m hc' hm
    rw [hat] at hc'
    obtain ⟨c, hc, rfl⟩ := Option.map_eq_some_iff.mp hc'
    rw [hseen, hc] at hm
    obtain rfl := Option.some.inj hm
    exact (keptUp_monitor c now (answers i)).mpr (h i c hc)

-- ==================================================================== runs

/-- Every child that is started has a handle. -/
theorem noStray_start {specs : List ChildSpec} {sv : Supervisor}
    (h : supervisorStart specs = some sv) : NoStray sv := by
  intro i c hc
  have hstarted := supervisorStart_started h c (List.mem_of_getElem? hc)
  apply not_stray_of_proc
  rw [hstarted.proc]
  exact Option.some_ne_none _

/-- After any events, a tick keeps the children up exactly when no event
before it made a stray. -/
theorem tick_keepsUp_iff {specs : List ChildSpec} {sv : Supervisor}
    (hstart : supervisorStart specs = some sv)
    (es : List SupervisorEvent) (now : Int64) (answers : Nat → TickAnswer) :
    KeepsUp (supervisorMonitorTick (run Supervisor.step sv es) now answers)
      ↔ Meets Supervisor.step makesNoStray sv es := by
  rw [keepsUp_tick, run_iff_meets (I := fun _ => True)
    (fun _ _ _ => trivial) (fun sv e _ => noStray_step sv e) trivial]
  exact and_iff_right (noStray_start hstart)

/-- A child that dies is up again after the tick. -/
theorem tick_keepsUp_iff_crash :
    ∃ sv, supervisorStart oneChild = some sv
      ∧ KeepsUp (supervisorMonitorTick
          (run Supervisor.step sv [.exits 0]) 1000 (quiet 1000)) := by
  obtain ⟨sv, hstart⟩ : ∃ sv, supervisorStart oneChild = some sv := ⟨_, rfl⟩
  refine ⟨sv, hstart,
    (tick_keepsUp_iff hstart [.exits 0] 1000 (quiet 1000)).mpr ?_⟩
  refine ⟨fun i c _ h => ?_, trivial⟩
  rw [SupervisorEvent.at] at h
  split at h
  · exact h
  · exact h

/-- Suspended, found dead, resumed: the next tick does not see it. -/
theorem resumed_not_restarted :
    ∃ sv, supervisorStart oneChild = some sv
      ∧ ¬ KeepsUp (supervisorMonitorTick
          (run Supervisor.step sv
            [.killChildAndSuspend [65], .exits 0, .tick 1000 (quiet 1000),
              .resumeChild [65] 2000]) 3000 (quiet 3000)) := by
  refine ⟨_, rfl, fun h => ?_⟩
  have hkept := h 0 ⟨[65], none, 0, 2000, false, false⟩ .absent rfl rfl
  rcases hkept with ⟨p, hp, -⟩ | hsusp | hfailed | hcount
  · cases hp
  · cases hsusp
  · cases hfailed
  · exact absurd hcount (by decide)

end Obicall
