/-
The supervisor (`supervisor.c`): the children it has spawned, the tick
that finds dead and hung ones and restarts them, and the hooks that kill,
suspend and resume a child by name.

# What comes from outside

A child's process ends when it likes, or some time after it is sent a
`SIGKILL`: that is an event of its own (`exits`), and the kill itself
leaves the supervisor's memory alone. The clocks, the age of a worker's
heartbeat file and the outcome of a spawn come in with the event that
asks for them. How the children's command lines are put together is not
modelled; `supervisorStart` takes what the table of children depends on.
-/
import Mathlib.Data.List.Basic
import Obicall.Core.Types
import Obicall.Lib.Run

namespace Obicall

-- ================================================================ children

/-- `SUPERVISOR_MAX_CHILDREN`. -/
abbrev supervisorMaxChildren : Nat := 32

/-- `osal_process_t`, as far as `osal_process_is_alive` tells. -/
structure OsalProcess where
  alive : Bool
  deriving DecidableEq

/-- `child_proc_t`; `name` is the string in the array. -/
structure ChildProc where
  name : List UInt8
  proc : Option OsalProcess
  restartCount : Nat
  windowStartNs : Int64
  isWorker : Bool
  restartSuspended : Bool
  deriving DecidableEq

/-- `sv->children`, the used part. -/
abbrev Supervisor : Type :=
  { children : List ChildProc // children.length ≤ supervisorMaxChildren }

/-- `spawn_child`; `spawn` is the clock after a spawn that succeeds. -/
def spawnChild (c : ChildProc) (spawn : Option Int64) : Bool × ChildProc :=
  match spawn with
  | none => (false, c)
  | some now => (true, { c with proc := some ⟨true⟩, windowStartNs := now })

-- =================================================================== start

/-- A child to start: its name, whether it is a worker, and how its spawn
ends. -/
structure ChildSpec where
  name : List UInt8
  isWorker : Bool
  spawn : Option Int64

/-- `add_child`, then `spawn_child`; `none` where `supervisor_start`
returns -1. -/
def startChild (sv : Supervisor) (spec : ChildSpec) : Option Supervisor :=
  if h : sv.val.length < supervisorMaxChildren then
    match spawnChild ⟨spec.name, none, 0, 0, spec.isWorker, false⟩
        spec.spawn with
    | (true, c) => some ⟨sv.val ++ [c], by rw [List.length_append]; exact h⟩
    | (false, _) => none
  else none

/-- `supervisor_start`, from the children it decides on. -/
def supervisorStart (specs : List ChildSpec) : Option Supervisor :=
  specs.foldlM startChild ⟨[], Nat.zero_le _⟩

/-- A child as `supervisor_start` leaves it. -/
structure ChildProc.Started (c : ChildProc) : Prop where
  proc : c.proc = some ⟨true⟩
  restartCount : c.restartCount = 0
  restartSuspended : c.restartSuspended = false

theorem startChild_started {sv sv' : Supervisor} {spec : ChildSpec}
    (h : startChild sv spec = some sv') (hsv : ∀ c ∈ sv.val, c.Started) :
    ∀ c ∈ sv'.val, c.Started := by
  rw [startChild] at h
  split at h
  · cases hspawn : spec.spawn with
    | none =>
        rw [hspawn] at h
        cases h
    | some t =>
        rw [hspawn] at h
        obtain rfl := Option.some.inj h
        intro c hc
        rcases List.mem_append.mp hc with hc | hc
        · exact hsv c hc
        · obtain rfl := List.mem_singleton.mp hc
          exact ⟨rfl, rfl, rfl⟩
  · cases h

/-- Every child that is started has a running process. -/
theorem supervisorStart_started {specs : List ChildSpec} {sv : Supervisor}
    (h : supervisorStart specs = some sv) : ∀ c ∈ sv.val, c.Started := by
  have hfold : ∀ (specs : List ChildSpec) (sv₀ : Supervisor),
      (∀ c ∈ sv₀.val, c.Started) → specs.foldlM startChild sv₀ = some sv →
      ∀ c ∈ sv.val, c.Started := by
    intro specs
    induction specs with
    | nil =>
        intro sv₀ hsv₀ h
        exact Option.some.inj h ▸ hsv₀
    | cons spec specs ih =>
        intro sv₀ hsv₀ h
        rw [List.foldlM_cons] at h
        obtain ⟨sv₁, hfirst, hrest⟩ := Option.bind_eq_some_iff.mp h
        exact ih sv₁ (startChild_started hfirst hsv₀) hrest
  refine hfold specs ⟨[], Nat.zero_le _⟩ ?_ h
  intro c hc
  cases hc

-- ==================================================================== tick

/-- What a child meets in a tick: the time of its heartbeat file
(negative without one), the wall clock, and how a spawn would end. -/
structure TickAnswer where
  mtimeNs : Int64
  realtimeNs : Int64
  spawn : Option Int64

/-- What the tick does about a child, as its messages tell. -/
inductive Monitored where
  /-- there is no handle to look at -/
  | absent
  | running
  /-- "restart suspended - leaving it stopped" -/
  | suspended
  /-- "exceeded restart bound (5/60s) - leaving it stopped" -/
  | exceeded
  | restarted
  /-- "failed to spawn" -/
  | spawnFailed
  deriving DecidableEq

/-- The staleness check on a worker past its grace period. -/
def ChildProc.hung (c : ChildProc) (now : Int64) (a : TickAnswer) : Bool :=
  c.isWorker && 4000000000 < now - c.windowStartNs
    && (a.mtimeNs < 0 || 5000000000 < a.realtimeNs - a.mtimeNs)

/-- The tick on a child found dead or hung, from `osal_process_close`
on. -/
def ChildProc.restart (c : ChildProc) (now : Int64) (a : TickAnswer) :
    ChildProc × Monitored :=
  let c := { c with proc := none }
  if c.restartSuspended then (c, .suspended)
  else
    let c := if 60000000000 < now - c.windowStartNs
      then { c with restartCount := 0, windowStartNs := now } else c
    if 5 ≤ c.restartCount then (c, .exceeded)
    else
      match spawnChild { c with restartCount := c.restartCount + 1 }
          a.spawn with
      | (true, c) => (c, .restarted)
      | (false, c) => (c, .spawnFailed)

/-- One turn of the loop of `supervisor_monitor_tick`. -/
def ChildProc.monitor (c : ChildProc) (now : Int64) (a : TickAnswer) :
    ChildProc × Monitored :=
  match c.proc with
  | none => (c, .absent)
  | some p =>
      if p.alive && !c.hung now a then (c, .running) else c.restart now a

/-- `supervisor_monitor_tick`: every child, each against the one `now`
read before the loop. -/
def supervisorMonitorTick (sv : Supervisor) (now : Int64)
    (answers : Nat → TickAnswer) : Supervisor × List Monitored :=
  (⟨sv.val.mapIdx fun i c => (c.monitor now (answers i)).1,
      by rw [List.length_mapIdx]; exact sv.property⟩,
    sv.val.mapIdx fun i c => (c.monitor now (answers i)).2)

-- ================================================================ outcomes

/-- The tick will try to start the child again, unless it is out of
attempts. -/
def ChildProc.Due (c : ChildProc) (now : Int64) (a : TickAnswer) : Prop :=
  (∃ p, c.proc = some p ∧ (p.alive = true → c.hung now a = true))
    ∧ c.restartSuspended = false

theorem ChildProc.Due.proc_ne_none {c : ChildProc} {now : Int64}
    {a : TickAnswer} (h : c.Due now a) : c.proc ≠ none := by
  obtain ⟨⟨p, hp, -⟩, -⟩ := h
  rw [hp]
  exact Option.some_ne_none p

theorem ChildProc.Due.not_running {c : ChildProc} {now : Int64}
    {a : TickAnswer} {p : OsalProcess} (h : c.Due now a)
    (hp : c.proc = some p) (halive : p.alive = true) :
    ¬ c.hung now a = false := by
  obtain ⟨⟨p', hp', hdown⟩, -⟩ := h
  obtain rfl := Option.some.inj (hp'.symm.trans hp)
  rw [hdown halive]
  exact Bool.noConfusion

/-- The number that the tick's attempt to start it would have. -/
def ChildProc.attempt (c : ChildProc) (now : Int64) : Nat :=
  (if 60000000000 < now - c.windowStartNs then 0 else c.restartCount) + 1

/-- What a turn of the tick's loop leaves of a child, case by case. -/
inductive MonitorCase (c : ChildProc) (now : Int64) (a : TickAnswer) :
    ChildProc × Monitored → Prop where
  | absent : c.proc = none → MonitorCase c now a (c, .absent)
  | running {p : OsalProcess} : c.proc = some p → p.alive = true →
      c.hung now a = false → MonitorCase c now a (c, .running)
  | suspended : c.proc.isSome = true → c.restartSuspended = true →
      MonitorCase c now a ({ c with proc := none }, .suspended)
  | exceeded : c.Due now a → 5 < c.attempt now →
      MonitorCase c now a ({ c with proc := none }, .exceeded)
  | restarted {t : Int64} : c.Due now a → c.attempt now ≤ 5 →
      a.spawn = some t →
      MonitorCase c now a
        ({ c with
            proc := some ⟨true⟩
            restartCount := c.attempt now
            windowStartNs := t }, .restarted)
  | spawnFailed (w : Int64) : c.Due now a → c.attempt now ≤ 5 →
      a.spawn = none →
      MonitorCase c now a
        ({ c with
            proc := none
            restartCount := c.attempt now
            windowStartNs := w }, .spawnFailed)

/-- The spawn at the end of the loop, for a child that is due and whose
attempt is counted. -/
theorem spawn_case {c : ChildProc} {now : Int64} {a : TickAnswer}
    (hdue : c.Due now a) (hatt : c.attempt now ≤ 5) (w : Int64) :
    MonitorCase c now a
      (match spawnChild
          { c with
            proc := none
            restartCount := c.attempt now
            windowStartNs := w } a.spawn with
        | (true, c) => (c, .restarted)
        | (false, c) => (c, .spawnFailed)) := by
  cases hspawn : a.spawn with
  | none => exact .spawnFailed w hdue hatt hspawn
  | some t => exact .restarted hdue hatt hspawn

theorem restart_case {c : ChildProc} {now : Int64} {a : TickAnswer}
    {p : OsalProcess} (hp : c.proc = some p)
    (hdown : p.alive = true → c.hung now a = true) :
    MonitorCase c now a (c.restart now a) := by
  rw [ChildProc.restart]
  cases hsusp : c.restartSuspended with
  | true => simpa [hsusp] using MonitorCase.suspended (by rw [hp]; rfl) hsusp
  | false =>
      have hdue : c.Due now a := ⟨⟨p, hp, hdown⟩, hsusp⟩
      simp only [Bool.false_eq_true, if_false]
      by_cases hwin : 60000000000 < now - c.windowStartNs
      · have hatt : c.attempt now = 1 := by
          rw [ChildProc.attempt, if_pos hwin]
        have hspawn := spawn_case hdue (by omega) now
        simp only [hatt, hsusp] at hspawn
        simp only [if_pos hwin]
        rw [if_neg (by decide)]
        exact hspawn
      · have hatt : c.attempt now = c.restartCount + 1 := by
          rw [ChildProc.attempt, if_neg hwin]
        simp only [if_neg hwin]
        split
        next hfull =>
          have hex := MonitorCase.exceeded hdue (by omega)
          simpa only [hsusp] using hex
        next hroom =>
          have hspawn := spawn_case hdue (by omega) c.windowStartNs
          simpa only [hatt, hsusp] using hspawn

theorem monitor_case (c : ChildProc) (now : Int64) (a : TickAnswer) :
    MonitorCase c now a (c.monitor now a) := by
  rw [ChildProc.monitor]
  cases hp : c.proc with
  | none => exact .absent hp
  | some p =>
      dsimp only
      split
      next hup =>
        rw [Bool.and_eq_true, Bool.not_eq_true'] at hup
        exact .running hp hup.1 hup.2
      next hdown =>
        refine restart_case hp fun halive => ?_
        simpa [halive] using hdown

-- =================================================================== hooks

/-- The child a kill is meant for: the first of its name that has a
handle. -/
def Supervisor.running (sv : Supervisor) (name : List UInt8) : Option Nat :=
  sv.val.findIdx? fun c => c.name == name && c.proc.isSome

/-- The first child of a name. -/
def Supervisor.named (sv : Supervisor) (name : List UInt8) : Option Nat :=
  sv.val.findIdx? fun c => c.name == name

def Supervisor.modify (sv : Supervisor) (i : Nat)
    (f : ChildProc → ChildProc) : Supervisor :=
  ⟨sv.val.modify i f, by rw [List.length_modify]; exact sv.property⟩

/-- `supervisor_kill_child`: whether there is a child to send the signal
to. The table stays as it is. -/
def supervisorKillChild (sv : Supervisor) (name : List UInt8) :
    Bool × Supervisor :=
  ((sv.running name).isSome, sv)

/-- `supervisor_kill_child_and_suspend`. -/
def supervisorKillChildAndSuspend (sv : Supervisor) (name : List UInt8) :
    Bool × Supervisor :=
  match sv.running name with
  | some i => (true, sv.modify i fun c => { c with restartSuspended := true })
  | none => (false, sv)

/-- `supervisor_resume_child`. -/
def supervisorResumeChild (sv : Supervisor) (name : List UInt8)
    (now : Int64) : Supervisor :=
  match sv.named name with
  | some i =>
      sv.modify i fun c =>
        { c with
          restartSuspended := false, restartCount := 0, windowStartNs := now }
  | none => sv

-- ==================================================================== runs

inductive SupervisorEvent where
  /-- the process of a child ends -/
  | exits (i : Nat)
  | tick (now : Int64) (answers : Nat → TickAnswer)
  | killChild (name : List UInt8)
  | killChildAndSuspend (name : List UInt8)
  | resumeChild (name : List UInt8) (now : Int64)

def Supervisor.step (sv : Supervisor) : SupervisorEvent → Supervisor
  | .exits i =>
      sv.modify i fun c => { c with proc := c.proc.map fun _ => ⟨false⟩ }
  | .tick now answers => (supervisorMonitorTick sv now answers).1
  | .killChild name => (supervisorKillChild sv name).2
  | .killChildAndSuspend name => (supervisorKillChildAndSuspend sv name).2
  | .resumeChild name now => supervisorResumeChild sv name now

/-- One child, and ticks that meet nothing unusual: every spawn succeeds
the moment the tick looks at the clock. -/
def oneChild : List ChildSpec := [⟨[65], false, some 0⟩]

def quiet (now : Int64) (_ : Nat) : TickAnswer := ⟨0, 0, some now⟩

-- =============================================================== one child

/-- What an event is to one child. -/
inductive ChildEvent where
  | nothing
  | exits
  | tick (now : Int64) (a : TickAnswer)
  | suspended
  | resumed (now : Int64)

def ChildProc.step (c : ChildProc) : ChildEvent → ChildProc
  | .nothing => c
  | .exits => { c with proc := c.proc.map fun _ => ⟨false⟩ }
  | .tick now a => (c.monitor now a).1
  | .suspended => { c with restartSuspended := true }
  | .resumed now =>
      { c with
        restartSuspended := false, restartCount := 0, windowStartNs := now }

/-- What an event is to the child at a place. -/
def SupervisorEvent.at (e : SupervisorEvent) (sv : Supervisor) (i : Nat) :
    ChildEvent :=
  match e with
  | .exits j => if j = i then .exits else .nothing
  | .tick now answers => .tick now (answers i)
  | .killChild _ => .nothing
  | .killChildAndSuspend name =>
      if sv.running name = some i then .suspended else .nothing
  | .resumeChild name now =>
      if sv.named name = some i then .resumed now else .nothing

theorem getElem?_modify (sv : Supervisor) (j : Nat)
    (f : ChildProc → ChildProc) (i : Nat) :
    (sv.modify j f).val[i]?
      = sv.val[i]?.map fun c => if j = i then f c else c := by
  rw [Supervisor.modify, List.getElem?_modify]
  by_cases h : j = i
  · simp [h]
  · simp [h]

/-- The children are machines of their own: an event moves each of them
by what it is to that child, and adds or removes none. -/
theorem step_getElem? (sv : Supervisor) (e : SupervisorEvent) (i : Nat) :
    (sv.step e).val[i]? = sv.val[i]?.map fun c => c.step (e.at sv i) := by
  cases e with
  | exits j =>
      rw [Supervisor.step, getElem?_modify]
      by_cases h : j = i
      · simp only [SupervisorEvent.at, if_pos h, ChildProc.step]
      · simp only [SupervisorEvent.at, if_neg h, ChildProc.step]
  | tick now answers => exact List.getElem?_mapIdx
  | killChild name => simp only [Supervisor.step, supervisorKillChild,
      SupervisorEvent.at, ChildProc.step, Option.map_id_fun', id]
  | killChildAndSuspend name =>
      rw [Supervisor.step, supervisorKillChildAndSuspend, SupervisorEvent.at]
      cases hrun : sv.running name with
      | none => simp [ChildProc.step]
      | some j =>
          rw [getElem?_modify]
          by_cases h : j = i
          · simp [h, ChildProc.step]
          · simp [h, ChildProc.step]
  | resumeChild name now =>
      rw [Supervisor.step, supervisorResumeChild, SupervisorEvent.at]
      cases hnamed : sv.named name with
      | none => simp [ChildProc.step]
      | some j =>
          rw [getElem?_modify]
          by_cases h : j = i
          · simp [h, ChildProc.step]
          · simp [h, ChildProc.step]

end Obicall
