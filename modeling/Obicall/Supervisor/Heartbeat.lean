/-
Hang detection: the file that a worker's loop touches
(`worker_main.c`, `procutil_write_pid_file`), and the staleness check of
the supervisor's tick on it (`supervisor_monitor_tick`,
`osal_file_mtime_ns`).

# The two programs

A worker writes `<--runtime-dir>/<--worker-name>.pid` once when it starts
and then in its loop, when the last write is 200 ms ago. The supervisor
looks at `<sv->runtime_dir>/<c->name>.pid`, both parts as it keeps them.
A file's time is in whole seconds.

# Runs

`HangWatch` is a worker with the supervisor's record of it. Turns of the
worker's loop, ticks of the supervisor and its hooks come in any order and
at any time; a turn stands for its heartbeat, what else it does is in when
it comes. Both programs read the monotonic and the wall clock of the one
machine. The process may end at any time, and a tick may start another
one. The ghost fields say when the process last did something, and when
its loop last turned with its heartbeat written.
-/
import Mathlib.Data.List.Basic
import Mathlib.Logic.Function.Basic
import Obicall.Supervisor.Start

namespace Obicall

-- ================================================================== paths

/-- The path of `procutil_write_pid_file`, `none` where it is too long. -/
def pidFilePath (runtimeDir name : List UInt8) : Option (List UInt8) :=
  let path := runtimeDir ++ ascii "/" ++ name ++ ascii ".pid"
  if path.length < 1024 then some path else none

/-- `path` of the staleness check. -/
def watchedPath (runtimeDir name : List UInt8) : List UInt8 :=
  cut 700 (runtimeDir ++ ascii "/" ++ name ++ ascii ".pid")

/-- The path that the worker of a provider writes. -/
def StartWorld.pidFile (w : StartWorld) (sl : ProviderSlot) (isB : Bool) :
    Option (List UInt8) :=
  pidFilePath w.runtimeDir (workerName sl isB)

/-- The path that the supervisor looks at for this worker;
`sv->runtime_dir` and `c->name` are arrays of 512 and of 64. -/
def StartWorld.watchedFile (w : StartWorld) (sl : ProviderSlot)
    (isB : Bool) : List UInt8 :=
  watchedPath (cut 512 w.runtimeDir) (cut 64 (workerName sl isB))

-- =================================================================== state

/-- `osal_file_mtime_ns`, from the `st_mtime` of a file that is there. -/
def osalFileMtimeNs : Option Int64 → Int64
  | none => -1
  | some seconds => seconds * 1000000000

/-- A worker, its heartbeat file, and the supervisor's record of it. -/
structure HangWatch where
  child : ChildProc
  /-- the path the worker writes -/
  writes : Option (List UInt8)
  /-- the path the supervisor looks at -/
  watches : List UInt8
  /-- `st_mtime` of the files that are there -/
  mtimes : List UInt8 → Option Int64
  /-- `last_heartbeat_write` of the process -/
  lastWrite : Int64
  /-- the last reading of the monotonic clock -/
  clock : Int64
  /-- the last turn of the process's loop, if its heartbeat is written -/
  turned : Option Int64
  /-- when the process was spawned or resumed, or last did something -/
  active : Int64

/-- A worker that was just spawned. -/
def HangWatch.spawned (name : List UInt8) (writes : Option (List UInt8))
    (watches : List UInt8) (mtimes : List UInt8 → Option Int64)
    (now : Int64) : HangWatch where
  child := ⟨name, some ⟨true⟩, 0, now, true, false⟩
  writes := writes
  watches := watches
  mtimes := mtimes
  lastWrite := 0
  clock := now
  turned := none
  active := now

inductive WatchEvent where
  /-- a new process writes its pid file before anything else -/
  | boot (now real : Int64) (ok : Bool)
  /-- the worker's loop comes to its heartbeat -/
  | turn (now real : Int64) (ok : Bool)
  /-- the process ends -/
  | exits
  /-- a tick of the supervisor -/
  | tick (now real : Int64) (spawn : Option Int64)
  /-- `supervisor_kill_child_and_suspend` finds this worker -/
  | suspended
  /-- `supervisor_resume_child` finds this worker -/
  | resumed (now : Int64)

/-- There is a process, and it runs. -/
def HangWatch.live (h : HangWatch) : Bool :=
  h.child.proc.any fun p => p.alive

-- =================================================================== steps

/-- `procutil_write_pid_file`, when opening, writing and renaming go well
(`ok`). -/
def HangWatch.write (h : HangWatch) (real : Int64) (ok : Bool) : HangWatch :=
  match ok, h.writes with
  | true, some path =>
      { h with
        mtimes := Function.update h.mtimes path (some (real / 1000000000)) }
  | _, _ => h

/-- The heartbeat of a turn. -/
def HangWatch.beat (h : HangWatch) (now real : Int64) (ok : Bool) :
    HangWatch :=
  if 200000000 ≤ now - h.lastWrite then
    { h.write real ok with
      lastWrite := now
      turned := if ok then some now else none }
  else { h with turned := h.turned.map fun _ => now }

/-- What the tick finds of this worker. -/
def HangWatch.answer (h : HangWatch) (real : Int64) (spawn : Option Int64) :
    TickAnswer where
  mtimeNs := osalFileMtimeNs (h.mtimes h.watches)
  realtimeNs := real
  spawn := spawn

/-- What the tick does about this worker. -/
def HangWatch.monitored (h : HangWatch) (now real : Int64)
    (spawn : Option Int64) : ChildProc × Monitored :=
  h.child.monitor now (h.answer real spawn)

/-- One step. -/
def HangWatch.step (h : HangWatch) : WatchEvent → HangWatch
  | .boot now real ok =>
      if h.live then { h.write real ok with clock := now, active := now }
      else h
  | .turn now real ok =>
      if h.live then { h.beat now real ok with clock := now, active := now }
      else h
  | .exits => { h with child := h.child.step .exits }
  | .tick now real spawn =>
      let out := h.monitored now real spawn
      match out.2 with
      | .restarted =>
          { h with
            child := out.1
            lastWrite := 0
            clock := out.1.windowStartNs
            turned := none
            active := out.1.windowStartNs }
      | _ => { h with child := out.1, clock := now }
  | .suspended => { h with child := h.child.step .suspended }
  | .resumed now =>
      { h with
        child := h.child.step (.resumed now), clock := now, active := now }

-- ================================================================== clocks

/-- The readings of the monotonic and the wall clock that come with an
event. -/
def WatchEvent.readings : WatchEvent → Option (Int64 × Int64)
  | .boot now real _ | .turn now real _ | .tick now real _ => some (now, real)
  | _ => none

/-- The reading of the monotonic clock. -/
def WatchEvent.monotonic : WatchEvent → Option Int64
  | .resumed now => some now
  | e => e.readings.map Prod.fst

/-- The clock after a spawn that the event makes. -/
def WatchEvent.spawn : WatchEvent → Option Int64
  | .tick _ _ spawn => spawn
  | _ => none

/-- The monotonic clock does not go back, the wall clock stays `off` ahead
of it, and neither is near the end of its range. -/
structure Clocked (off : Int) (h : HangWatch) (e : WatchEvent) : Prop where
  onward : ∀ now, e.monotonic = some now →
    h.clock.toInt ≤ now.toInt ∧ now.toInt < 2 ^ 62
  inStep : ∀ now real, e.readings = some (now, real) →
    real.toInt = now.toInt + off ∧ 0 ≤ real.toInt ∧ real.toInt < 2 ^ 62
  spawn : ∀ now, e.monotonic = some now → ∀ t, e.spawn = some t →
    now.toInt ≤ t.toInt ∧ t.toInt < 2 ^ 62

end Obicall
