/-
The processes behind the supervisor's handles (`osal_process.c` as
`supervisor.c` calls it): what is spawned, signalled and waited for, over
whole runs, from a start that may give up half-way to the shutdown.

`SupervisorHost` is the supervisor with every process it has ever spawned,
by their order; a process keeps its number when it has ended, as the system
keeps its pid until it is waited for. A process ends when it likes. A
`SIGKILL` ends it sooner or later, which the waits behind it may not see:
that comes in with the event.
-/
import Obicall.Supervisor.Start

namespace Obicall

-- =============================================================== processes

/-- A process that was spawned for a child: whether it has ended, has been
sent a `SIGKILL`, and has been waited for, which frees its pid. -/
structure SpawnedProc where
  child : Nat
  ended : Bool
  killed : Bool
  reaped : Bool

/-- Every process so far, the one that each child has its handle of, and
whether a signal was ever sent to a pid that had been freed. -/
structure Processes where
  procs : List SpawnedProc
  handle : Nat → Option Nat
  strayed : Bool

def Processes.empty : Processes := ⟨[], fun _ => none, false⟩

/-- `osal_process_spawn`, with its handle put into a child. -/
def Processes.spawn (ps : Processes) (i : Nat) : Processes :=
  { ps with
    procs := ps.procs ++ [⟨i, false, false, false⟩]
    handle := fun j => if j = i then some ps.procs.length else ps.handle j }

/-- A process ends. -/
def Processes.exit (ps : Processes) (p : Nat) : Processes :=
  { ps with procs := ps.procs.modify p fun e => { e with ended := true } }

/-- A signal goes to a pid. -/
def Processes.signal (ps : Processes) (p : Nat) (kill : Bool) : Processes :=
  { ps with
    procs := ps.procs.modify p fun e =>
      { e with killed := e.killed || kill }
    strayed := ps.strayed || (ps.procs[p]?.any fun e => e.reaped) }

/-- `waitpid`, at the end of a wait in which the process ends or does
not. -/
def Processes.wait (ps : Processes) (p : Nat) (ends : Bool) : Processes :=
  { ps with
    procs := ps.procs.modify p fun e =>
      { e with ended := e.ended || ends, reaped := e.ended || ends } }

/-- `osal_process_close`, and the handle set to `NULL`. -/
def Processes.close (ps : Processes) (i : Nat) : Processes :=
  { ps with handle := fun j => if j = i then none else ps.handle j }

/-- The process has ended. -/
def Processes.ended (ps : Processes) (p : Nat) : Bool :=
  ps.procs[p]?.any fun e => e.ended

/-- The tick on a child found dead or hung: what is still alive is killed,
and it is waited for. -/
def Processes.settle (ps : Processes) (i : Nat) (ends : Bool) : Processes :=
  match ps.handle i with
  | none => ps
  | some p =>
      if ps.ended p then (ps.wait p false).close i
      else ((ps.signal p true).wait p ends).close i

/-- What the tick does about a child's process. -/
def Processes.tickChild (ps : Processes) (i : Nat) (did : Monitored)
    (ends : Bool) : Processes :=
  match did with
  | .absent | .running => ps
  | .suspended | .exceeded | .spawnFailed => ps.settle i ends
  | .restarted => (ps.settle i ends).spawn i

/-- A `SIGTERM` to a child that has a process. -/
def Processes.terminate (ps : Processes) (i : Nat) : Processes :=
  match ps.handle i with
  | none => ps
  | some p => ps.signal p false

/-- The second loop of `supervisor_stop_all`. -/
def Processes.stop (ps : Processes) (i : Nat) (ends : Bool) : Processes :=
  match ps.handle i with
  | none => ps
  | some p => ((ps.signal p true).wait p ends).close i

-- ==================================================================== host

/-- The supervisor, and its processes. -/
structure SupervisorHost where
  sv : Supervisor
  ps : Processes

/-- What `supervisor_start` leaves: a process for each child that has a
handle. -/
def SupervisorHost.started (sv : Supervisor) : SupervisorHost where
  sv := sv
  ps := (List.range sv.val.length).foldl (fun ps i =>
    if sv.val[i]?.any fun c => c.proc.isSome then ps.spawn i else ps) .empty

inductive HostEvent where
  /-- a process ends -/
  | exits (p : Nat)
  /-- `ends` is whether a child's killed process is seen to end -/
  | tick (now : Int64) (answers : Nat → TickAnswer) (ends : Nat → Bool)
  | killChild (name : List UInt8)
  | killChildAndSuspend (name : List UInt8)
  | resumeChild (name : List UInt8) (now : Int64)
  | stopAll (ends : Nat → Bool)

/-- `supervisor_monitor_tick`, with what it does about the processes. -/
def SupervisorHost.tick (h : SupervisorHost) (now : Int64)
    (answers : Nat → TickAnswer) (ends : Nat → Bool) : SupervisorHost where
  sv := (supervisorMonitorTick h.sv now answers).1
  ps := (supervisorMonitorTick h.sv now answers).2.zipIdx.foldl
    (fun ps did => ps.tickChild did.2 did.1 (ends did.2)) h.ps

/-- The end of a process, which a child that has its handle will see. -/
def SupervisorHost.exits (h : SupervisorHost) (p : Nat) : SupervisorHost where
  sv :=
    match h.ps.procs[p]? with
    | none => h.sv
    | some e =>
        if h.ps.handle e.child = some p then h.sv.step (.exits e.child)
        else h.sv
  ps := h.ps.exit p

/-- The `SIGKILL` of the two hooks. -/
def SupervisorHost.kill (h : SupervisorHost) (name : List UInt8) :
    Processes :=
  match (h.sv.running name).bind h.ps.handle with
  | none => h.ps
  | some p => h.ps.signal p true

/-- `supervisor_stop_all`. -/
def SupervisorHost.stopAll (h : SupervisorHost) (ends : Nat → Bool) :
    SupervisorHost where
  sv := ⟨h.sv.val.map fun c => { c with proc := none }, by
    rw [List.length_map]; exact h.sv.property⟩
  ps :=
    let n := h.sv.val.length
    let ps := (List.range n).foldl Processes.terminate h.ps
    (List.range n).foldl (fun ps i => ps.stop i (ends i)) ps

def SupervisorHost.step (h : SupervisorHost) : HostEvent → SupervisorHost
  | .exits p => h.exits p
  | .tick now answers ends => h.tick now answers ends
  | .killChild name => { h with ps := h.kill name }
  | .killChildAndSuspend name =>
      { sv := h.sv.step (.killChildAndSuspend name), ps := h.kill name }
  | .resumeChild name now =>
      { h with sv := h.sv.step (.resumeChild name now) }
  | .stopAll ends => h.stopAll ends

end Obicall
