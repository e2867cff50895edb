/-
The gate over the disk itself (`persist_locked` and
`osal_file_atomic_replace`): the state file and `<state file>.tmp` in one
directory, a gate that may be killed in the middle of a message, and a
machine that may lose its power at any time.

# What a persist can reach

`fopen` may fail (`unopened`); the write, the flush or the sync may fail,
or the gate may die before they are done (`wrote`); the rename may fail or
never come (`synced`). After the rename the directory is opened and
synced, and what comes of that is not looked at: `renamed` is also where
it ends when the directory does not open, does not sync, or when the state
file's name has no `/` in it. `persist_locked` answers 0 from there on
(`Reach.ok`).

# Runs

The handlers are those of the process, given what is read under the state
file's name and whether a persist would answer 0. `written` is a ghost:
the states that were renamed to the state file.
-/
import Mathlib.Data.List.Basic
import Obicall.Gate.Process
import Obicall.Lib.Publish

namespace Obicall

open Lib.Publish (Disk Reach)

/-- `persist_locked`, as far as it gets. The temporary file is opened
before the state is encoded. -/
def persistOnDisk (state : GateState) (disk : Disk) (reach : Reach) :
    Disk :=
  match obicallGatePersistState state with
  | .ok bytes => disk.publish bytes reach
  | .error _ => if reach = .unopened then disk else disk.publish [] (.wrote [])

/-- A gate process, its disk, and the replies it built. -/
structure GateOnDisk (F : Type) where
  proc : Option GateCtx
  disk : Disk
  outbox : List (Answer F × Fate)
  /-- the states renamed to the state file, in order -/
  written : List GateState

/-- Before the first start: an empty directory. -/
def GateOnDisk.init (F : Type) : GateOnDisk F where
  proc := none
  disk := .empty
  outbox := []
  written := []

inductive DiskEvent where
  | start (cfg : GateConfig) (now : Int64)
  /-- a message is handled, and the gate goes on -/
  | recv (msgType : UInt8) (payload : List UInt8) (now : Int64)
      (reach : Reach)
  /-- the gate is killed while it handles a message, before it replies -/
  | killed (msgType : UInt8) (payload : List UInt8) (now : Int64)
      (reach : Reach)
  | send (i : Nat)
  /-- the gate is killed between two messages -/
  | crash
  /-- the machine loses its power between two messages -/
  | powerLoss (k : Nat) (torn : Nat → List UInt8)
  /-- the machine loses its power while the gate handles a message -/
  | cutOff (msgType : UInt8) (payload : List UInt8) (now : Int64)
      (reach : Reach) (k : Nat) (torn : Nat → List UInt8)

/-- The power goes. -/
def DiskEvent.LosesPower : DiskEvent → Prop
  | .powerLoss .. | .cutOff .. => True
  | _ => False

instance : DecidablePred DiskEvent.LosesPower
  | .powerLoss .. | .cutOff .. => inferInstanceAs (Decidable True)
  | .start .. | .recv .. | .killed .. | .send .. | .crash =>
      inferInstanceAs (Decidable False)

variable {F : Type}

/-- After a handler, with its persist done as far as it got. -/
def GateOnDisk.after {α : Type} (g : GateOnDisk F) (h : Handled α)
    (reach : Reach) (answer : α → Answer F) : GateOnDisk F where
  proc := some h.ctx
  disk :=
    if h.saved.isSome then persistOnDisk h.ctx.state g.disk reach
    else g.disk
  outbox := g.outbox ++ (h.reply.map fun a => (answer a, .pending)).toList
  written :=
    if h.saved = some true then g.written ++ [h.ctx.state] else g.written

/-- The process is gone, and what it had not sent. -/
def GateOnDisk.die (g : GateOnDisk F) : GateOnDisk F :=
  { g with
    proc := none
    outbox := g.outbox.map fun o => (o.1, o.2.lose) }

variable [DoubleBits F]

/-- `connection_thread`'s switch on the message type. -/
def GateOnDisk.dispatch (g : GateOnDisk F) (ctx : GateCtx)
    (msgType : UInt8) (payload : List UInt8) (now : Int64)
    (reach : Reach) : GateOnDisk F :=
  let file := g.disk.read
  if msgType = msgHeartbeat then
    g.after (handleHeartbeat ctx file payload now reach.ok) reach
      .statusReply
  else if msgType = msgResultPublish then
    g.after (handleResultPublish (F := F) ctx file payload now reach.ok)
      reach fun a => .resultAck a.1 a.2
  else if msgType = msgStatusQuery then
    g.after (handleStatusQuery ctx file now) reach .statusReply
  else g

/-- A message to a process that is there. -/
def GateOnDisk.recv (g : GateOnDisk F) (msgType : UInt8)
    (payload : List UInt8) (now : Int64) (reach : Reach) : GateOnDisk F :=
  match g.proc with
  | none => g
  | some ctx => g.dispatch ctx msgType payload now reach

/-- One step. -/
def GateOnDisk.step (g : GateOnDisk F) : DiskEvent → GateOnDisk F
  | .start cfg now =>
      match g.proc, gateMain cfg g.disk.read now with
      | none, some ctx => { g with proc := some ctx }
      | _, _ => g
  | .recv msgType payload now reach => g.recv msgType payload now reach
  | .killed msgType payload now reach =>
      (g.recv msgType payload now reach).die
  | .send i =>
      match g.proc with
      | none => g
      | some _ =>
          { g with outbox := g.outbox.modify i fun o => (o.1, o.2.send) }
  | .crash => g.die
  | .powerLoss k torn => { g.die with disk := g.disk.powerLoss k torn }
  | .cutOff msgType payload now reach k torn =>
      let g := g.recv msgType payload now reach
      { g.die with disk := g.disk.powerLoss k torn }

/-- A run from before the first start. -/
def gateDiskRun (F : Type) [DoubleBits F] (es : List DiskEvent) :
    GateOnDisk F :=
  Lib.Run.run GateOnDisk.step (GateOnDisk.init F) es

end Obicall
