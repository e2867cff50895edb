/-
`supervisor_start` (`supervisor.c`): the children it decides on, in the
order in which it starts them, and where it gives up.

# The plan

The journal, the gate, and then each broker with the workers of its own. A
child's command line is put together when its turn comes, so the gate's
has no port in it yet, and the brokers' have the ports that the journal
and the gate have reported by then. `launches` is the plan with the
answers that the start gets on the way; `none` in it is where the start
returns -1 before it comes to the next child.

# What is kept of a child

`add_child` keeps a child's name, executable and arguments for the spawns
of later ticks, each in an array of its own size: `ChildImage.kept`.
-/
import Obicall.Manifest.Parse
import Obicall.Supervisor.CommandLines
import Obicall.Supervisor.Process

namespace Obicall

variable {F : Type}

-- ==================================================================== paths

/-- `dirname_of`, with the array before it `"."` where the path has no
separator. -/
def dirnameOf (path : List UInt8) (outCap : Nat) : List UInt8 :=
  match path.reverse.dropWhile fun c => !(c == 0x2F || c == 0x5C) with
  | [] => ascii "."
  | _ :: dir => dir.reverse.take (outCap - 1)

/-- `sv->cfg.manifests_dir` once it is resolved against the directory of
the configuration file, with `behind` after it in memory. -/
def resolvedManifestsDir (configPath : List UInt8) (cfg : PipelineConfig F)
    (behind : List UInt8) : List UInt8 :=
  cut 512 (cut 1024
    (dirnameOf configPath 512 ++ ascii "/" ++ textIn cfg.manifestsDir behind))

/-- `provider_manifest_language`, on the bytes of the file. -/
def providerManifestLanguage (F : Type) [DoubleArith F] [DoubleText F]
    (file : Option (List UInt8)) : UInt32 :=
  match file with
  | none => 0
  | some bytes =>
      match obicallManifestParseJson (F := F) (bytes.take 8192) with
      | .error _ => 0
      | .ok m => m.language

-- ================================================================= children

/-- `SUPERVISOR_MAX_ARGV`. -/
abbrev supervisorMaxArgv : Nat := 40

/-- The arguments of `add_child`, and what `child_proc_t` keeps of them. -/
structure ChildImage where
  name : List UInt8
  exePath : List UInt8
  argv : List (List UInt8)
  isWorker : Bool

/-- `add_child` with its `set_argv`. -/
def ChildImage.kept (im : ChildImage) : ChildImage where
  name := cut 64 im.name
  exePath := cut 512 im.exePath
  argv := im.argv.take (supervisorMaxArgv - 1)
  isWorker := im.isWorker

/-- What `supervisor_start` is told and what it meets: its arguments, the
file of the configuration, what memory holds behind `manifests_dir` and
behind the names of each provider once it is loaded, how the spawn of each
child ends, the ports that are reported in time, the manifests by their
path, and where Python and its parts are. -/
structure StartWorld where
  configPath : List UInt8
  runtimeDir : List UInt8
  binDir : List UInt8
  configFile : Option (List UInt8)
  behindManifestsDir : List UInt8
  behindProvider : Nat → List UInt8
  token : RunToken
  spawned : Nat → Option Int64
  journalPort : Option UInt16
  gatePort : Option UInt16
  manifests : List UInt8 → Option (List UInt8)
  pythonExe : Option (List UInt8)
  scriptPath : List UInt8
  coreLibPath : List UInt8

/-- What the command lines are written from. -/
def StartWorld.setup (w : StartWorld) (cfg : PipelineConfig F)
    (journalPort gatePort : UInt16) : RunSetup F where
  runtimeDir := w.runtimeDir
  binDir := w.binDir
  token := w.token
  cfg := cfg
  manifestsDir := resolvedManifestsDir w.configPath cfg w.behindManifestsDir
  journalPort := journalPort
  gatePort := gatePort

/-- The providers, each with what is behind it. -/
def StartWorld.slots (w : StartWorld) (cfg : PipelineConfig F) :
    List ProviderSlot :=
  cfg.providers.val.zipIdx.map fun p => ⟨p.1, w.behindProvider p.2⟩

/-- `wargv` of a Python worker. -/
def pythonArgv (w : StartWorld) (su : RunSetup F) (sl : ProviderSlot)
    (isB : Bool) (manifest python : List UInt8) : List (List UInt8) :=
  python :: w.scriptPath
    :: (Lib.Options.spell (workerOpts su sl isB manifest)
      ++ [ascii "--core-lib", w.coreLibPath])

def journalImage (su : RunSetup F) : ChildImage where
  name := ascii "journal"
  exePath := su.exe "obicall-journald"
  argv := journalArgv su
  isWorker := false

def gateImage (su : RunSetup F) : ChildImage where
  name := ascii "gate"
  exePath := su.exe "obicall-gated"
  argv := gateArgv su
  isWorker := false

/-- `broker_name`. -/
def brokerName (isB : Bool) : List UInt8 :=
  ascii "broker_" ++ brokerLetter isB

def brokerImage [DoublePrint F] (su : RunSetup F) (isB : Bool) :
    ChildImage where
  name := brokerName isB
  exePath := su.exe "obicall-brokerd"
  argv := brokerArgv su isB
  isWorker := false

/-- The worker of a provider; `none` where its manifest's path is too long
or there is no Python for it. -/
def workerImage [DoubleArith F] [DoubleText F] (w : StartWorld)
    (su : RunSetup F) (isB : Bool) (sl : ProviderSlot) : Option ChildImage :=
  match manifestPath su sl with
  | none => none
  | some manifest =>
      if providerManifestLanguage F (w.manifests manifest) = langPython then
        match w.pythonExe with
        | none => none
        | some python => some
            { name := workerName sl isB
              exePath := python
              argv := pythonArgv w su sl isB manifest python
              isWorker := true }
      else some
        { name := workerName sl isB
          exePath := su.exe "obicall-workerd"
          argv := workerArgv su sl isB manifest
          isWorker := true }

-- ==================================================================== start

variable [DoubleArith F] [DoublePrint F] [DoubleText F]

/-- A broker and its workers. -/
def brokerLaunches (w : StartWorld) (su : RunSetup F) (isB : Bool) :
    List (Option ChildImage) :=
  some (brokerImage su isB)
    :: (w.slots su.cfg).map (workerImage w su isB)

/-- The children in the order of their starts. -/
def launches (w : StartWorld) (cfg : PipelineConfig F) :
    List (Option ChildImage) :=
  some (journalImage (w.setup cfg 0 0))
    :: match w.journalPort with
      | none => [none]
      | some jport =>
          some (gateImage (w.setup cfg jport 0))
            :: match w.gatePort with
              | none => [none]
              | some gport =>
                  let su := w.setup cfg jport gport
                  brokerLaunches w su false ++ brokerLaunches w su true

/-- The children so far, and what is kept of each. -/
structure Launched where
  sv : Supervisor
  kept : List ChildImage

def Launched.empty : Launched := ⟨⟨[], Nat.zero_le _⟩, []⟩

/-- `add_child` and `spawn_child`: whether there is a process, and the
children with the new one, which stays in the table when there is none. -/
def Launched.add (l : Launched) (im : ChildImage) (spawn : Option Int64)
    (h : l.sv.val.length < supervisorMaxChildren) : Bool × Launched :=
  let c := spawnChild ⟨im.kept.name, none, 0, 0, im.isWorker, false⟩ spawn
  (c.1,
    { sv := ⟨l.sv.val ++ [c.2], by rw [List.length_append]; exact h⟩
      kept := l.kept ++ [im.kept] })

/-- One child after the other, and whether the start comes through. -/
def launch (spawned : Nat → Option Int64) :
    List (Option ChildImage) → Launched → Bool × Launched
  | [], l => (true, l)
  | none :: _, l => (false, l)
  | some im :: rest, l =>
      if h : l.sv.val.length < supervisorMaxChildren then
        let out := l.add im (spawned l.sv.val.length) h
        if out.1 then launch spawned rest out.2 else out
      else (false, l)

/-- `supervisor_start`: whether it returns 0, and the children it leaves
behind; `none` where the configuration's sensor list is written behind its
array. -/
def supervisorStartIn (F : Type) [DoubleArith F] [DoublePrint F]
    [DoubleText F] (w : StartWorld) : Option (Bool × Launched) :=
  match (pipelineConfigLoad w.configFile : ConfigLoad F) with
  | .failed _ => some (false, .empty)
  | .overrun => none
  | .loaded cfg => some (launch w.spawned (launches w cfg) .empty)

end Obicall
