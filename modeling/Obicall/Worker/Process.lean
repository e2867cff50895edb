/-
The native workers (`worker_main.c`) in front of the journal.

# One worker

Its loop polls the provider; an event that the provider delivers is
decoded, validated and sent on (`onProviderEvent`).

# All of them

`SensorNet` is the journal with every worker that runs. A worker is named
by the boot id its provider drew, and its frames are on their way to the
journal in the order in which they were sent. A frame may also never
arrive, because the send fails, the connection breaks or the worker dies;
the thread of any connection may be the one that receives the next frame
of a worker. Both allow more than TCP does. The supervisor passes no fault
file, but a control observation may come at any time.
-/
import Mathlib.Logic.Function.Basic
import Obicall.Journald.Process
import Obicall.Osal.Frame
import Obicall.Provider.Sim

namespace Obicall

variable {F : Type} [DoubleArith F] [DoubleBits F]

-- ============================================================== one worker

/-- `on_provider_event`: the frame it sends, or `none` where it returns
before. -/
def onProviderEvent (F : Type) [DoubleArith F] [DoubleBits F]
    (event : ProviderEvent) : Option Frame :=
  if event.eventType ≠ 1 then none
  else match (obicallWireDecodeObservation event.payload :
      Status × Observation F) with
    | (.ok, obs) =>
        if obicallObservationValidate obs ≠ .ok then none
        else match obicallWireEncodeObservation obs 1200 with
          | .error _ => none
          | .ok buf => some ⟨msgObservationSubmit, buf⟩
    | (_, _) => none

-- ============================================================= the network

/-- The journal, the workers that run, and what they have sent and the
journal has not received. -/
structure SensorNet (F : Type) where
  journal : JournalState F
  workers : UInt64 → Option (SimProvider F)
  wires : UInt64 → List Frame

/-- What can happen next. -/
inductive SensorEvent (F : Type) where
  /-- a worker creates its provider and is connected -/
  | start (configJson : List UInt8) (instanceSeed : UInt64)
      (bootClock startClock : Int64)
  /-- a worker polls; what it sends arrives one day, or never -/
  | poll (worker : UInt64) (now : Int64) (arrives : Bool)
  | control (worker : UInt64) (obs : Observation F)
  | ends (worker : UInt64)
  /-- a thread of the journal receives a worker's next frame -/
  | receive (worker : UInt64) (i : Fin maxConnections) (now : Int64)
      (written : Written)
  /-- anything else that happens to the journal -/
  | journal (e : JournalEvent)

/-- Before the first worker. -/
def SensorNet.init (pipelineId : List UInt8) (cfg : JournalConfig)
    (segmentFile : Option (List UInt8)) : SensorNet F where
  journal := journaldMain pipelineId cfg segmentFile
  workers _ := none
  wires _ := []

variable [DoubleText F]

/-- A worker's turn: its provider's next state, and the frame it sends. -/
def SensorNet.poll (libm : Libm F) (s : SensorNet F) (worker : UInt64)
    (now : Int64) (arrives : Bool) : SensorNet F :=
  match s.workers worker with
  | none => s
  | some p =>
      let out := simPollEvents libm p now
      let frame := out.1.2.bind (onProviderEvent F)
      { s with
        workers := Function.update s.workers worker (some out.2)
        wires := Function.update s.wires worker
          (s.wires worker ++ if arrives then frame.toList else []) }

omit [DoubleText F] in
/-- A frame comes to a thread in its receive loop. -/
def SensorNet.receive (s : SensorNet F) (worker : UInt64)
    (i : Fin maxConnections) (now : Int64) (written : Written) :
    SensorNet F :=
  match (s.journal.conns i).at, s.wires worker with
  | some .worker, f :: rest =>
      { s with
        journal := s.journal.step
          (.submit i f.msgType f.payload now written)
        wires := Function.update s.wires worker rest }
  | _, _ => s

def SensorNet.step (libm : Libm F) (s : SensorNet F) :
    SensorEvent F → SensorNet F
  | .start configJson instanceSeed bootClock startClock =>
      let p := simCreate configJson instanceSeed bootClock startClock
      { s with workers := Function.update s.workers p.sourceBootId (some p) }
  | .poll worker now arrives => s.poll libm worker now arrives
  | .control worker obs =>
      { s with
        workers := Function.update s.workers worker
          ((s.workers worker).map fun p => simSubmit p obs) }
  | .ends worker =>
      { s with workers := Function.update s.workers worker none }
  | .receive worker i now written => s.receive worker i now written
  | .journal e =>
      match e with
      | .submit _ _ _ _ _ => s
      | e => { s with journal := s.journal.step e }

/-- A run from before the first worker. -/
def sensorRun (libm : Libm F) (pipelineId : List UInt8) (cfg : JournalConfig)
    (segmentFile : Option (List UInt8)) (es : List (SensorEvent F)) :
    SensorNet F :=
  Lib.Run.run (SensorNet.step libm) (.init pipelineId cfg segmentFile) es

-- ================================================================= readings

omit [DoubleArith F] [DoubleBits F] [DoubleText F] in
/-- The boot id that a start draws. -/
def SensorEvent.boot : SensorEvent F → Option UInt64
  | .start _ instanceSeed bootClock _ =>
      some (bootClock.toUInt64 ^^^ instanceSeed)
  | _ => none

omit [DoubleArith F] [DoubleBits F] [DoubleText F] in
/-- The clock that a poll reads. -/
def SensorEvent.clock : SensorEvent F → Option Int64
  | .poll _ now _ => some now
  | _ => none

omit [DoubleBits F] in
/-- A control observation that the provider obeys and that has readings
delayed. -/
def SensorEvent.Delays : SensorEvent F → Prop
  | .control _ obs =>
      (cString obs.sensorId = ctrlFault ∧ obs.payloadCount ≥ 1)
        ∧ DoubleText.toUInt32 (obs.payload.getD 0 (0.0 : F)) = simFaultDelay
  | _ => False

end Obicall
