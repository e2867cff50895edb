/-
The command lines of the children: how `supervisor_start` writes them, and
what the `main` of each process reads from its own.

# Writing

A child's `argv` is the executable and then options with values, of which
only a broker's last one has none. Strings come out of the configuration's
arrays; numbers and byte strings go through a buffer each. An array the
loader has left without a `NUL` is read on into what follows it: behind
`pipeline_id` that is `manifests_dir`, behind `manifest` it is
`worker_name`, and behind `worker_name` whatever a `ProviderSlot` says.

# Reading

The readers give the settings a process goes on with, `none` where `main`
returns 2. A digest that is not 64 characters long is left zero; one that
is, but has a character that is no digit, is left with the bytes in front
of that one. The options for tests, which nothing passes, are left out.
-/
import Obicall.Broker.Process
import Obicall.Common.Args
import Obicall.Common.Hello
import Obicall.Core.Journal
import Obicall.Gate.Process
import Obicall.Supervisor.Config

namespace Obicall

open Lib.Options Lib.Overlay

variable {F : Type}

-- ================================================================= writing

/-- What `supervisor_start` has when it writes command lines. `runtimeDir`
and `binDir` are its arguments; a port is known once its process has
reported it. -/
structure RunSetup (F : Type) where
  runtimeDir : List UInt8
  binDir : List UInt8
  token : RunToken
  cfg : PipelineConfig F
  /-- `sv->cfg.manifests_dir`, once it is resolved -/
  manifestsDir : List UInt8
  journalPort : UInt16
  gatePort : UInt16

/-- A provider of the configuration, and what follows its `worker_name` in
memory, from `instance_seed` on. -/
structure ProviderSlot where
  ref : ProviderRef
  behind : List UInt8

/-- `sv->cfg.pipeline_id`. -/
def RunSetup.pipelineId (su : RunSetup F) : List UInt8 :=
  textIn su.cfg.pipelineId su.manifestsDir

/-- `sv->token_hex`. -/
def RunSetup.tokenHex (su : RunSetup F) : List UInt8 :=
  (procutilHexEncode su.token.toList 65).getD []

/-- `config_digest_hex`. -/
def RunSetup.configDigestHex (su : RunSetup F) : List UInt8 :=
  (procutilHexEncode su.cfg.configDigest.toList 65).getD []

/-- `"%s/obicall-..."` of an executable. -/
def RunSetup.exe (su : RunSetup F) (name : String) : List UInt8 :=
  cut 560 (su.binDir ++ ascii "/" ++ ascii name)

/-- `segment_file`. -/
def RunSetup.segmentFile (su : RunSetup F) : List UInt8 :=
  cut 600 (su.runtimeDir ++ ascii "/journal.segment")

/-- `sv->state_file`. -/
def RunSetup.stateFile (su : RunSetup F) : List UInt8 :=
  cut 600 (su.runtimeDir ++ ascii "/gate.state")

/-- A port as a decimal. -/
def portText (port : UInt16) : List UInt8 :=
  numToBuf 16 (Int64.ofNat port.toNat)

/-- The options of `jargv`. -/
def journalOpts (su : RunSetup F) : List (List UInt8 × List UInt8) := [
  (ascii "--runtime-dir", su.runtimeDir),
  (ascii "--token", su.tokenHex),
  (ascii "--pipeline-id", su.pipelineId),
  (ascii "--segment-file", su.segmentFile),
  (ascii "--reorder-window",
    numToBuf 32 su.cfg.journalReorderWindow.toInt64),
  (ascii "--max-lateness-ms", numToBuf 32 su.cfg.journalMaxLatenessMs),
  (ascii "--max-pending",
    numToBuf 32 (Int64.ofNat su.cfg.journalMaxPending.toNat))]

/-- `jargv`. -/
def journalArgv (su : RunSetup F) : List (List UInt8) :=
  su.exe "obicall-journald" :: spell (journalOpts su)

/-- The options of `gargv`. -/
def gateOpts (su : RunSetup F) : List (List UInt8 × List UInt8) := [
  (ascii "--runtime-dir", su.runtimeDir),
  (ascii "--token", su.tokenHex),
  (ascii "--config-digest", su.configDigestHex),
  (ascii "--state-file", su.stateFile),
  (ascii "--result-validity-ms", numToBuf 32 su.cfg.gateResultValidityMs),
  (ascii "--suspect-timeout-ms", numToBuf 32 su.cfg.gateSuspectTimeoutMs),
  (ascii "--confirm-timeout-ms", numToBuf 32 su.cfg.gateConfirmTimeoutMs),
  (ascii "--max-replay-gap", numToBuf 32 su.cfg.gateMaxReplayGap.toInt64)]

/-- `gargv`. -/
def gateArgv (su : RunSetup F) : List (List UInt8) :=
  su.exe "obicall-gated" :: spell (gateOpts su)

/-- `broker_letter`. -/
def brokerLetter (isB : Bool) : List UInt8 :=
  if isB then ascii "B" else ascii "A"

/-- The options of `bargv`. -/
def brokerOpts [DoublePrint F] (su : RunSetup F) (isB : Bool) :
    List (List UInt8 × List UInt8) := [
  (ascii "--broker-id", brokerLetter isB),
  (ascii "--journal-port", portText su.journalPort),
  (ascii "--gate-port", portText su.gatePort),
  (ascii "--token", su.tokenHex),
  (ascii "--pipeline-id", su.pipelineId),
  (ascii "--runtime-dir", su.runtimeDir),
  (ascii "--config-digest", su.configDigestHex),
  (ascii "--sensor-ids", cString su.cfg.sensorIdsCsv),
  (ascii "--process-noise-position",
    f64ToBuf 32 su.cfg.estProcessNoisePosition),
  (ascii "--process-noise-velocity",
    f64ToBuf 32 su.cfg.estProcessNoiseVelocity),
  (ascii "--initial-position-variance",
    f64ToBuf 32 su.cfg.estInitialPositionVariance),
  (ascii "--initial-velocity-variance",
    f64ToBuf 32 su.cfg.estInitialVelocityVariance),
  (ascii "--max-prediction-gap-s", f64ToBuf 32 su.cfg.estMaxPredictionGapS),
  (ascii "--dgt-hysteresis-margin", f64ToBuf 32 su.cfg.dgtHysteresisMargin)]

/-- `bargv`. -/
def brokerArgv [DoublePrint F] (su : RunSetup F) (isB : Bool) :
    List (List UInt8) :=
  su.exe "obicall-brokerd" :: (spell (brokerOpts su isB)
    ++ if su.cfg.dgtEnabled then [ascii "--dgt-enabled"] else [])

/-- `worker_name` of a provider. -/
def workerName (sl : ProviderSlot) (isB : Bool) : List UInt8 :=
  cut 96 (textIn sl.ref.workerName sl.behind ++ ascii "_"
    ++ brokerLetter isB)

/-- `manifest_path` of a provider, `none` where it is too long. -/
def manifestPath (su : RunSetup F) (sl : ProviderSlot) :
    Option (List UInt8) :=
  let path := su.manifestsDir ++ ascii "/"
    ++ textIn sl.ref.manifest (sl.ref.workerName.toList ++ sl.behind)
  if path.length ≥ 1200 then none else some path

/-- `seed_s`. -/
def seedText (pr : ProviderRef) (isB : Bool) : List UInt8 :=
  numToBuf 32 (pr.instanceSeed + if isB then 1000000 else 0)

/-- The options of both forms of `wargv`. -/
def workerOpts (su : RunSetup F) (sl : ProviderSlot) (isB : Bool)
    (manifest : List UInt8) : List (List UInt8 × List UInt8) := [
  (ascii "--manifest", manifest),
  (ascii "--journal-port", portText su.journalPort),
  (ascii "--token", su.tokenHex),
  (ascii "--runtime-dir", su.runtimeDir),
  (ascii "--worker-name", workerName sl isB),
  (ascii "--instance-seed", seedText sl.ref isB)]

/-- `wargv` of a native worker. -/
def workerArgv (su : RunSetup F) (sl : ProviderSlot) (isB : Bool)
    (manifest : List UInt8) : List (List UInt8) :=
  su.exe "obicall-workerd" :: spell (workerOpts su sl isB manifest)

-- ================================================================= reading

/-- The test of `--token` and its bytes. -/
def readToken (argv : List (List UInt8)) : Option RunToken :=
  match findArg argv (ascii "--token") with
  | none => none
  | some hex =>
      if hex.length ≠ 64 then none
      else
        let decoded := procutilHexDecode hex 32
        if decoded.1 then some (place 0 decoded.2 (zeroBytes 32)) else none

/-- The array that `--config-digest` is read into. -/
def readConfigDigest (argv : List (List UInt8)) : DigestBytes :=
  match findArg argv (ascii "--config-digest") with
  | none => zeroBytes 32
  | some hex =>
      if hex.length = 64 then
        place 0 (procutilHexDecode hex 32).2 (zeroBytes 32)
      else zeroBytes 32

/-- What the journal goes on with. -/
structure JournaldSettings where
  token : RunToken
  runtimeDir : List UInt8
  pipelineId : List UInt8
  cfg : JournalConfig
  segmentFile : Option (List UInt8)

/-- The beginning of the journal's `main`. -/
def journaldArgs (argv : List (List UInt8)) : Option JournaldSettings :=
  (readToken argv).map fun token =>
    { token
      runtimeDir := procutilArgStr argv (ascii "--runtime-dir") (ascii ".")
      pipelineId :=
        procutilArgStr argv (ascii "--pipeline-id") (ascii "default")
      cfg :=
        { reorderWindowN :=
            (procutilArgI64 argv (ascii "--reorder-window") 8).toUInt64
          maxLatenessNs :=
            procutilArgI64 argv (ascii "--max-lateness-ms") 2000 * 1000000
          maxPendingPerPipeline :=
            (procutilArgI64 argv (ascii "--max-pending") 4096).toUInt64.toUInt32 }
      segmentFile := findArg argv (ascii "--segment-file") }

/-- What the gate goes on with. -/
structure GateSettings where
  token : RunToken
  runtimeDir : List UInt8
  cfg : GateConfig
  resultValidityNs : Int64
  suspectTimeoutNs : Int64
  stateFile : Option (List UInt8)

/-- The beginning of the gate's `main`. -/
def gateArgs (argv : List (List UInt8)) : Option GateSettings :=
  (readToken argv).map fun token =>
    { token
      runtimeDir := procutilArgStr argv (ascii "--runtime-dir") (ascii ".")
      cfg :=
        { configDigest := readConfigDigest argv
          maxReplayGap :=
            (procutilArgI64 argv (ascii "--max-replay-gap") 50).toUInt64
          confirmTimeoutNs :=
            procutilArgI64 argv (ascii "--confirm-timeout-ms") 700
              * 1000000 }
      resultValidityNs :=
        procutilArgI64 argv (ascii "--result-validity-ms") 500 * 1000000
      suspectTimeoutNs :=
        procutilArgI64 argv (ascii "--suspect-timeout-ms") 300 * 1000000
      stateFile := findArg argv (ascii "--state-file") }

/-- What a broker goes on with. -/
structure BrokerSettings (F : Type) where
  token : RunToken
  runtimeDir : List UInt8
  brokerId : UInt32
  journalPort : UInt16
  gatePort : UInt16
  opts : BrokerOptions F

/-- `(uint16_t)strtol(s, NULL, 10)`. -/
def portOf (s : List UInt8) : UInt16 := (strtoll s).toUInt64.toUInt16

/-- The beginning of a broker's `main`. -/
def brokerArgs [DoubleArith F] [DoublePrint F] (argv : List (List UInt8)) :
    Option (BrokerSettings F) := do
  let journalPort ← findArg argv (ascii "--journal-port")
  let gatePort ← findArg argv (ascii "--gate-port")
  let token ← readToken argv
  let brokerId := procutilArgStr argv (ascii "--broker-id") (ascii "A")
  pure
    { token
      runtimeDir := procutilArgStr argv (ascii "--runtime-dir") (ascii ".")
      brokerId := if brokerId = ascii "B" then brokerB else brokerA
      journalPort := portOf journalPort
      gatePort := portOf gatePort
      opts :=
        { pipelineId :=
            procutilArgStr argv (ascii "--pipeline-id") (ascii "default")
          configDigest := readConfigDigest argv
          resultValidityMs :=
            procutilArgI64 argv (ascii "--result-validity-ms") 500
          sensorFreshWindowMs :=
            procutilArgI64 argv (ascii "--sensor-fresh-window-ms") 1000
          dgtEnabled := procutilArgFlag argv (ascii "--dgt-enabled")
          dgtHysteresisMargin :=
            procutilArgF64 argv (ascii "--dgt-hysteresis-margin") 0.05
          kfParams :=
            { processNoisePosition :=
                procutilArgF64 argv (ascii "--process-noise-position") 0.05
              processNoiseVelocity :=
                procutilArgF64 argv (ascii "--process-noise-velocity") 0.1
              initialPositionVariance :=
                procutilArgF64 argv (ascii "--initial-position-variance") 10.0
              initialVelocityVariance :=
                procutilArgF64 argv (ascii "--initial-velocity-variance") 10.0
              maxPredictionGapS :=
                procutilArgF64 argv (ascii "--max-prediction-gap-s") 30.0 }
          sensorIds := procutilArgStr argv (ascii "--sensor-ids") [] } }

/-- What a native worker goes on with. -/
structure WorkerSettings where
  token : RunToken
  manifestPath : List UInt8
  journalPort : UInt16
  runtimeDir : List UInt8
  workerName : List UInt8
  faultFile : Option (List UInt8)
  instanceSeed : Int64
  tickMs : Int64

/-- The beginning of a worker's `main`. -/
def workerArgs (argv : List (List UInt8)) : Option WorkerSettings := do
  let manifestPath ← findArg argv (ascii "--manifest")
  let journalPort ← findArg argv (ascii "--journal-port")
  let token ← readToken argv
  pure
    { token, manifestPath
      journalPort := portOf journalPort
      runtimeDir := procutilArgStr argv (ascii "--runtime-dir") (ascii ".")
      workerName := procutilArgStr argv (ascii "--worker-name")
        (ascii "worker")
      faultFile := findArg argv (ascii "--fault-file")
      instanceSeed := procutilArgI64 argv (ascii "--instance-seed") 1
      tickMs := procutilArgI64 argv (ascii "--tick-ms") 20 }

end Obicall
