import Obicall.Broker.Proofs.Absorb
import Obicall.Broker.Proofs.Delivery
import Obicall.Broker.Proofs.Determinism
import Obicall.Broker.Proofs.InOrder
import Obicall.Broker.Proofs.NoAction
import Obicall.Broker.Proofs.Pairing
import Obicall.Common.Print
import Obicall.Common.Proofs.Args
import Obicall.Common.Proofs.Hello
import Obicall.Cli.Proofs.Agreement
import Obicall.Cli.Proofs.Escape
import Obicall.Dgt.Proofs.Fallback
import Obicall.Dgt.Proofs.Oscillation
import Obicall.Digest.Proofs.Standard
import Obicall.Estimator.Proofs.Failure
import Obicall.Estimator.Proofs.Forward
import Obicall.Estimator.Proofs.Fusion
import Obicall.Estimator.Proofs.Gap
import Obicall.Estimator.Proofs.Posterior
import Obicall.Gate.Proofs.Compatible
import Obicall.Gate.Proofs.Durability
import Obicall.Gate.Proofs.Load
import Obicall.Gate.Proofs.Outsider
import Obicall.Gate.Proofs.Refusal
import Obicall.Gate.Proofs.SameRun
import Obicall.Journald.Admission
import Obicall.Journald.Cut
import Obicall.Journald.History
import Obicall.Journald.Proofs.Slots
import Obicall.Journald.Proofs.Table
import Obicall.Json.Proofs.Lookup
import Obicall.Json.Proofs.Safe
import Obicall.Manifest.Proofs.Bounds
import Obicall.Manifest.Proofs.Rank
import Obicall.Manifest.Proofs.Resolve
import Obicall.Observation.Proofs.Semidefinite
import Obicall.Osal.Proofs.CommandLine
import Obicall.Osal.Proofs.Framing
import Obicall.Supervisor.Proofs.RestartRate
import Obicall.Supervisor.Proofs.Upkeep
import Obicall.Wire.Proofs.Checked
import Obicall.Lib.Overlay
import Obicall.Lib.Result
import Obicall.Core.Fields
import Obicall.Manifest.Parse
import Obicall.Supervisor.CommandLines
import Obicall.Supervisor.Config
import Obicall.Json.Proofs.Decode
import Obicall.Json.Proofs.Fields
import Obicall.Manifest.Proofs.Parse
import Obicall.Manifest.Proofs.Terminated
import Obicall.Manifest.Proofs.Dependencies
import Obicall.Supervisor.Proofs.Sensors
import Obicall.Supervisor.Proofs.SensorNames
import Obicall.Supervisor.Proofs.Terminated
import Obicall.Supervisor.Proofs.Settings
import Obicall.Supervisor.Proofs.Start
import Obicall.Supervisor.Proofs.Accounted
import Obicall.Lib.Merge
import Obicall.Lib.Xorshift
import Obicall.Provider.Proofs.Sim
import Obicall.Worker.Proofs.Admitted
import Obicall.Gate.Proofs.Disk
import Obicall.Manifest.Proofs.Directory
import Obicall.Supervisor.Heartbeat
import Obicall.Gate.Disk
import Obicall.Supervisor.Proofs.Heartbeat
