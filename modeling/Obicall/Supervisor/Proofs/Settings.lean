/-
Every child goes on with the settings of its run.

The readers of `Supervisor.CommandLines` undo its writers. The numbers and
byte strings always come back. The strings of the configuration do when
they end in their arrays and none of them looks like an option, which a
child would take for the name of one (`RunSetup.Plain`).
A floating-point setting arrives as what `strtod` makes of nine digits,
with both brokers alike.
-/
import Obicall.Common.Print
import Obicall.Common.Proofs.Args
import Obicall.Supervisor.CommandLines
import Obicall.Supervisor.Proofs.Terminated

namespace Obicall

open Lib.Options Lib.Overlay

variable {F : Type}

-- ================================================================ statement

/-- Every string of the configuration ends in its array, and none that goes
on a command line looks like an option. -/
structure RunSetup.Plain (su : RunSetup F) : Prop where
  terminated : su.cfg.Terminated
  runtimeDir : ¬ OptionLike su.runtimeDir
  pipelineId : ¬ OptionLike (cString su.cfg.pipelineId)
  sensorIds : ¬ OptionLike (cString su.cfg.sensorIdsCsv)
  manifestsDir : ¬ OptionLike su.manifestsDir
  workerNames : ∀ pr ∈ su.cfg.providers.val,
    ¬ OptionLike (cString pr.workerName)

/-- The journal's settings. -/
def RunSetup.journald (su : RunSetup F) : JournaldSettings where
  token := su.token
  runtimeDir := su.runtimeDir
  pipelineId := cString su.cfg.pipelineId
  cfg :=
    { reorderWindowN := su.cfg.journalReorderWindow
      maxLatenessNs := su.cfg.journalMaxLatenessMs * 1000000
      maxPendingPerPipeline := su.cfg.journalMaxPending }
  segmentFile := some su.segmentFile

/-- The gate's settings. -/
def RunSetup.gated (su : RunSetup F) : GateSettings where
  token := su.token
  runtimeDir := su.runtimeDir
  cfg :=
    { configDigest := su.cfg.configDigest
      maxReplayGap := su.cfg.gateMaxReplayGap
      confirmTimeoutNs := su.cfg.gateConfirmTimeoutMs * 1000000 }
  resultValidityNs := su.cfg.gateResultValidityMs * 1000000
  suspectTimeoutNs := su.cfg.gateSuspectTimeoutMs * 1000000
  stateFile := some su.stateFile

/-- A floating-point setting as a broker gets it. -/
def printed [DoublePrint F] (x : F) : F :=
  DoublePrint.strtodPrefix (f64ToBuf 32 x)

/-- A broker's settings. The validity of its results is the default of the
broker, whatever the configuration says. -/
def RunSetup.brokerd [DoublePrint F] (su : RunSetup F) (isB : Bool) :
    BrokerSettings F where
  token := su.token
  runtimeDir := su.runtimeDir
  brokerId := if isB then brokerB else brokerA
  journalPort := su.journalPort
  gatePort := su.gatePort
  opts :=
    { pipelineId := cString su.cfg.pipelineId
      configDigest := su.cfg.configDigest
      resultValidityMs := 500
      sensorFreshWindowMs := 1000
      dgtEnabled := su.cfg.dgtEnabled
      dgtHysteresisMargin := printed su.cfg.dgtHysteresisMargin
      kfParams :=
        { processNoisePosition := printed su.cfg.estProcessNoisePosition
          processNoiseVelocity := printed su.cfg.estProcessNoiseVelocity
          initialPositionVariance :=
            printed su.cfg.estInitialPositionVariance
          initialVelocityVariance :=
            printed su.cfg.estInitialVelocityVariance
          maxPredictionGapS := printed su.cfg.estMaxPredictionGapS }
      sensorIds := cString su.cfg.sensorIdsCsv }

/-- The name of a provider's worker. -/
def ProviderRef.fullName (pr : ProviderRef) (isB : Bool) : List UInt8 :=
  cut 96 (cString pr.workerName ++ ascii "_" ++ brokerLetter isB)

/-- The settings of a provider's worker. -/
def RunSetup.workerd (su : RunSetup F) (pr : ProviderRef) (isB : Bool)
    (manifest : List UInt8) : WorkerSettings where
  token := su.token
  manifestPath := manifest
  journalPort := su.journalPort
  runtimeDir := su.runtimeDir
  workerName := pr.fullName isB
  faultFile := none
  instanceSeed := pr.instanceSeed + if isB then 1000000 else 0
  tickMs := 20

variable {su : RunSetup F}

-- ============================================================ token, digest

/-- An array over another leaves nothing of it. -/
theorem place_toList {α : Type} {n : Nat} (v w : Vector α n) :
    place 0 v.toList w = v := by
  apply ext_get
  intro i
  rw [get_place_zero,
    List.getElem?_eq_getElem (by rw [Vector.length_toList]; exact i.isLt),
    Option.getD_some, Vector.getElem_toList]
  rfl

theorem tokenHex_eq (su : RunSetup F) :
    su.tokenHex = Lib.Hex.encode su.token.toList := by
  unfold RunSetup.tokenHex
  rw [procutilHexEncode_eq (by rw [Vector.length_toList]; decide),
    Option.getD_some]

theorem configDigestHex_eq (su : RunSetup F) :
    su.configDigestHex = Lib.Hex.encode su.cfg.configDigest.toList := by
  unfold RunSetup.configDigestHex
  rw [procutilHexEncode_eq (by rw [Vector.length_toList]; decide),
    Option.getD_some]

theorem length_hex (v : Vector UInt8 32) :
    (Lib.Hex.encode v.toList).length = 64 := by
  rw [Lib.Hex.length_encode, Vector.length_toList]

theorem readToken_of {argv : List (List UInt8)} {token : RunToken}
    (h : findArg argv (ascii "--token") = some (Lib.Hex.encode token.toList)) :
    readToken argv = some token := by
  unfold readToken
  rw [h]
  dsimp only
  rw [if_neg (not_not.mpr (length_hex token)), procutilHexDecode_encode]
  dsimp only
  rw [if_pos rfl, place_toList]

theorem readConfigDigest_of {argv : List (List UInt8)} {digest : DigestBytes}
    (h : findArg argv (ascii "--config-digest")
      = some (Lib.Hex.encode digest.toList)) :
    readConfigDigest argv = digest := by
  unfold readConfigDigest
  rw [h]
  dsimp only
  rw [if_pos (length_hex digest), procutilHexDecode_encode, place_toList]

-- ================================================================== numbers

theorem portText_eq (port : UInt16) :
    portText port
      = Lib.Decimal.showInt (Int64.ofNat port.toNat).toInt := by
  have hport := port.toNat_lt
  have hval : (Int64.ofNat port.toNat).toInt = port.toNat := by
    apply Int64.toInt_ofNat_of_lt
    omega
  have hlen : (Lib.Decimal.showInt (Int64.ofNat port.toNat).toInt).length
      ≤ 4 + 2 := by
    apply Lib.Decimal.length_showInt_le
    rw [hval]
    show port.toNat < 100000
    omega
  exact cut_eq (by omega)

theorem portOf_portText (port : UInt16) : portOf (portText port) = port := by
  unfold portOf
  rw [portText_eq, strtoll_showInt]
  apply UInt16.toNat.inj
  simp

theorem not_optionLike_portText (port : UInt16) :
    ¬ OptionLike (portText port) := by
  rw [portText_eq]
  exact not_optionLike_showInt _

theorem not_optionLike_f64ToBuf [DoublePrint F] (x : F) :
    ¬ OptionLike (f64ToBuf 32 x) := by
  unfold f64ToBuf
  rw [optionLike_cut (by omega)]
  exact DoublePrint.printG9_plain x

-- ================================================================== strings

theorem not_optionLike_letter (isB : Bool) :
    ¬ OptionLike (brokerLetter isB) := by
  cases isB with
  | true => decide
  | false => decide

/-- The path of a file in the runtime directory. -/
theorem not_optionLike_below {dir : List UInt8} (h : ¬ OptionLike dir)
    {cap : Nat} (hcap : 2 < cap) (rest : List UInt8) :
    ¬ OptionLike (cut cap (dir ++ 0x2F :: rest)) := by
  rw [optionLike_cut hcap]
  exact not_optionLike_append h (by decide) rest

theorem RunSetup.Plain.pipelineId_eq (h : su.Plain) :
    su.pipelineId = cString su.cfg.pipelineId :=
  textIn_of_mem h.terminated.pipelineId _

theorem workerName_eq {sl : ProviderSlot} (h : 0 ∈ sl.ref.workerName)
    (isB : Bool) :
    workerName sl isB = sl.ref.fullName isB := by
  unfold workerName ProviderRef.fullName
  rw [textIn_of_mem h]

theorem not_optionLike_fullName {pr : ProviderRef}
    (h : ¬ OptionLike (cString pr.workerName)) (isB : Bool) :
    ¬ OptionLike (pr.fullName isB) := by
  unfold ProviderRef.fullName
  rw [optionLike_cut (by omega), List.append_assoc]
  exact not_optionLike_append h (c := 0x5F) (by decide) (brokerLetter isB)

theorem not_optionLike_manifestPath {sl : ProviderSlot} {path : List UInt8}
    (h : ¬ OptionLike su.manifestsDir) (hpath : manifestPath su sl = some path) :
    ¬ OptionLike path := by
  unfold manifestPath at hpath
  dsimp only at hpath
  split at hpath
  · cases hpath
  · obtain rfl := Option.some.inj hpath
    rw [List.append_assoc]
    exact not_optionLike_append h (c := 0x2F) (by decide) _

-- ================================================================== options

theorem argStr_of {argv : List (List UInt8)} {name dflt v : List UInt8}
    (h : findArg argv name = some v) : procutilArgStr argv name dflt = v := by
  unfold procutilArgStr
  rw [h, Option.getD_some]

theorem argI64_of {argv : List (List UInt8)} {name : List UInt8}
    {dflt v : Int64} (h : findArg argv name = some (numToBuf 32 v)) :
    procutilArgI64 argv name dflt = v := by
  unfold procutilArgI64
  rw [h, Option.map_some, Option.getD_some, strtoll_numToBuf (by omega)]

theorem argF64_of [DoublePrint F] {argv : List (List UInt8)}
    {name : List UInt8} {dflt x : F}
    (h : findArg argv name = some (f64ToBuf 32 x)) :
    procutilArgF64 argv name dflt = printed x := by
  unfold procutilArgF64
  rw [h, Option.map_some, Option.getD_some]
  rfl

/-- An option that was not given keeps its default. -/
theorem argI64_dflt {argv : List (List UInt8)} {name : List UInt8}
    {dflt : Int64} (h : findArg argv name = none) :
    procutilArgI64 argv name dflt = dflt := by
  unfold procutilArgI64
  rw [h, Option.map_none, Option.getD_none]

-- ================================================================== journal

theorem journalOpts_plain (h : su.Plain) :
    ∀ o ∈ journalOpts su, ¬ OptionLike o.2 := by
  unfold journalOpts
  simp only [List.forall_mem_cons]
  rw [tokenHex_eq, h.pipelineId_eq]
  refine ⟨h.runtimeDir, not_optionLike_hex _, h.pipelineId,
    not_optionLike_below h.runtimeDir (by omega) (ascii "journal.segment"),
    ?_, ?_, ?_, ?_⟩
  · exact not_optionLike_numToBuf (by omega) _
  · exact not_optionLike_numToBuf (by omega) _
  · exact not_optionLike_numToBuf (by omega) _
  · intro o ho
    cases ho

theorem findArg_journalArgv (h : su.Plain) (name : List UInt8)
    (hname : OptionLike name) :
    findArg (journalArgv su) name = (journalOpts su).lookup name := by
  unfold journalArgv
  rw [← List.append_nil (spell _)]
  exact findArg_spell (journalOpts_plain h) hname List.not_mem_nil

theorem journald_settings (h : su.Plain) :
    journaldArgs (journalArgv su) = some su.journald := by
  have hfind := findArg_journalArgv h
  have htoken : readToken (journalArgv su) = some su.token := by
    apply readToken_of
    rw [← tokenHex_eq]
    exact (hfind _ (by decide)).trans rfl
  have hcount : (Int64.ofNat su.cfg.journalMaxPending.toNat).toUInt64.toUInt32
      = su.cfg.journalMaxPending := by
    apply UInt32.toNat.inj
    simp
  unfold journaldArgs
  rw [htoken, argStr_of ((hfind (ascii "--runtime-dir") (by decide)).trans rfl),
    argStr_of ((hfind (ascii "--pipeline-id") (by decide)).trans rfl),
    argI64_of ((hfind (ascii "--reorder-window") (by decide)).trans rfl),
    argI64_of ((hfind (ascii "--max-lateness-ms") (by decide)).trans rfl),
    argI64_of ((hfind (ascii "--max-pending") (by decide)).trans rfl),
    (hfind (ascii "--segment-file") (by decide)).trans rfl,
    UInt64.toUInt64_toInt64, hcount, h.pipelineId_eq]
  rfl

-- ===================================================================== gate

theorem gateOpts_plain (h : su.Plain) :
    ∀ o ∈ gateOpts su, ¬ OptionLike o.2 := by
  unfold gateOpts
  simp only [List.forall_mem_cons]
  rw [tokenHex_eq, configDigestHex_eq]
  refine ⟨h.runtimeDir, not_optionLike_hex _, not_optionLike_hex _,
    not_optionLike_below h.runtimeDir (by omega) (ascii "gate.state"),
    ?_, ?_, ?_, ?_, ?_⟩
  · exact not_optionLike_numToBuf (by omega) _
  · exact not_optionLike_numToBuf (by omega) _
  · exact not_optionLike_numToBuf (by omega) _
  · exact not_optionLike_numToBuf (by omega) _
  · intro o ho
    cases ho

theorem findArg_gateArgv (h : su.Plain) (name : List UInt8)
    (hname : OptionLike name) :
    findArg (gateArgv su) name = (gateOpts su).lookup name := by
  unfold gateArgv
  rw [← List.append_nil (spell _)]
  exact findArg_spell (gateOpts_plain h) hname List.not_mem_nil

theorem gated_settings (h : su.Plain) :
    gateArgs (gateArgv su) = some su.gated := by
  have hfind := findArg_gateArgv h
  have htoken : readToken (gateArgv su) = some su.token := by
    apply readToken_of
    rw [← tokenHex_eq]
    exact (hfind _ (by decide)).trans rfl
  have hdigest : readConfigDigest (gateArgv su) = su.cfg.configDigest := by
    apply readConfigDigest_of
    rw [← configDigestHex_eq]
    exact (hfind _ (by decide)).trans rfl
  unfold gateArgs
  rw [htoken, hdigest,
    argStr_of ((hfind (ascii "--runtime-dir") (by decide)).trans rfl),
    argI64_of ((hfind (ascii "--max-replay-gap") (by decide)).trans rfl),
    argI64_of ((hfind (ascii "--confirm-timeout-ms") (by decide)).trans rfl),
    argI64_of ((hfind (ascii "--result-validity-ms") (by decide)).trans rfl),
    argI64_of ((hfind (ascii "--suspect-timeout-ms") (by decide)).trans rfl),
    (hfind (ascii "--state-file") (by decide)).trans rfl,
    UInt64.toUInt64_toInt64]
  rfl

-- ================================================================== brokers

theorem brokerOpts_plain [DoublePrint F] (h : su.Plain) (isB : Bool) :
    ∀ o ∈ brokerOpts su isB, ¬ OptionLike o.2 := by
  unfold brokerOpts
  simp only [List.forall_mem_cons]
  rw [tokenHex_eq, configDigestHex_eq, h.pipelineId_eq]
  refine ⟨not_optionLike_letter isB, not_optionLike_portText _,
    not_optionLike_portText _, not_optionLike_hex _, h.pipelineId,
    h.runtimeDir, not_optionLike_hex _, h.sensorIds, ?_, ?_, ?_, ?_, ?_, ?_, ?_⟩
  · exact not_optionLike_f64ToBuf _
  · exact not_optionLike_f64ToBuf _
  · exact not_optionLike_f64ToBuf _
  · exact not_optionLike_f64ToBuf _
  · exact not_optionLike_f64ToBuf _
  · exact not_optionLike_f64ToBuf _
  · intro o ho
    cases ho

theorem findArg_brokerArgv [DoublePrint F] (h : su.Plain) (isB : Bool)
    (name : List UInt8) (hname : OptionLike name)
    (hflag : name ≠ ascii "--dgt-enabled") :
    findArg (brokerArgv su isB) name = (brokerOpts su isB).lookup name := by
  unfold brokerArgv
  apply findArg_spell (brokerOpts_plain h isB) hname
  intro hmem
  split at hmem
  · exact hflag (List.mem_singleton.mp hmem)
  · cases hmem

/-- The flag stands on the command line exactly when the policy is on: no
other word is spelled like it. -/
theorem argFlag_brokerArgv [DoublePrint F] (h : su.Plain) (isB : Bool) :
    procutilArgFlag (brokerArgv su isB) (ascii "--dgt-enabled")
      = su.cfg.dgtEnabled := by
  have hopts : (spell (brokerOpts su isB)).any (· == ascii "--dgt-enabled")
      = false := by
    rw [List.any_eq_false]
    intro w hw heq
    obtain ⟨o, ho, hwo⟩ := List.mem_flatMap.mp hw
    obtain rfl := eq_of_beq heq
    rcases List.mem_cons.mp hwo with hname | hvalue
    · have hnames : ∀ o ∈ brokerOpts su isB, o.1 ≠ ascii "--dgt-enabled" := by
        unfold brokerOpts
        simp only [List.forall_mem_cons]
        decide
      exact hnames o ho hname.symm
    · rw [List.mem_singleton] at hvalue
      apply brokerOpts_plain h isB o ho
      rw [← hvalue]
      decide
  unfold procutilArgFlag brokerArgv
  rw [List.tail_cons, List.any_append, hopts, Bool.false_or]
  cases su.cfg.dgtEnabled with
  | true => exact beq_self_eq_true (ascii "--dgt-enabled")
  | false => rfl

theorem brokerd_settings [DoubleArith F] [DoublePrint F] (h : su.Plain)
    (isB : Bool) :
    brokerArgs (brokerArgv su isB) = some (su.brokerd isB) := by
  have hfind := findArg_brokerArgv h isB
  have htoken : readToken (brokerArgv su isB) = some su.token := by
    apply readToken_of
    rw [← tokenHex_eq]
    exact (hfind _ (by decide) (by decide)).trans rfl
  have hdigest : readConfigDigest (brokerArgv su isB)
      = su.cfg.configDigest := by
    apply readConfigDigest_of
    rw [← configDigestHex_eq]
    exact (hfind _ (by decide) (by decide)).trans rfl
  have hjournal : findArg (brokerArgv su isB) (ascii "--journal-port")
      = some (portText su.journalPort) :=
    (hfind _ (by decide) (by decide)).trans rfl
  have hgate : findArg (brokerArgv su isB) (ascii "--gate-port")
      = some (portText su.gatePort) :=
    (hfind _ (by decide) (by decide)).trans rfl
  unfold brokerArgs
  rw [htoken, hdigest, hjournal, hgate, argFlag_brokerArgv h,
    argStr_of ((hfind (ascii "--broker-id") (by decide)
      (by decide)).trans rfl),
    argStr_of ((hfind (ascii "--runtime-dir") (by decide)
      (by decide)).trans rfl),
    argStr_of ((hfind (ascii "--pipeline-id") (by decide)
      (by decide)).trans rfl),
    argStr_of ((hfind (ascii "--sensor-ids") (by decide)
      (by decide)).trans rfl),
    argI64_dflt ((hfind (ascii "--result-validity-ms") (by decide)
      (by decide)).trans rfl),
    argI64_dflt ((hfind (ascii "--sensor-fresh-window-ms") (by decide)
      (by decide)).trans rfl),
    argF64_of ((hfind (ascii "--dgt-hysteresis-margin") (by decide)
      (by decide)).trans rfl),
    argF64_of ((hfind (ascii "--process-noise-position") (by decide)
      (by decide)).trans rfl),
    argF64_of ((hfind (ascii "--process-noise-velocity") (by decide)
      (by decide)).trans rfl),
    argF64_of ((hfind (ascii "--initial-position-variance") (by decide)
      (by decide)).trans rfl),
    argF64_of ((hfind (ascii "--initial-velocity-variance") (by decide)
      (by decide)).trans rfl),
    argF64_of ((hfind (ascii "--max-prediction-gap-s") (by decide)
      (by decide)).trans rfl)]
  simp only [Option.bind_eq_bind, Option.bind_some]
  rw [portOf_portText, portOf_portText, h.pipelineId_eq]
  cases isB with
  | true => rfl
  | false => rfl

-- ================================================================== workers

theorem workerOpts_plain (h : su.Plain) {sl : ProviderSlot}
    (hpr : sl.ref ∈ su.cfg.providers.val) (isB : Bool) {manifest : List UInt8}
    (hpath : manifestPath su sl = some manifest) :
    ∀ o ∈ workerOpts su sl isB manifest, ¬ OptionLike o.2 := by
  unfold workerOpts
  simp only [List.forall_mem_cons]
  rw [tokenHex_eq, workerName_eq (h.terminated.providers _ hpr).2]
  refine ⟨not_optionLike_manifestPath h.manifestsDir hpath,
    not_optionLike_portText _, not_optionLike_hex _, h.runtimeDir,
    not_optionLike_fullName (h.workerNames _ hpr) isB, ?_, ?_⟩
  · exact not_optionLike_numToBuf (by omega) _
  · intro o ho
    cases ho

theorem workerd_settings (h : su.Plain) {sl : ProviderSlot}
    (hpr : sl.ref ∈ su.cfg.providers.val) (isB : Bool) {manifest : List UInt8}
    (hpath : manifestPath su sl = some manifest) :
    workerArgs (workerArgv su sl isB manifest)
      = some (su.workerd sl.ref isB manifest) := by
  have hfind : ∀ name, OptionLike name →
      findArg (workerArgv su sl isB manifest) name
        = (workerOpts su sl isB manifest).lookup name := by
    intro name hname
    unfold workerArgv
    rw [← List.append_nil (spell _)]
    exact findArg_spell (workerOpts_plain h hpr isB hpath) hname
      List.not_mem_nil
  have htoken : readToken (workerArgv su sl isB manifest)
      = some su.token := by
    apply readToken_of
    rw [← tokenHex_eq]
    exact (hfind _ (by decide)).trans rfl
  have hmanifest : findArg (workerArgv su sl isB manifest)
      (ascii "--manifest") = some manifest := (hfind _ (by decide)).trans rfl
  have hjournal : findArg (workerArgv su sl isB manifest)
      (ascii "--journal-port") = some (portText su.journalPort) :=
    (hfind _ (by decide)).trans rfl
  unfold workerArgs
  rw [htoken, hmanifest, hjournal,
    argStr_of ((hfind (ascii "--runtime-dir") (by decide)).trans rfl),
    argStr_of ((hfind (ascii "--worker-name") (by decide)).trans rfl),
    (hfind (ascii "--fault-file") (by decide)).trans rfl,
    argI64_of ((hfind (ascii "--instance-seed") (by decide)).trans rfl),
    argI64_dflt ((hfind (ascii "--tick-ms") (by decide)).trans rfl)]
  simp only [Option.bind_eq_bind, Option.bind_some]
  rw [portOf_portText, workerName_eq (h.terminated.providers _ hpr).2]
  rfl

-- ============================================================= all children

/-- What the children of a run go on with is what the supervisor has: the
same token, ports and digest with all of them, and each its settings. -/
theorem children_settings [DoubleArith F] [DoublePrint F] (h : su.Plain) :
    journaldArgs (journalArgv su) = some su.journald
    ∧ gateArgs (gateArgv su) = some su.gated
    ∧ (∀ isB, brokerArgs (brokerArgv su isB) = some (su.brokerd isB))
    ∧ ∀ sl : ProviderSlot, sl.ref ∈ su.cfg.providers.val →
      ∀ isB manifest, manifestPath su sl = some manifest →
      workerArgs (workerArgv su sl isB manifest)
        = some (su.workerd sl.ref isB manifest) :=
  ⟨journald_settings h, gated_settings h, brokerd_settings h,
    fun _ hpr isB _ hpath => workerd_settings h hpr isB hpath⟩

/-- A configuration with one provider, and what a start adds to it. -/
def oneProvider : RunSetup Binary64 where
  runtimeDir := ascii "/tmp/run"
  binDir := ascii "/opt/bin"
  token := Vector.replicate 32 7
  cfg :=
    { loadFields (F := Binary64) [] (zeroBytes 256) with
      configDigest := zeroBytes 32
      providers := ⟨[⟨place 0 (ascii "gps.json") (zeroBytes 512),
        place 0 (ascii "gps") (zeroBytes 64), 42⟩], by decide⟩ }
  manifestsDir := ascii "providers"
  journalPort := 4001
  gatePort := 4002

theorem oneProvider_terminated : oneProvider.cfg.Terminated where
  pipelineId := mem_iff_get.mpr ⟨⟨7, by decide⟩, get_default (by decide)⟩
  manifestsDir := mem_iff_get.mpr ⟨⟨9, by decide⟩, get_default (by decide)⟩
  sensorIdsCsv := mem_iff_get.mpr ⟨⟨0, by decide⟩, get_replicate 0 _⟩
  providers := by
    intro pr hpr
    obtain rfl := List.mem_singleton.mp hpr
    exact ⟨mem_iff_get.mpr ⟨⟨8, by decide⟩, get_default (by decide)⟩,
      mem_iff_get.mpr ⟨⟨3, by decide⟩, get_default (by decide)⟩⟩

theorem oneProvider_plain : oneProvider.Plain where
  terminated := oneProvider_terminated
  runtimeDir := by decide
  pipelineId := by decide +kernel
  sensorIds := by decide +kernel
  manifestsDir := by decide
  workerNames := by decide +kernel

theorem children_settings_one :
    (∀ isB, brokerArgs (brokerArgv oneProvider isB)
      = some (oneProvider.brokerd isB))
    ∧ ∀ sl : ProviderSlot, sl.ref ∈ oneProvider.cfg.providers.val →
      ∀ isB manifest, manifestPath oneProvider sl = some manifest →
      workerArgs (workerArgv oneProvider sl isB manifest)
        = some (oneProvider.workerd sl.ref isB manifest) :=
  (children_settings oneProvider_plain).2.2

end Obicall
