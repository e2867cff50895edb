/-
`pipeline_config_load`: the supervisor's configuration, from its file.

A field that is missing or of another type keeps its default; the load
fails on a file that cannot be read whole and on another schema version.

# The sensor list

`sensor_ids_csv` is written by one `snprintf` per sensor, at an offset that
grows by the length the text would need. Where the offset has passed the
end of the array, the room that `snprintf` is given wraps and it writes
behind the array: `SensorList.append` is `none`, and the load `overrun`,
since nothing is known of the process from there on.

# The providers

An entry without a manifest is not counted, and the next one is read into
the same slot, over what the entry before has left there.
-/
import Obicall.Core.Digest
import Obicall.Core.Fields

namespace Obicall

open Lib.Overlay

variable {F : Type}

-- ================================================================== data

/-- `PIPELINE_MAX_PROVIDERS`. -/
abbrev pipelineMaxProviders : Nat := 8

/-- `provider_ref_t`. -/
structure ProviderRef where
  manifest : Vector UInt8 512
  workerName : Vector UInt8 64
  instanceSeed : Int64

/-- `pipeline_config_t`; `providers` are the first `provider_count`. -/
structure PipelineConfig (F : Type) where
  pipelineId : PipelineId
  manifestsDir : Vector UInt8 512
  journalReorderWindow : UInt64
  journalMaxLatenessMs : Int64
  journalMaxPending : UInt32
  gateResultValidityMs : Int64
  gateSuspectTimeoutMs : Int64
  gateConfirmTimeoutMs : Int64
  gateMaxReplayGap : UInt64
  estProcessNoisePosition : F
  estProcessNoiseVelocity : F
  estInitialPositionVariance : F
  estInitialVelocityVariance : F
  estMaxPredictionGapS : F
  dgtEnabled : Bool
  dgtHysteresisMargin : F
  sensorIdsCsv : Vector UInt8 256
  providers : { ps : List ProviderRef // ps.length ≤ pipelineMaxProviders }
  configDigest : DigestBytes

/-- How a load ends. A failure has the format of its message, whose
argument is the path. -/
inductive ConfigLoad (F : Type) where
  | failed (format : String)
  | overrun
  | loaded (config : PipelineConfig F)

-- ========================================================= the sensor list

/-- `off` and `out->sensor_ids_csv`. -/
structure SensorList where
  off : Nat
  csv : Vector UInt8 256

def SensorList.empty : SensorList := ⟨0, zeroBytes 256⟩

/-- What `snprintf` with room for `size` bytes writes of a text: what fits
in front of the `NUL`, and nothing where there is no room. -/
def snprintf (size : Nat) (text : List UInt8) : List UInt8 :=
  if size = 0 then [] else text.take (size - 1) ++ [0]

/-- The `snprintf` of one sensor's name. -/
def SensorList.append (s : SensorList) (name : List UInt8) :
    Option SensorList :=
  if 256 < s.off then none
  else
    let text := (if 0 < s.off then [0x2C] else []) ++ name
    some ⟨s.off + text.length, place s.off (snprintf (256 - s.off) text) s.csv⟩

/-- One turn of the loop. An element that is no string, or too long for a
sensor id, is passed over. -/
def sensorTurn (array : List UInt8) (s : SensorList) (i : Nat) :
    Option SensorList :=
  match elementName array i 32 with
  | none => some s
  | some name => s.append name

/-- The first `turns` turns of the loop. -/
def sensorLoop (array : List UInt8) (turns : Nat) : Option SensorList :=
  (List.range turns).foldlM (sensorTurn array) .empty

/-- `sensor_ids_csv` of a document. -/
def loadSensorIds (json : List UInt8) : Option (Vector UInt8 256) :=
  match plainText json (ascii "sensor_ids") with
  | none => some (zeroBytes 256)
  | some array =>
      (sensorLoop array ((jsonArrayCount array).getD 0)).map SensorList.csv

-- ============================================================ the providers

/-- The providers counted so far, and the slot behind them. -/
structure ProviderSlots where
  counted : List ProviderRef
  slot : ProviderRef

def ProviderRef.zero : ProviderRef := ⟨zeroBytes 512, zeroBytes 64, 0⟩

/-- An entry read into a slot. -/
def ProviderRef.read (F : Type) [DoubleArith F] [DoubleText F]
    (pr : ProviderRef) (pobj : List UInt8) : ProviderRef where
  manifest := (getStr pobj (ascii "manifest") pr.manifest).1
  workerName := (getStr pobj (ascii "worker_name") pr.workerName).1
  instanceSeed :=
    DoubleText.toInt64 ((getNum pobj (ascii "instance_seed")).getD (1.0 : F))

/-- What a turn of the loop over `providers` does on an object: the slot is
counted when it has a manifest. -/
def readEntry (F : Type) [DoubleArith F] [DoubleText F]
    (s : ProviderSlots) (pobj : List UInt8) : ProviderSlots :=
  let pr := s.slot.read F pobj
  if pr.manifest.get ⟨0, by decide⟩ ≠ 0 then ⟨s.counted ++ [pr], .zero⟩
  else ⟨s.counted, pr⟩

/-- One turn of the loop over `providers`. -/
def providerTurn (F : Type) [DoubleArith F] [DoubleText F]
    (array : List UInt8) (s : ProviderSlots) (i : Nat) : ProviderSlots :=
  match elementText array i with
  | none => s
  | some e =>
      if e.isString then s else readEntry F s e.text

/-- The loop over `providers`. -/
def providerLoop (F : Type) [DoubleArith F] [DoubleText F]
    (array : List UInt8) (turns : Nat) : ProviderSlots :=
  (List.range turns).foldl (providerTurn F array) ⟨[], .zero⟩

theorem length_readEntry (F : Type) [DoubleArith F] [DoubleText F]
    (s : ProviderSlots) (pobj : List UInt8) :
    (readEntry F s pobj).counted.length ≤ s.counted.length + 1 := by
  simp only [readEntry]
  split_ifs
  · rw [List.length_append, List.length_singleton]
  · exact Nat.le_succ _

theorem length_providerLoop (F : Type) [DoubleArith F] [DoubleText F]
    (array : List UInt8) (turns : Nat) :
    (providerLoop F array turns).counted.length ≤ turns := by
  induction turns with
  | zero => exact Nat.le_refl _
  | succ turns ih =>
      have hturn : ∀ s, (providerTurn F array s turns).counted.length
          ≤ s.counted.length + 1 := by
        intro s
        unfold providerTurn
        split
        · exact Nat.le_succ _
        · split_ifs
          · exact Nat.le_succ _
          · exact length_readEntry ..
      rw [providerLoop, List.range_succ, List.foldl_append]
      exact (hturn _).trans (Nat.succ_le_succ ih)

/-- `providers` and `provider_count` of a document. -/
def loadProviders (F : Type) [DoubleArith F] [DoubleText F]
    (json : List UInt8) :
    { ps : List ProviderRef // ps.length ≤ pipelineMaxProviders } :=
  match plainText json (ascii "providers") with
  | none => ⟨[], Nat.zero_le _⟩
  | some array =>
      let cnt := min ((jsonArrayCount array).getD 0) pipelineMaxProviders
      ⟨(providerLoop F array cnt).counted,
        (length_providerLoop F array cnt).trans (Nat.min_le_right ..)⟩

-- ================================================================= the load

/-- A number of a section of the document, or its default. -/
def sectionNum {α : Type} (F : Type) [DoubleText F] (convert : F → α)
    (json name key : List UInt8) (dflt : α) : α :=
  (((getObj json name).bind fun jo => getNum jo key).map convert).getD dflt

/-- `out` when all but the sensor list has been read. -/
def loadFields [DoubleArith F] [DoubleText F] (json : List UInt8)
    (sensorIdsCsv : Vector UInt8 256) : PipelineConfig F :=
  let journal := ascii "journal"
  let gate := ascii "gate"
  let estimator := ascii "estimator"
  let dgt := ascii "dgt"
  { pipelineId := (getStr json (ascii "pipeline_id")
      (place 0 (ascii "default") (zeroBytes 32))).1
    manifestsDir := (getStr json (ascii "manifests_dir")
      (place 0 (ascii "providers") (zeroBytes 512))).1
    journalReorderWindow := sectionNum F DoubleText.toUInt64 json journal
      (ascii "reorder_window") 8
    journalMaxLatenessMs := sectionNum F DoubleText.toInt64 json journal
      (ascii "max_lateness_ms") 2000
    journalMaxPending := sectionNum F DoubleText.toUInt32 json journal
      (ascii "max_pending") 4096
    gateResultValidityMs := sectionNum F DoubleText.toInt64 json gate
      (ascii "result_validity_ms") 500
    gateSuspectTimeoutMs := sectionNum F DoubleText.toInt64 json gate
      (ascii "suspect_timeout_ms") 300
    gateConfirmTimeoutMs := sectionNum F DoubleText.toInt64 json gate
      (ascii "confirm_timeout_ms") 700
    gateMaxReplayGap := sectionNum F DoubleText.toUInt64 json gate
      (ascii "max_replay_gap") 50
    estProcessNoisePosition := sectionNum F id json estimator
      (ascii "process_noise_position") 0.05
    estProcessNoiseVelocity := sectionNum F id json estimator
      (ascii "process_noise_velocity") 0.1
    estInitialPositionVariance := sectionNum F id json estimator
      (ascii "initial_position_variance") 10.0
    estInitialVelocityVariance := sectionNum F id json estimator
      (ascii "initial_velocity_variance") 10.0
    estMaxPredictionGapS := sectionNum F id json estimator
      (ascii "max_prediction_gap_s") 30.0
    dgtEnabled := ((getObj json dgt).map fun jo =>
      getBool jo (ascii "enabled") false).getD false
    dgtHysteresisMargin := sectionNum F id json dgt
      (ascii "hysteresis_margin") 0.05
    sensorIdsCsv
    providers := loadProviders F json
    configDigest := obicallSha256 json }

/-- The test of `schema_version`, which may be missing. -/
def schemaVersionAccepted (F : Type) [DoubleText F] (json : List UInt8) :
    Bool :=
  match (getNum json (ascii "schema_version") : Option F) with
  | none => true
  | some num => DoubleText.toUInt32 num == 1

/-- `pipeline_config_load` on the bytes of the file, `none` where it cannot
be opened. -/
def pipelineConfigLoad [DoubleArith F] [DoubleText F]
    (file : Option (List UInt8)) : ConfigLoad F :=
  match file with
  | none => .failed "cannot open %s"
  | some json =>
      if 65536 < json.length then .failed "config file too large: %s"
      else if !schemaVersionAccepted F json then
        .failed "unsupported config schema_version"
      else
        match loadSensorIds json with
        | none => .overrun
        | some sensorIdsCsv => .loaded (loadFields json sensorIdsCsv)

end Obicall
