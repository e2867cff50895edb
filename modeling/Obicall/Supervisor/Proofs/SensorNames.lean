/-
The sensor names on their way from the configuration to a broker: joined
with commas by the supervisor, passed as one argument, looked up among the
arguments and split at the commas by the broker.

Without a comma in a name the list comes back (`parseSensorIds_build`),
and with one it cannot: no name that the broker has got contains a comma
(`comma_not_mem_sensorNames`). A configuration may hold such a name, and
every name behind it then has another place, or none.

The broker takes the word behind the first one that is spelled
`--sensor-ids`. That may be a pipeline's name or the runtime directory,
which stand in front, and the list is then not the word it takes
(`brokerArgs_sensorIds`).
-/
import Obicall.Broker.Process
import Obicall.Supervisor.Proofs.Sensors
import Obicall.Supervisor.Proofs.Settings

namespace Obicall

open Lib.Joined Lib.Json Lib.Options Lib.Overlay

variable {names : List (List UInt8)}

-- ================================================================ the broker

/-- No name of a broker holds a comma. -/
theorem comma_not_mem_sensorNames {text : List UInt8} {name : SensorId}
    (h : name ∈ (parseSensorIds text).val) : comma ∉ cString name := by
  obtain ⟨piece, hpiece, rfl⟩ := List.mem_map.mp h
  have hsplit := not_mem_of_mem_splitOn comma
    (List.mem_of_mem_filter (List.mem_of_mem_take hpiece))
  intro hmem
  have hlist := (List.takeWhile_prefix _).subset hmem
  rw [toList_strncpy31, List.mem_append] at hlist
  rcases hlist with hin | hzero
  · exact hsplit (List.mem_of_mem_take hin)
  · exact absurd (List.eq_of_mem_replicate hzero) (by decide)

/-- Names without commas come back, if there is room for them. -/
theorem parseSensorIds_build (hcount : names.length ≤ maxTrackedSensors)
    (hne : ∀ name ∈ names, name ≠ []) (hfits : ∀ name ∈ names, name.length ≤ 31)
    (hnul : ∀ name ∈ names, ∀ b ∈ name, b ≠ 0)
    (hlen : (build comma names).length ≤ 255)
    (hcomma : ∀ name ∈ names, comma ∉ name) :
    (parseSensorIds (build comma names)).val.map cString = names := by
  have hpieces : ((build comma names).splitOn comma).filter (· ≠ []) = names := by
    rw [build_of_ne comma hne]
    rcases eq_or_ne names [] with rfl | hnames
    · rfl
    · rw [List.splitOn_intercalate comma hcomma hnames]
      exact List.filter_eq_self.mpr fun name hname =>
        decide_eq_true (hne name hname)
  rw [parseSensorIds]
  simp only
  rw [List.take_of_length_le hlen, hpieces, List.take_of_length_le hcount,
    List.map_map]
  refine (List.map_congr_left fun name hname => ?_).trans (List.map_id names)
  rw [Function.comp_apply, cString_strncpy31 (hnul name hname),
    List.take_of_length_le (hfits name hname)]
  rfl

/-- A broker that has the names has for each sensor the bit of its place. -/
theorem sensorBit_of_names {sensors : Tracked SensorId}
    (h : sensors.val.map cString = names) (sensorId : SensorId) {i : Nat}
    (hplace : names.findIdx? (· == cString sensorId) = some i) :
    sensorBit sensors sensorId = 1 <<< UInt32.ofNat i := by
  have hfind : (sensors.val.findIdx? fun name => strncmpEq name sensorId)
      = some i := by
    rw [← h, List.findIdx?_map] at hplace
    exact hplace
  rw [sensorBit, hfind]

/-- A broker has the names, each in its place and with the bit of its
place. -/
def NamesKept (sensors : Tracked SensorId) (names : List (List UInt8)) : Prop :=
  sensors.val.map cString = names
    ∧ ∀ (sensorId : SensorId) (i : Nat),
      names.findIdx? (· == cString sensorId) = some i →
        sensorBit sensors sensorId = 1 <<< UInt32.ofNat i

theorem namesKept_iff {sensors : Tracked SensorId} :
    NamesKept sensors names ↔ sensors.val.map cString = names :=
  ⟨fun h => h.1, fun h => ⟨h, fun sensorId _ => sensorBit_of_names h sensorId⟩⟩

-- ============================================================== the argument

section Argument

/-- An option is looked for behind another one and its value. -/
theorem valueAfter_skip_option {name other value : List UInt8}
    (hname : OptionLike name) (hother : other ≠ name)
    (hvalue : ¬ OptionLike value) (rest : List (List UInt8)) :
    valueAfter name (other :: value :: rest) = valueAfter name rest := by
  have hne : value ≠ name := by
    rintro rfl
    exact hvalue hname
  rw [valueAfter_skip hother, valueAfter_skip hne]

theorem not_optionLike_tokenHex {F : Type} (su : RunSetup F) :
    ¬ OptionLike su.tokenHex := by
  rw [tokenHex_eq]
  exact not_optionLike_hex _

variable {F : Type} (su : RunSetup F)

/-- A pipeline's name that is shorter than its array is the word itself. -/
theorem pipelineId_eq_iff {w : List UInt8} (hw : w.length < 32) :
    su.pipelineId = w ↔ cString su.cfg.pipelineId = w := by
  have hlonger :=
    (cString_prefix_textIn su.cfg.pipelineId su.manifestsDir).length_le
  unfold RunSetup.pipelineId
  by_cases hlen : (cString su.cfg.pipelineId).length < 32
  · rw [textIn_of_length_lt hlen]
  · refine iff_of_false ?_ ?_
    · intro h
      rw [h] at hlonger
      omega
    · intro h
      rw [h] at hlen
      exact hlen hw

/-- What a broker finds behind `--sensor-ids`: the list, unless one of the
two strings in front of it is spelled like the option. -/
def sensorIdsWord : List UInt8 :=
  if cString su.cfg.pipelineId = ascii "--sensor-ids" then
    ascii "--runtime-dir"
  else if su.runtimeDir = ascii "--sensor-ids" then ascii "--config-digest"
  else cString su.cfg.sensorIdsCsv

variable [DoublePrint F] (isB : Bool)

/-- The words of a broker's command line as far as the list. -/
theorem brokerArgv_words :
    ∃ rest, (brokerArgv su isB).tail =
      ascii "--broker-id" :: brokerLetter isB
      :: ascii "--journal-port" :: portText su.journalPort
      :: ascii "--gate-port" :: portText su.gatePort
      :: ascii "--token" :: su.tokenHex
      :: ascii "--pipeline-id" :: su.pipelineId
      :: ascii "--runtime-dir" :: su.runtimeDir
      :: ascii "--config-digest" :: su.configDigestHex
      :: ascii "--sensor-ids" :: cString su.cfg.sensorIdsCsv :: rest :=
  ⟨_, rfl⟩

theorem findArg_sensorIds :
    findArg (brokerArgv su isB) (ascii "--sensor-ids")
      = some (sensorIdsWord su) := by
  have hopt : OptionLike (ascii "--sensor-ids") := by decide
  have hdigest : su.configDigestHex ≠ ascii "--sensor-ids" := by
    intro heq
    have hhex := not_optionLike_hex su.cfg.configDigest.toList
    rw [← configDigestHex_eq, heq] at hhex
    exact hhex hopt
  obtain ⟨rest, hwords⟩ := brokerArgv_words su isB
  unfold findArg sensorIdsWord
  rw [hwords,
    valueAfter_skip_option hopt (by decide) (not_optionLike_letter isB),
    valueAfter_skip_option hopt (by decide) (not_optionLike_portText _),
    valueAfter_skip_option hopt (by decide) (not_optionLike_portText _),
    valueAfter_skip_option hopt (by decide) (not_optionLike_tokenHex su),
    valueAfter_skip (by decide)]
  split
  next hpipeline =>
    rw [(pipelineId_eq_iff su (by decide)).mpr hpipeline, valueAfter_head]
  next hpipeline =>
    rw [valueAfter_skip (mt (pipelineId_eq_iff su (by decide)).mp hpipeline),
      valueAfter_skip (by decide)]
    split
    next hdir => rw [hdir, valueAfter_head]
    next hdir =>
      rw [valueAfter_skip hdir, valueAfter_skip (by decide),
        valueAfter_skip hdigest, valueAfter_head]

/-- A broker starts on its command line, whatever the configuration says,
with this list of sensors. -/
theorem brokerArgs_sensorIds [DoubleArith F] :
    ∃ b : BrokerSettings F, brokerArgs (brokerArgv su isB) = some b
      ∧ b.opts.sensorIds = sensorIdsWord su := by
  obtain ⟨rest, hwords⟩ := brokerArgv_words su isB
  have hjournal : findArg (brokerArgv su isB) (ascii "--journal-port")
      = some (portText su.journalPort) := by
    unfold findArg
    rw [hwords, valueAfter_skip_option (by decide) (by decide)
      (not_optionLike_letter isB)]
    exact valueAfter_head ..
  have hgate : findArg (brokerArgv su isB) (ascii "--gate-port")
      = some (portText su.gatePort) := by
    unfold findArg
    rw [hwords, valueAfter_skip_option (by decide) (by decide)
        (not_optionLike_letter isB),
      valueAfter_skip_option (by decide) (by decide)
        (not_optionLike_portText _)]
    exact valueAfter_head ..
  have htoken : readToken (brokerArgv su isB) = some su.token := by
    apply readToken_of
    unfold findArg
    rw [← tokenHex_eq, hwords, valueAfter_skip_option (by decide)
        (by decide) (not_optionLike_letter isB),
      valueAfter_skip_option (by decide) (by decide)
        (not_optionLike_portText _),
      valueAfter_skip_option (by decide) (by decide)
        (not_optionLike_portText _)]
    exact valueAfter_head ..
  unfold brokerArgs
  rw [hjournal, hgate, htoken]
  exact ⟨_, rfl, argStr_of (findArg_sensorIds su isB)⟩

end Argument

-- ============================================================ the whole way

section Load

variable {F : Type} [DoubleArith F] [DoubleText F] {config : PipelineConfig F}
  {doc : Document} {blank blank' : Blanks} {xs ys : List (Member Value)}
  {m : Member Value} {es : List (Padded Value)} {strs : List Str}

/-- The text of the sensor list is what the loop has built. -/
theorem cString_held {s : SensorList} {text : List UInt8} (h : Held s text)
    (hnul : ∀ b ∈ text, b ≠ 0) (hlen : text.length ≤ 255) :
    cString s.csv = text := by
  rw [h.csv, List.take_of_length_le hlen]
  exact takeWhile_place (fun b hb => bne_iff_ne.mpr (hnul b hb)) rfl
    (Nat.lt_succ_of_le hlen) _

/-- A list of strings that fit, and fit together, is loaded whole. -/
theorem cString_sensorIdsCsv
    (hload : pipelineConfigLoad (some doc.text) = .loaded config)
    (hdoc : doc.value = .object blank (xs ++ m :: ys))
    (hxs : ∀ x ∈ xs, Str.text x.key ≠ ascii "sensor_ids")
    (hkey : Str.text m.key = ascii "sensor_ids")
    (hvalue : m.value.value = .array blank' es)
    (hes : es.map (·.value) = strs.map .string)
    (hfits : ∀ s ∈ strs, (Str.decoded s).length < 32)
    (hlen : (build comma (strs.map Str.decoded)).length ≤ 255) :
    cString config.sensorIdsCsv = build comma (strs.map Str.decoded) := by
  obtain ⟨hsize, csv, hcsv, rfl⟩ := load_eq_loaded hload
  have hends : EndsInInt (beforeMember doc blank xs m) m.value.value :=
    endsInInt_member hdoc (by omega)
  have hfind := findText_present hdoc hxs hkey hends
  rw [hvalue] at hfind hends
  have harray : plainText doc.text (ascii "sensor_ids")
      = some (Value.array blank' es).bytes := by
    rw [plainText, hfind]
    rfl
  have hbytes : (Value.array blank' es).bytes.length < 2 ^ 31 := by
    rw [EndsInInt, List.length_append] at hends
    omega
  rw [loadSensorIds_eq harray, jsonArrayCount_bytes hbytes, Option.getD_some,
    length_of_values hes] at hcsv
  obtain ⟨s, hloop, rfl⟩ := Option.map_eq_some_iff.mp hcsv
  have hheld := sensorLoop_held hloop
  rw [sensorNames_bytes hbytes hes hfits (Nat.le_refl _),
    List.take_length] at hheld
  refine cString_held hheld (fun b hb => ?_) hlen
  rcases mem_build comma hb with rfl | ⟨name, hname, hmem⟩
  · decide
  · obtain ⟨str, -, rfl⟩ := List.mem_map.mp hname
    exact ne_zero_of_mem_decoded hmem

/-- For every configuration that is loaded, whose first `sensor_ids` is an
array of at most eight strings of 1 to 31 bytes, with a joined length below
256, and for every start with it: a broker has these names, each in its
place and with the bit of its place, if and only if neither the pipeline's
name nor the runtime directory is spelled like the option, and none of the
names contains a comma; or else the only name is the word that the broker
takes instead. -/
theorem sensorNames_kept_iff [DoublePrint F]
    (hload : pipelineConfigLoad (some doc.text) = .loaded config)
    (hdoc : doc.value = .object blank (xs ++ m :: ys))
    (hxs : ∀ x ∈ xs, Str.text x.key ≠ ascii "sensor_ids")
    (hkey : Str.text m.key = ascii "sensor_ids")
    (hvalue : m.value.value = .array blank' es)
    (hes : es.map (·.value) = strs.map .string)
    (hcount : strs.length ≤ 8)
    (hbounds : ∀ s ∈ strs,
      1 ≤ (Str.decoded s).length ∧ (Str.decoded s).length ≤ 31)
    (hjoined : (List.intercalate [comma] (strs.map Str.decoded)).length < 256)
    (su : RunSetup F) (hsu : su.cfg = config) (isB : Bool) :
    ∃ b : BrokerSettings F, brokerArgs (brokerArgv su isB) = some b
      ∧ (NamesKept (parseSensorIds b.opts.sensorIds) (strs.map Str.decoded)
        ↔ (cString config.pipelineId ≠ ascii "--sensor-ids"
            ∧ su.runtimeDir ≠ ascii "--sensor-ids"
            ∧ ∀ s ∈ strs, comma ∉ Str.decoded s)
          ∨ (cString config.pipelineId = ascii "--sensor-ids"
            ∧ strs.map Str.decoded = [ascii "--runtime-dir"])
          ∨ (cString config.pipelineId ≠ ascii "--sensor-ids"
            ∧ su.runtimeDir = ascii "--sensor-ids"
            ∧ strs.map Str.decoded = [ascii "--config-digest"])) := by
  have hne : ∀ name ∈ strs.map Str.decoded, name ≠ [] :=
    List.forall_mem_map.mpr fun s hs => List.ne_nil_of_length_pos (hbounds s hs).1
  have hlen : (build comma (strs.map Str.decoded)).length ≤ 255 := by
    rw [build_of_ne comma hne]
    omega
  have hcsv := cString_sensorIdsCsv hload hdoc hxs hkey hvalue hes
    (fun s hs => Nat.lt_succ_of_le (hbounds s hs).2) hlen
  obtain ⟨b, hargs, hword⟩ := brokerArgs_sensorIds su isB
  refine ⟨b, hargs, ?_⟩
  rw [namesKept_iff, hword, sensorIdsWord, hsu]
  split
  next hpipeline =>
    -- the word behind the pipeline's name
    have hparsed : (parseSensorIds (ascii "--runtime-dir")).val.map cString
        = [ascii "--runtime-dir"] := by decide +kernel
    rw [hparsed]
    simp [hpipeline, eq_comm]
  next hpipeline =>
    split
    next hdir =>
      -- the word behind the runtime directory
      have hparsed : (parseSensorIds (ascii "--config-digest")).val.map
          cString = [ascii "--config-digest"] := by decide +kernel
      rw [hparsed]
      simp [hpipeline, hdir, eq_comm]
    next hdir =>
      rw [hcsv]
      have hkept : (parseSensorIds (build comma (strs.map Str.decoded))).val.map
            cString = strs.map Str.decoded
          ↔ ∀ s ∈ strs, comma ∉ Str.decoded s := by
        constructor
        · intro hkept s hs
          have hmem : Str.decoded s ∈ strs.map Str.decoded :=
            List.mem_map_of_mem hs
          rw [← hkept] at hmem
          obtain ⟨name, hname, heq⟩ := List.mem_map.mp hmem
          rw [← heq]
          exact comma_not_mem_sensorNames hname
        · intro hcomma
          exact parseSensorIds_build (by rw [List.length_map]; exact hcount)
            hne (List.forall_mem_map.mpr fun s hs => (hbounds s hs).2)
            (List.forall_mem_map.mpr fun _ _ _ => ne_zero_of_mem_decoded) hlen
            (List.forall_mem_map.mpr hcomma)
      rw [hkept]
      simp [hpipeline, hdir]

-- ========================================================= two documents

theorem value_sensorDocument (strs : List Str) :
    (sensorDocument strs).value = .object noBlanks
      ([] ++ plainMember "sensor_ids" (sensorArray strs) :: []) := rfl

/-- A short list of sensors is loaded. -/
theorem sensorDocument_loaded (F : Type) [DoubleArith F] [DoubleText F]
    (strs : List Str) (hlen : (sensorDocument strs).text.length ≤ 65536)
    (hbytes : (sensorArray strs).bytes.length < 2 ^ 31)
    (hfits : ∀ s ∈ strs, (Str.decoded s).length < 32)
    (hjoined : (build comma (strs.map Str.decoded)).length ≤ 255) :
    ∃ config : PipelineConfig F,
      pipelineConfigLoad (some (sensorDocument strs).text) = .loaded config := by
  have hplain : plainText (sensorDocument strs).text (ascii "schema_version")
      = none := by
    rw [plainText, findText_doc rfl (by omega)]
    rfl
  have hshort : (build comma
      (sensorNames (sensorArray strs).bytes strs.length)).length ≤ 256 := by
    rw [sensorNames_sensorArray hbytes hfits (Nat.le_refl _), List.take_length]
    omega
  obtain ⟨s, hloop⟩ := sensorLoop_of_le hshort
  have hcsv : loadSensorIds (sensorDocument strs).text = some s.csv := by
    rw [loadSensorIds_eq (plainText_sensorDocument (by omega)),
      jsonArrayCount_sensorArray hbytes, hloop]
    rfl
  exact load_of_list hlen (accepted_of_missing hplain) hcsv

/-- Such a document names no pipeline. -/
theorem pipelineId_sensorDocument {strs : List Str}
    {config : PipelineConfig F}
    (hload : pipelineConfigLoad (some (sensorDocument strs).text)
      = .loaded config)
    (hnone : stringText (sensorDocument strs).text (ascii "pipeline_id")
      = none) :
    cString config.pipelineId ≠ ascii "--sensor-ids" := by
  obtain ⟨-, csv, -, rfl⟩ := load_eq_loaded hload
  have hname : (loadFields (F := F) (sensorDocument strs).text csv).pipelineId
      = place 0 (ascii "default") (zeroBytes 32) := by
    show (findFieldStr _ _ _).1 = _
    rw [findFieldStr_none hnone]
  rw [hname]
  decide +kernel

/-- A start with this configuration. -/
def setupWith (config : PipelineConfig Binary64) : RunSetup Binary64 :=
  { oneProvider with cfg := config }

theorem runtimeDir_setupWith (config : PipelineConfig Binary64) :
    (setupWith config).runtimeDir ≠ ascii "--sensor-ids" := by
  show ascii "/tmp/run" ≠ _
  decide

/-- Two sensors without commas reach the broker. -/
theorem sensorNames_kept_two :
    ∃ config : PipelineConfig Binary64,
      pipelineConfigLoad
          (some (sensorDocument [plainStr "imu", plainStr "gps"]).text)
        = .loaded config
      ∧ ∃ b : BrokerSettings Binary64,
        brokerArgs (brokerArgv (setupWith config) false) = some b
        ∧ NamesKept (parseSensorIds b.opts.sensorIds)
          [ascii "imu", ascii "gps"] := by
  obtain ⟨config, hload⟩ := sensorDocument_loaded Binary64
    [plainStr "imu", plainStr "gps"] (by decide) (by decide) (by decide)
    (by decide)
  have hname := pipelineId_sensorDocument hload (by decide +kernel)
  obtain ⟨b, hargs, hkept⟩ := sensorNames_kept_iff hload
    (value_sensorDocument _) (List.forall_mem_nil _) rfl rfl
    (values_sensorArray _) (by decide) (by decide) (by decide)
    (setupWith config) rfl false
  exact ⟨config, hload, b, hargs,
    hkept.mpr (.inl ⟨hname, runtimeDir_setupWith config, by decide⟩)⟩

/-- One sensor with a comma in its name: the broker has two. -/
theorem sensorNames_split :
    ∃ config : PipelineConfig Binary64,
      pipelineConfigLoad (some (sensorDocument [plainStr "imu,gps"]).text)
        = .loaded config
      ∧ ∃ b : BrokerSettings Binary64,
        brokerArgs (brokerArgv (setupWith config) false) = some b
        ∧ (parseSensorIds b.opts.sensorIds).val.map cString
          = [ascii "imu", ascii "gps"]
        ∧ ¬ NamesKept (parseSensorIds b.opts.sensorIds)
          [Str.decoded (plainStr "imu,gps")] := by
  obtain ⟨config, hload⟩ := sensorDocument_loaded Binary64
    [plainStr "imu,gps"] (by decide) (by decide) (by decide) (by decide)
  have hname := pipelineId_sensorDocument hload (by decide +kernel)
  have hcsv := cString_sensorIdsCsv hload (value_sensorDocument _)
    (List.forall_mem_nil _) rfl rfl (values_sensorArray _) (by decide)
    (by decide)
  obtain ⟨b, hargs, hword⟩ := brokerArgs_sensorIds (setupWith config) false
  have hlist : sensorIdsWord (setupWith config) = ascii "imu,gps" := by
    have hpipeline : cString (setupWith config).cfg.pipelineId
        ≠ ascii "--sensor-ids" := hname
    unfold sensorIdsWord
    rw [if_neg hpipeline, if_neg (runtimeDir_setupWith config)]
    exact hcsv
  have htwo : (parseSensorIds b.opts.sensorIds).val.map cString
      = [ascii "imu", ascii "gps"] := by
    rw [hword, hlist]
    decide +kernel
  refine ⟨config, hload, b, hargs, htwo, ?_⟩
  rw [namesKept_iff, htwo]
  decide

end Load

end Obicall
