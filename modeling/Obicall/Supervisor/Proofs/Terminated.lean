/-
The strings of a loaded configuration, and with them those of a manifest:
which of them are terminated.

`sensor_ids_csv` always is, by the last `snprintf` that had room. All other
strings of a configuration are taken as the decoder leaves them, like three
of a manifest (`manifest_terminated_iff`).

A provider's strings may come from more than one entry: one without a
manifest is not counted, and the next is read into the same slot, over what
it has left there. `sharedSlots` groups the entries by their slots, and
`counted_foldl` shows that the loop does so. A place of a string then holds
what the newest entry that reaches it has written.
-/
import Obicall.Manifest.Proofs.Terminated
import Obicall.Supervisor.Proofs.Sensors

namespace Obicall

open Lib.Json Lib.Overlay

variable {F : Type} [DoubleArith F] [DoubleText F] {json array : List UInt8}

-- =============================================================== the entries

/-- What an entry writes into a string of its slot. -/
def entryBytes (key pobj : List UInt8) : List UInt8 :=
  match stringText pobj key with
  | none => []
  | some text => (unescape text).stored

theorem findFieldStr_entry {n : Nat} (hn : n ≤ 2 ^ 31) (key pobj : List UInt8)
    (out : Vector UInt8 n) :
    (findFieldStr pobj key out).1 = place 0 (entryBytes key pobj) out := by
  unfold entryBytes
  cases htext : stringText pobj key with
  | none => rw [findFieldStr_none htext, place_nil]
  | some text => rw [findFieldStr_some htext, decodeInto_eq hn]

/-- Whether the entry is counted: its manifest has a first character. -/
def namesManifest (pobj : List UInt8) : Bool :=
  (entryBytes (ascii "manifest") pobj).headD 0 != 0

/-- The entries grouped by slots, `shared` being those that are read into
the first one already; the last group is left out when it is not counted. -/
def sharedSlots : List (List UInt8) → List (List UInt8) →
    List (List (List UInt8))
  | _, [] => []
  | shared, pobj :: rest =>
      if namesManifest pobj then (shared ++ [pobj]) :: sharedSlots [] rest
      else sharedSlots (shared ++ [pobj]) rest

/-- The objects that the first turns find. -/
def providerEntries (array : List UInt8) (turns : Nat) : List (List UInt8) :=
  (List.range turns).filterMap fun i =>
    (elementText array i).bind fun e => if e.isString then none else some e.text

/-- The entries of a document by their slots. -/
def providerSlots (json : List UInt8) : List (List (List UInt8)) :=
  match plainText json (ascii "providers") with
  | none => []
  | some array =>
      sharedSlots [] (providerEntries array
        (min ((jsonArrayCount array).getD 0) pipelineMaxProviders))

/-- The entries of a slot leave a `NUL` in the `cap` bytes of a string: at
some place the newest text that reaches it has one, or none reaches it. -/
def SlotTerminated (cap : Nat) (key : List UInt8) (slot : List (List UInt8)) :
    Prop :=
  ∃ i < cap, newest 0 (slot.map (entryBytes key)) i = 0

-- ================================================================== the slots

section Slots

variable (F)

/-- A slot with its entries read into it. -/
def slotOf (slot : List (List UInt8)) : ProviderRef :=
  slot.foldl (ProviderRef.read F) .zero

theorem providerLoop_eq (array : List UInt8) (turns : Nat) :
    providerLoop F array turns
      = (providerEntries array turns).foldl (readEntry F) ⟨[], .zero⟩ := by
  rw [providerLoop, providerEntries, List.foldl_filterMap]
  congr 1
  funext s i
  unfold providerTurn
  cases elementText array i with
  | none => rfl
  | some e =>
      obtain ⟨isString, text⟩ := e
      cases isString <;> rfl

variable {F}

theorem read_manifest (pr : ProviderRef) (pobj : List UInt8) :
    (pr.read F pobj).manifest
      = place 0 (entryBytes (ascii "manifest") pobj) pr.manifest :=
  findFieldStr_entry (by decide) _ pobj pr.manifest

theorem read_workerName (pr : ProviderRef) (pobj : List UInt8) :
    (pr.read F pobj).workerName
      = place 0 (entryBytes (ascii "worker_name") pobj) pr.workerName :=
  findFieldStr_entry (by decide) _ pobj pr.workerName

theorem get_zero_place {n : Nat} (text : List UInt8) (out : Vector UInt8 n)
    (hpos : 0 < n) :
    (place 0 text out).get ⟨0, hpos⟩ = text.headD (out.get ⟨0, hpos⟩) := by
  have hget := get_place_zero text out ⟨0, hpos⟩
  cases text with
  | nil => exact hget
  | cons x text => exact hget

/-- The loop reads the groups, each into a slot of its own. -/
theorem counted_foldl (entries shared : List (List UInt8))
    (counted : List ProviderRef)
    (hopen : (slotOf F shared).manifest.get ⟨0, by decide⟩ = 0) :
    (entries.foldl (readEntry F) ⟨counted, slotOf F shared⟩).counted
      = counted ++ (sharedSlots shared entries).map (slotOf F) := by
  induction entries generalizing shared counted with
  | nil => exact (List.append_nil counted).symm
  | cons pobj entries ih =>
      have hread : (slotOf F shared).read F pobj = slotOf F (shared ++ [pobj]) := by
        rw [slotOf, slotOf, List.foldl_append]
        rfl
      have hhead : (slotOf F (shared ++ [pobj])).manifest.get ⟨0, by decide⟩
          = (entryBytes (ascii "manifest") pobj).headD 0 := by
        rw [← hread, read_manifest, get_zero_place, hopen]
      rw [List.foldl_cons, readEntry]
      simp only [hread]
      rw [sharedSlots]
      by_cases hnames : namesManifest pobj = true
      · have hne : (slotOf F (shared ++ [pobj])).manifest.get ⟨0, by decide⟩
            ≠ 0 := by
          rw [hhead]
          exact bne_iff_ne.mp hnames
        rw [if_pos hne, if_pos hnames]
        have hnext := ih [] (counted ++ [slotOf F (shared ++ [pobj])]) rfl
        rw [List.append_assoc] at hnext
        exact hnext
      · have heq : (slotOf F (shared ++ [pobj])).manifest.get ⟨0, by decide⟩
            = 0 := by
          rw [hhead]
          exact not_not.mp fun hne => hnames (bne_iff_ne.mpr hne)
        rw [if_neg (not_not.mpr heq), if_neg hnames]
        exact ih (shared ++ [pobj]) counted heq

/-- A string of a slot is its entries' texts, one over another. -/
theorem foldl_read {n : Nat} {key : List UInt8}
    (field : ProviderRef → Vector UInt8 n)
    (hread : ∀ pr pobj, field (pr.read F pobj)
      = place 0 (entryBytes key pobj) (field pr))
    (slot : List (List UInt8)) (pr : ProviderRef) :
    field (slot.foldl (ProviderRef.read F) pr)
      = (slot.map (entryBytes key)).foldl
          (fun out text => place 0 text out) (field pr) := by
  induction slot generalizing pr with
  | nil => rfl
  | cons pobj slot ih =>
      rw [List.foldl_cons, ih, hread, List.map_cons, List.foldl_cons]

theorem zero_mem_slotOf (slot : List (List UInt8)) :
    (0 ∈ (slotOf F slot).manifest ↔ SlotTerminated 512 (ascii "manifest") slot)
      ∧ (0 ∈ (slotOf F slot).workerName
        ↔ SlotTerminated 64 (ascii "worker_name") slot) := by
  constructor
  · rw [slotOf, foldl_read ProviderRef.manifest read_manifest]
    exact mem_foldl_place_iff
  · rw [slotOf, foldl_read ProviderRef.workerName read_workerName]
    exact mem_foldl_place_iff

theorem loadProviders_val (json : List UInt8) :
    (loadProviders F json).val = (providerSlots json).map (slotOf F) := by
  unfold loadProviders providerSlots
  cases plainText json (ascii "providers") with
  | none => rfl
  | some array =>
      simp only
      rw [providerLoop_eq]
      exact counted_foldl _ [] [] rfl

end Slots

-- ========================================================== the configuration

/-- Every string of the configuration has its `NUL`. -/
structure PipelineConfig.Terminated (config : PipelineConfig F) : Prop where
  pipelineId : 0 ∈ config.pipelineId
  manifestsDir : 0 ∈ config.manifestsDir
  sensorIdsCsv : 0 ∈ config.sensorIdsCsv
  providers : ∀ pr ∈ config.providers.val, 0 ∈ pr.manifest ∧ 0 ∈ pr.workerName

/-- A default that is shorter than its array leaves the last byte 0. -/
theorem get_default {n : Nat} {text : List UInt8} {i : Fin n}
    (h : text.length ≤ i.val) : (place 0 text (zeroBytes n)).get i = 0 := by
  rw [get_place_zero, List.getElem?_eq_none h, Option.getD_none]
  exact get_replicate 0 i

theorem zero_mem_loadSensorIds {csv : Vector UInt8 256}
    (h : loadSensorIds json = some csv) : 0 ∈ csv := by
  cases harray : plainText json (ascii "sensor_ids") with
  | none =>
      rw [loadSensorIds, harray] at h
      cases h
      exact mem_iff_get.mpr ⟨0, get_replicate 0 0⟩
  | some array =>
      rw [loadSensorIds_eq harray] at h
      obtain ⟨s, hloop, rfl⟩ := Option.map_eq_some_iff.mp h
      obtain ⟨-, hcsv⟩ := sensorLoop_held hloop
      rw [hcsv]
      refine marker_mem_place ?_ _
      exact Nat.lt_succ_of_le (List.length_take_le ..)

/-- A loaded configuration is terminated where the texts of its strings
leave a `NUL`. -/
theorem config_terminated_iff {config : PipelineConfig F}
    (h : pipelineConfigLoad (some json) = .loaded config) :
    config.Terminated
      ↔ KeyLeavesNul json (ascii "pipeline_id") 32
        ∧ KeyLeavesNul json (ascii "manifests_dir") 512
        ∧ ∀ slot ∈ providerSlots json,
          SlotTerminated 512 (ascii "manifest") slot
            ∧ SlotTerminated 64 (ascii "worker_name") slot := by
  obtain ⟨-, csv, hcsv, rfl⟩ := load_eq_loaded h
  have hid : 0 ∈ (loadFields json csv : PipelineConfig F).pipelineId
      ↔ KeyLeavesNul json (ascii "pipeline_id") 32 :=
    zero_mem_findFieldStr (by decide) (by decide) (get_default (by decide))
  have hdir : 0 ∈ (loadFields json csv : PipelineConfig F).manifestsDir
      ↔ KeyLeavesNul json (ascii "manifests_dir") 512 :=
    zero_mem_findFieldStr (by decide) (by decide) (get_default (by decide))
  have hslots : (∀ pr ∈ (loadFields json csv : PipelineConfig F).providers.val,
        0 ∈ pr.manifest ∧ 0 ∈ pr.workerName)
      ↔ ∀ slot ∈ providerSlots json,
        SlotTerminated 512 (ascii "manifest") slot
          ∧ SlotTerminated 64 (ascii "worker_name") slot := by
    show (∀ pr ∈ (loadProviders F json).val, _) ↔ _
    rw [loadProviders_val, List.forall_mem_map]
    refine forall₂_congr fun slot _ => ?_
    exact and_congr (zero_mem_slotOf slot).1 (zero_mem_slotOf slot).2
  constructor
  · intro hconfig
    exact ⟨hid.mp hconfig.pipelineId, hdir.mp hconfig.manifestsDir,
      hslots.mp hconfig.providers⟩
  · rintro ⟨hpipeline, hmanifests, hproviders⟩
    exact {
      pipelineId := hid.mpr hpipeline
      manifestsDir := hdir.mpr hmanifests
      sensorIdsCsv := zero_mem_loadSensorIds hcsv
      providers := hslots.mpr hproviders }

-- ================================================================ both loaders

/-- Every string of a manifest that is parsed is terminated if and only if
the three that are taken as they come have a text that leaves a `NUL`, and
every string of a configuration that is loaded if and only if its two, and
the texts of each provider's slot, do. -/
theorem loaded_terminated_iff (F : Type) [DoubleArith F] [DoubleText F]
    (json : List UInt8) :
    (∀ m : ParsedManifest F, obicallManifestParseJson json = .ok m →
      (m.Terminated
        ↔ KeyLeavesNul json (ascii "version") 32
          ∧ KeyLeavesNul json (ascii "architecture") 16
          ∧ KeyLeavesNul json (ascii "capability_slot") 64))
    ∧ ∀ config : PipelineConfig F,
      pipelineConfigLoad (some json) = .loaded config →
        (config.Terminated
          ↔ KeyLeavesNul json (ascii "pipeline_id") 32
            ∧ KeyLeavesNul json (ascii "manifests_dir") 512
            ∧ ∀ slot ∈ providerSlots json,
              SlotTerminated 512 (ascii "manifest") slot
                ∧ SlotTerminated 64 (ascii "worker_name") slot) :=
  ⟨fun _ h => manifest_terminated_iff h, fun _ h => config_terminated_iff h⟩

section Plain

variable {s : String}

/-- A manifest with a version, and a configuration with a name. -/
def versionMember (s : String) : Member Value :=
  plainMember "version" (.string (plainStr s))

def pipelineDocument (s : String) : Document :=
  plainObject [plainMember "pipeline_id" (.string (plainStr s))]

theorem versionManifest_parsed
    (hlen : (leadingManifest (versionMember s)).text.length < 2 ^ 31) :
    ∃ m : ParsedManifest Binary64,
      obicallManifestParseJson (leadingManifest (versionMember s)).text
        = .ok m := by
  have haccepted := leadingManifest_accepted hlen rfl rfl rfl
  have hdeps : parseDependencies (leadingManifest (versionMember s)).text
      = .ok ⟨[], Nat.zero_le _⟩ := by
    rw [parseDependencies, plainText, findText_doc rfl hlen]
    rfl
  exact parse_of_accepted haccepted hdeps

theorem pipelineDocument_loaded
    (hlen : (pipelineDocument s).text.length ≤ 65536) :
    ∃ config : PipelineConfig Binary64,
      pipelineConfigLoad (some (pipelineDocument s).text) = .loaded config := by
  have hint : (pipelineDocument s).text.length < 2 ^ 31 := by omega
  have hversion : plainText (pipelineDocument s).text (ascii "schema_version")
      = none := by
    rw [plainText, findText_doc rfl hint]
    rfl
  have hids : loadSensorIds (pipelineDocument s).text
      = some (zeroBytes 256) := by
    rw [loadSensorIds, plainText, findText_doc rfl hint]
    rfl
  exact load_of_list hlen (accepted_of_missing hversion) hids

theorem keyLeavesNul_version
    (hlen : (leadingManifest (versionMember s)).text.length < 2 ^ 31) (cap : Nat) :
    KeyLeavesNul (leadingManifest (versionMember s)).text (ascii "version") cap
      ↔ LeavesNul cap (Str.text (plainStr s)) := by
  refine keyLeavesNul_of_some ?_
  rw [stringText, findText_doc rfl hlen]
  rfl

theorem keyLeavesNul_pipelineId
    (hlen : (pipelineDocument s).text.length < 2 ^ 31) (cap : Nat) :
    KeyLeavesNul (pipelineDocument s).text (ascii "pipeline_id") cap
      ↔ LeavesNul cap (Str.text (plainStr s)) := by
  refine keyLeavesNul_of_some ?_
  rw [stringText, findText_doc rfl hlen]
  rfl

end Plain

/-- A short version and a short name. -/
theorem loaded_terminated_short :
    (∃ m : ParsedManifest Binary64,
      obicallManifestParseJson (leadingManifest (versionMember "1.0")).text = .ok m
        ∧ m.Terminated)
    ∧ ∃ config : PipelineConfig Binary64,
      pipelineConfigLoad (some (pipelineDocument "demo").text) = .loaded config
        ∧ config.Terminated := by
  have hversion : (leadingManifest (versionMember "1.0")).text.length
      < 2 ^ 31 := by decide
  have hid : (pipelineDocument "demo").text.length ≤ 65536 := by decide
  have hint : (pipelineDocument "demo").text.length < 2 ^ 31 := by omega
  obtain ⟨m, hparse⟩ := versionManifest_parsed hversion
  obtain ⟨config, hload⟩ := pipelineDocument_loaded hid
  refine ⟨⟨m, hparse, ?_⟩, config, hload, ?_⟩
  · refine ((loaded_terminated_iff Binary64 _).1 m hparse).mpr
      ⟨(keyLeavesNul_version hversion 32).mpr (.inl (by decide)),
        keyLeavesNul_of_none ?_, keyLeavesNul_of_none ?_⟩
    all_goals
      rw [stringText, findText_doc rfl hversion]
      rfl
  · have hslots : providerSlots (pipelineDocument "demo").text = [] := by
      rw [providerSlots, plainText, findText_doc rfl hint]
      rfl
    refine ((loaded_terminated_iff Binary64 _).2 config hload).mpr
      ⟨(keyLeavesNul_pipelineId hint 32).mpr (.inl (by decide)),
        keyLeavesNul_of_none ?_, by rw [hslots]; exact List.forall_mem_nil _⟩
    rw [stringText, findText_doc rfl hint]
    rfl

/-- A version and a name of 32 letters each: both are accepted, and neither
is terminated. -/
theorem loaded_unterminated :
    (∃ m : ParsedManifest Binary64,
      obicallManifestParseJson (leadingManifest
          (versionMember "1.0.0-release-candidate-20240601")).text = .ok m
        ∧ ¬ m.Terminated)
    ∧ ∃ config : PipelineConfig Binary64,
      pipelineConfigLoad (some
          (pipelineDocument "position-fusion-at-the-northwing").text)
        = .loaded config
        ∧ ¬ config.Terminated := by
  have hversion : (leadingManifest
      (versionMember "1.0.0-release-candidate-20240601")).text.length < 2 ^ 31 := by
    decide +kernel
  have hid : (pipelineDocument "position-fusion-at-the-northwing").text.length
      ≤ 65536 := by decide +kernel
  obtain ⟨m, hparse⟩ := versionManifest_parsed hversion
  obtain ⟨config, hload⟩ := pipelineDocument_loaded hid
  refine ⟨⟨m, hparse, fun hm => ?_⟩, config, hload, fun hconfig => ?_⟩
  · have hleaves := ((manifest_terminated_iff hparse).mp hm).1
    rw [keyLeavesNul_version hversion] at hleaves
    revert hleaves
    unfold LeavesNul
    decide +kernel
  · have hleaves := ((config_terminated_iff hload).mp hconfig).1
    rw [keyLeavesNul_pipelineId (by omega)] at hleaves
    revert hleaves
    unfold LeavesNul
    decide +kernel

end Obicall
