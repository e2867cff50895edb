/-
The sensor list against its 256 bytes.

`Held` is what the loop keeps: the offset is the length of the whole text
so far, written or not, and the array holds the text cut to 255 bytes, with
a `NUL` behind it. One turn keeps it (`append_held`), for every text up to
256 bytes, where the room left is nothing and nothing is written. The loop
does not ask for more: the offset passes the end with the first text that
is longer (`sensorOffsets_bounded_iff`), and the next turn writes behind
the array (`append_eq_none`).
-/
import Obicall.Json.Proofs.Fields
import Obicall.Lib.Joined
import Obicall.Supervisor.Config

namespace Obicall

open Lib.Joined Lib.Json Lib.Overlay

/-- The comma between two names. -/
abbrev comma : UInt8 := 0x2C

variable {strs : List Str} {s s' : SensorList} {text name : List UInt8}
  {names : List (List UInt8)}
  {array json : List UInt8}

-- ================================================================= one turn

/-- The list holds a text, of which the first 255 bytes are written. -/
structure Held (s : SensorList) (text : List UInt8) : Prop where
  off : s.off = text.length
  csv : s.csv = place 0 (text.take 255 ++ [0]) (zeroBytes 256)

theorem held_empty : Held .empty [] := by
  refine ⟨rfl, ext_get fun i => ?_⟩
  rw [get_place_zero]
  show (Vector.replicate 256 (0 : UInt8)).get i = _
  rw [get_replicate]
  rcases Nat.eq_zero_or_pos i.val with hzero | hpos
  · rw [hzero]
    rfl
  · rw [List.getElem?_eq_none (by exact hpos), Option.getD_none]
    exact (get_replicate 0 i).symm

theorem append_eq_none : s.append name = none ↔ 256 < s.off := by
  unfold SensorList.append
  split
  next h => exact ⟨fun _ => h, fun _ => rfl⟩
  next h => exact ⟨fun hnone => (by cases hnone), fun hlt => absurd hlt h⟩

/-- A name behind a text that ends inside the array or where it ends. -/
theorem append_held (h : Held s text) (name : List UInt8)
    (hlen : text.length ≤ 256) :
    ∃ s', s.append name = some s' ∧ Held s' (push comma text name) := by
  obtain ⟨hoff, hcsv⟩ := h
  unfold SensorList.append
  rw [if_neg (Nat.not_lt.mpr (by rw [hoff]; exact hlen))]
  refine ⟨_, rfl, ?_, ?_⟩
  · simp only [push, hoff, List.length_append]
  · rw [push, hcsv, hoff]
    simp only
    generalize (if 0 < text.length then [0x2C] else []) ++ name = added
    rcases Nat.lt_or_ge 255 text.length with hfull | hroom
    · -- no room is left, and 255 bytes are written already
      have hsize : 256 - text.length = 0 := by omega
      rw [snprintf, if_pos hsize, place_nil,
        List.take_append_of_le_length (by omega)]
    · have hsize : 256 - text.length ≠ 0 := by omega
      have hcut : 256 - text.length - 1 = 255 - text.length := by omega
      rw [snprintf, if_neg hsize, hcut, List.take_of_length_le hroom,
        place_append, List.take_append, List.take_of_length_le hroom,
        List.append_assoc]
      rw [List.length_append, List.length_singleton]
      exact Nat.le_add_left 1 _

-- ================================================================= the loop

theorem held_of_foldlM (hs : Held s text)
    (h : names.foldlM SensorList.append s = some s') :
    Held s' (names.foldl (push comma) text) := by
  induction names generalizing s text with
  | nil => exact Option.some.inj h ▸ hs
  | cons name names ih =>
      rw [List.foldlM_cons] at h
      obtain ⟨s₁, happend, hrest⟩ := Option.bind_eq_some_iff.mp h
      have hoff : ¬ 256 < s.off := fun hlt => by
        rw [append_eq_none.mpr hlt] at happend
        cases happend
      rw [hs.off] at hoff
      obtain ⟨s₂, hsome, hheld⟩ := append_held hs name
        (Nat.not_lt.mp hoff)
      cases happend.symm.trans hsome
      exact ih hheld hrest

theorem foldlM_held (hs : Held s text)
    (hlen : (names.foldl (push comma) text).length ≤ 256) :
    ∃ s', names.foldlM SensorList.append s = some s' := by
  induction names generalizing s text with
  | nil => exact ⟨s, rfl⟩
  | cons name names ih =>
      have hle := (prefix_foldl_push comma (name :: names) text).length_le
      obtain ⟨s₁, hsome, hheld⟩ := append_held hs name
        (hle.trans hlen)
      obtain ⟨s', hrest⟩ := ih hheld hlen
      exact ⟨s', by rw [List.foldlM_cons, hsome]; exact hrest⟩

/-- The names that the first turns find. -/
def sensorNames (array : List UInt8) (turns : Nat) : List (List UInt8) :=
  (List.range turns).filterMap fun i => elementName array i 32

theorem sensorLoop_eq (array : List UInt8) (turns : Nat) :
    sensorLoop array turns
      = (sensorNames array turns).foldlM SensorList.append .empty := by
  rw [sensorLoop, sensorNames, List.foldlM_filterMap]
  congr 1
  funext s i
  unfold sensorTurn
  cases elementName array i 32 <;> rfl

theorem sensorLoop_held {turns : Nat} (h : sensorLoop array turns = some s) :
    Held s (build comma (sensorNames array turns)) := by
  rw [sensorLoop_eq] at h
  exact held_of_foldlM held_empty h

/-- Earlier turns have found the first of the names. -/
theorem prefix_sensorNames (array : List UInt8) {i j : Nat} (h : i ≤ j) :
    sensorNames array i <+: sensorNames array j := by
  obtain ⟨k, rfl⟩ := Nat.exists_eq_add_of_le h
  rw [sensorNames, sensorNames, List.range_add, List.filterMap_append]
  exact List.prefix_append _ _

theorem sensorLoop_of_le {turns : Nat}
    (h : (build comma (sensorNames array turns)).length ≤ 256) :
    ∃ s, sensorLoop array turns = some s := by
  rw [sensorLoop_eq]
  exact foldlM_held held_empty h

/-- The loop is lost with the first turn behind a text that is too long. -/
theorem sensorLoop_succ_eq_none {turns : Nat}
    (hname : elementName array turns 32 = some name)
    (hlen : 256 < (build comma (sensorNames array turns)).length) :
    sensorLoop array (turns + 1) = none := by
  rw [sensorLoop, List.range_succ, List.foldlM_append]
  cases hloop : sensorLoop array turns with
  | none =>
      rw [sensorLoop] at hloop
      rw [hloop]
      rfl
  | some s =>
      have hheld := sensorLoop_held hloop
      rw [sensorLoop] at hloop
      rw [hloop]
      rw [← hheld.off] at hlen
      show (List.foldlM (sensorTurn array) s [turns] : Option SensorList) = none
      rw [List.foldlM_cons, sensorTurn, hname]
      simp only [append_eq_none.mpr hlen]
      rfl

-- ================================================== the sensors of a document

section Document

variable {blank : Blanks} {es : List (Padded Value)}

/-- The names in an array of strings that fit a sensor id, after some of the
turns. -/
theorem sensorNames_bytes (hlen : (Value.array blank es).bytes.length < 2 ^ 31)
    (hes : es.map (·.value) = strs.map .string)
    (hfits : ∀ s ∈ strs, (Str.decoded s).length < 32) {turns : Nat}
    (hturns : turns ≤ strs.length) :
    sensorNames (Value.array blank es).bytes turns
      = (strs.take turns).map Str.decoded := by
  rw [sensorNames, ← filterMap_range Str.decoded (strs.take turns),
    List.length_take_of_le hturns]
  refine List.filterMap_congr fun i hi => ?_
  rw [elementName_bytes (by decide) hlen hes hfits, List.getElem?_take,
    if_pos (List.mem_range.mp hi)]

theorem length_of_values (hes : es.map (·.value) = strs.map .string) :
    es.length = strs.length := by
  have hcount := congrArg List.length hes
  rwa [List.length_map, List.length_map] at hcount

end Document

-- ============================================================= the whole list

theorem loadSensorIds_eq
    (harray : plainText json (ascii "sensor_ids") = some array) :
    loadSensorIds json
      = (sensorLoop array ((jsonArrayCount array).getD 0)).map
          SensorList.csv := by
  rw [loadSensorIds, harray]

section Load

variable {F : Type} [DoubleArith F] [DoubleText F] {config : PipelineConfig F}

omit [DoubleArith F] in
theorem accepted_of_missing
    (h : plainText json (ascii "schema_version") = none) :
    schemaVersionAccepted F json = true := by
  unfold schemaVersionAccepted getNum findFieldNum
  rw [h]
  rfl

/-- A list that is lost is all that the load is about. -/
theorem load_overrun (hsize : json.length ≤ 65536)
    (hversion : schemaVersionAccepted F json = true)
    (hlost : loadSensorIds json = none) :
    (pipelineConfigLoad (some json) : ConfigLoad F) = .overrun := by
  simp only [pipelineConfigLoad, if_neg (Nat.not_lt.mpr hsize), hversion, hlost,
    Bool.not_true, Bool.false_eq_true, if_false]

/-- With its list a document of this version is loaded. -/
theorem load_of_list {csv : Vector UInt8 256} (hsize : json.length ≤ 65536)
    (hversion : schemaVersionAccepted F json = true)
    (hcsv : loadSensorIds json = some csv) :
    ∃ config : PipelineConfig F,
      pipelineConfigLoad (some json) = .loaded config := by
  refine ⟨loadFields json csv, ?_⟩
  simp only [pipelineConfigLoad, if_neg (Nat.not_lt.mpr hsize), hversion, hcsv,
    Bool.not_true, Bool.false_eq_true, if_false]

/-- A configuration that is loaded has the sensor list and the fields of
its document. -/
theorem load_eq_loaded
    (h : pipelineConfigLoad (some json) = .loaded config) :
    json.length ≤ 65536
      ∧ ∃ csv, loadSensorIds json = some csv ∧ config = loadFields json csv := by
  simp only [pipelineConfigLoad] at h
  split at h
  next => cases h
  next hsize =>
    split at h
    next => cases h
    next =>
      split at h
      next => cases h
      next csv hcsv =>
        cases h
        exact ⟨Nat.not_lt.mp hsize, csv, hcsv, rfl⟩

end Load

/-- For every document with a list of sensors: the offset stays within the
array before every turn and after the last one, and the list is written, if
and only if the names, joined with commas, are at most 256 bytes long. -/
theorem sensorOffsets_bounded_iff
    (harray : plainText json (ascii "sensor_ids") = some array) :
    ((∀ turns ≤ (jsonArrayCount array).getD 0,
        ∃ s, sensorLoop array turns = some s ∧ s.off ≤ 256)
      ∧ ∃ csv, loadSensorIds json = some csv)
      ↔ (List.intercalate [comma]
          ((sensorNames array ((jsonArrayCount array).getD 0)).dropWhile
            List.isEmpty)).length ≤ 256 := by
  rw [← build_eq, loadSensorIds_eq harray]
  generalize (jsonArrayCount array).getD 0 = count
  constructor
  · rintro ⟨hall, -⟩
    obtain ⟨s, hloop, hoff⟩ := hall count (Nat.le_refl _)
    rw [(sensorLoop_held hloop).off] at hoff
    exact hoff
  · intro hlen
    have hturns : ∀ turns ≤ count,
        ∃ s, sensorLoop array turns = some s ∧ s.off ≤ 256 := by
      intro turns hle
      obtain ⟨rest, hrest⟩ := prefix_sensorNames array hle
      have hshort : (build comma (sensorNames array turns)).length ≤ 256 := by
        refine Nat.le_trans (List.IsPrefix.length_le ?_) hlen
        rw [← hrest]
        exact prefix_build comma _ _
      obtain ⟨s, hloop⟩ := sensorLoop_of_le hshort
      exact ⟨s, hloop, by rw [(sensorLoop_held hloop).off]; exact hshort⟩
    refine ⟨hturns, ?_⟩
    obtain ⟨s, hloop, -⟩ := hturns count (Nat.le_refl _)
    exact ⟨s.csv, by rw [hloop, Option.map_some]⟩

/-- A configuration with nothing but a list of sensors. -/
def sensorArray (strs : List Str) : Value := plainArray (strs.map .string)

def sensorDocument (strs : List Str) : Document :=
  plainObject [plainMember "sensor_ids" (sensorArray strs)]

section Plain

theorem plainText_sensorDocument
    (hlen : (sensorDocument strs).text.length < 2 ^ 31) :
    plainText (sensorDocument strs).text (ascii "sensor_ids")
      = some (sensorArray strs).bytes := by
  rw [plainText, findText_doc rfl hlen]
  rfl

theorem values_sensorArray (strs : List Str) :
    ((strs.map .string).map bare).map (·.value) = strs.map .string := by
  rw [List.map_map]
  exact List.map_id _

theorem jsonArrayCount_sensorArray
    (hlen : (sensorArray strs).bytes.length < 2 ^ 31) :
    (jsonArrayCount (sensorArray strs).bytes).getD 0 = strs.length := by
  have hcount := jsonArrayCount_bytes hlen
  rw [List.length_map, List.length_map] at hcount
  rw [sensorArray, plainArray, hcount, Option.getD_some]

theorem sensorNames_sensorArray (hlen : (sensorArray strs).bytes.length < 2 ^ 31)
    (hfits : ∀ s ∈ strs, (Str.decoded s).length < 32) {turns : Nat}
    (hturns : turns ≤ strs.length) :
    sensorNames (sensorArray strs).bytes turns
      = (strs.take turns).map Str.decoded :=
  sensorNames_bytes hlen (values_sensorArray strs) hfits hturns

end Plain

/-- Two sensors stay within the array. -/
theorem sensorOffsets_bounded_two :
    ∃ csv, loadSensorIds (sensorDocument [plainStr "imu", plainStr "gps"]).text
      = some csv := by
  have hlen : (sensorDocument [plainStr "imu", plainStr "gps"]).text.length
      < 2 ^ 31 := by decide
  have hbytes : (sensorArray [plainStr "imu", plainStr "gps"]).bytes.length
      < 2 ^ 31 := by decide
  refine ((sensorOffsets_bounded_iff (plainText_sensorDocument hlen)).mpr ?_).2
  rw [jsonArrayCount_sensorArray hbytes,
    sensorNames_sensorArray hbytes (by decide) (Nat.le_refl _)]
  decide

/-- A sensor's name of 31 letters. -/
def wideSensor : Str := plainStr "sensor_mounted_on_the_left_wing"

/-- Ten of them: behind the ninth the offset is 287, and the tenth is
written behind the array. -/
theorem sensorList_overrun :
    ¬ (∀ turns ≤ (jsonArrayCount
            (sensorArray (List.replicate 10 wideSensor)).bytes).getD 0,
        ∃ s, sensorLoop (sensorArray (List.replicate 10 wideSensor)).bytes turns
          = some s ∧ s.off ≤ 256)
      ∧ (pipelineConfigLoad
          (some (sensorDocument (List.replicate 10 wideSensor)).text)
          : ConfigLoad Binary64) = .overrun := by
  have hlen : (sensorDocument (List.replicate 10 wideSensor)).text.length
      < 2 ^ 31 := by decide +kernel
  have hbytes : (sensorArray (List.replicate 10 wideSensor)).bytes.length
      < 2 ^ 31 := by decide +kernel
  have hfits : ∀ s ∈ List.replicate 10 wideSensor,
      (Str.decoded s).length < 32 := by decide
  have hnine : (build comma (sensorNames
      (sensorArray (List.replicate 10 wideSensor)).bytes 9)).length = 287 := by
    rw [sensorNames_sensorArray hbytes hfits (by decide)]
    decide +kernel
  constructor
  · intro hall
    rw [jsonArrayCount_sensorArray hbytes] at hall
    obtain ⟨s, hloop, hoff⟩ := hall 9 (by decide)
    rw [(sensorLoop_held hloop).off, hnine] at hoff
    exact absurd hoff (by decide)
  · have htenth : elementName
        (sensorArray (List.replicate 10 wideSensor)).bytes 9 32
        = some (Str.decoded wideSensor) :=
      elementName_bytes (by decide) hbytes (values_sensorArray _) hfits 9
    have hlost := sensorLoop_succ_eq_none htenth (by rw [hnine]; decide)
    have hids : loadSensorIds
        (sensorDocument (List.replicate 10 wideSensor)).text = none := by
      rw [loadSensorIds_eq (plainText_sensorDocument hlen),
        jsonArrayCount_sensorArray hbytes]
      exact congrArg (Option.map SensorList.csv) hlost
    have hplain : plainText (sensorDocument (List.replicate 10 wideSensor)).text
        (ascii "schema_version") = none := by
      rw [plainText, findText_doc rfl hlen]
      rfl
    have hsize : (sensorDocument (List.replicate 10 wideSensor)).text.length
        ≤ 65536 := by decide +kernel
    exact load_overrun hsize (accepted_of_missing hplain) hids

end Obicall
