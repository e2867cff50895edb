/-
The strings of a parsed manifest are terminated, but for three fields.

A field whose reader's result is looked at is terminated by the decoder
(`zero_mem_of_found`), and `config_json` by the parse itself. `version`,
`architecture` and `capability_slot` are taken as the decoder leaves them:
a string that fills the field without a `NUL` stays there, and the parse
succeeds.
-/
import Obicall.Manifest.Proofs.Parse

namespace Obicall

open Lib.Overlay Lib.Result

variable {F : Type} [DoubleArith F] [DoubleText F] {json : List UInt8}

/-- Every string of the manifest has its `NUL`. -/
structure ParsedManifest.Terminated (m : ParsedManifest F) : Prop where
  name : 0 ∈ m.name
  version : 0 ∈ m.version
  architecture : 0 ∈ m.architecture
  capabilitySlot : 0 ∈ m.capabilitySlot
  artifactPath : 0 ∈ m.artifactPath
  configJson : 0 ∈ m.configJson
  dependencies : ∀ d ∈ m.dependencies.val, 0 ∈ d

/-- What the member with the key leaves in an array of `cap` bytes has a
`NUL`, if it is a string. -/
def KeyLeavesNul (json key : List UInt8) (cap : Nat) : Prop :=
  ∀ text, stringText json key = some text → LeavesNul cap text

theorem keyLeavesNul_of_some {key text : List UInt8} {cap : Nat}
    (h : stringText json key = some text) :
    KeyLeavesNul json key cap ↔ LeavesNul cap text := by
  unfold KeyLeavesNul
  simp only [h, Option.some.injEq, forall_eq']

theorem keyLeavesNul_of_none {key : List UInt8} {cap : Nat}
    (h : stringText json key = none) : KeyLeavesNul json key cap := by
  intro _ hsome
  rw [h] at hsome
  cases hsome

theorem zero_mem_zeroed {n : Nat} (hn : n ≤ 2 ^ 31) (hpos : 0 < n)
    (json key : List UInt8) :
    0 ∈ (findFieldStr json key (zeroBytes n)).1 ↔ KeyLeavesNul json key n :=
  zero_mem_findFieldStr hn hpos (get_replicate 0 _)

theorem zero_mem_configJson {v : Vector UInt8 2048}
    (h : parseConfig json = .ok v) : 0 ∈ v := by
  unfold parseConfig at h
  split at h
  next =>
    cases Except.ok.inj h
    refine (mem_place_iff (by decide) (get_replicate 0 _)).mpr (.inl ?_)
    decide
  next text _ =>
    split at h
    next => cases h
    next hfits =>
      cases Except.ok.inj h
      exact marker_mem_place (Nat.not_le.mp hfits) _

theorem zero_mem_dependencyEntry {array : List UInt8} {i : Nat}
    {name : ManifestName} (h : dependencyEntry array i = .ok name) :
    0 ∈ name := by
  unfold dependencyEntry at h
  split at h
  next => cases h
  next elem _ =>
    split at h
    next =>
      simp only at h
      split at h
      next hok => exact Except.ok.inj h ▸ zero_mem_decodeInto (by decide) hok
      next => cases h
    next => cases h

theorem zero_mem_dependencies
    {ds : { ds : List ManifestName // ds.length ≤ maxDependencies }}
    (h : parseDependencies json = .ok ds) : ∀ d ∈ ds.val, 0 ∈ d := by
  unfold parseDependencies at h
  split at h
  next =>
    cases Except.ok.inj h
    exact List.forall_mem_nil _
  next array _ =>
    have hread := mapM_eq_ok.mp (readDependencies_eq_ok.mp h).2
    intro d hd
    obtain ⟨i, hi, rfl⟩ := List.mem_iff_getElem.mp hd
    exact zero_mem_dependencyEntry ((List.forall₂_iff_get.mp hread).2 i
      (by rw [hread.length_eq]; exact hi) hi)

/-- A parsed manifest is terminated where its three unchecked fields are. -/
theorem manifest_terminated_iff {m : ParsedManifest F}
    (h : obicallManifestParseJson json = .ok m) :
    m.Terminated
      ↔ KeyLeavesNul json (ascii "version") 32
        ∧ KeyLeavesNul json (ascii "architecture") 16
        ∧ KeyLeavesNul json (ascii "capability_slot") 64 := by
  have hread := (parse_eq_ok h).2
  have hversion := zero_mem_zeroed (n := 32) (by decide) (by decide) json
    (ascii "version")
  have harchitecture := zero_mem_zeroed (n := 16) (by decide) (by decide) json
    (ascii "architecture")
  have hslot := zero_mem_zeroed (n := 64) (by decide) (by decide) json
    (ascii "capability_slot")
  rw [← hread.version] at hversion
  rw [← hread.architecture] at harchitecture
  rw [← hread.capabilitySlot] at hslot
  constructor
  · intro hm
    exact ⟨hversion.mp hm.version, harchitecture.mp hm.architecture,
      hslot.mp hm.capabilitySlot⟩
  · rintro ⟨hv, ha, hc⟩
    exact {
      name := zero_mem_of_found (by decide) hread.name
      version := hversion.mpr hv
      architecture := harchitecture.mpr ha
      capabilitySlot := hslot.mpr hc
      artifactPath := zero_mem_of_found (by decide) hread.artifactPath
      configJson := zero_mem_configJson hread.configJson
      dependencies := zero_mem_dependencies hread.dependencies }

end Obicall
