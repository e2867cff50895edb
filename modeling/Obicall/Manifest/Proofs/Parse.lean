/-
The parse of a manifest, taken apart.

`parse_eq_ok` says where each field of a parsed manifest comes from, and
`parse_of_accepted` that the parse succeeds where every field that can be
refused is accepted: `FieldsAccepted` for those in front of `dependencies`,
and `parseDependencies` for the last one. What is proved about a parsed
manifest is read off these two.
-/
import Obicall.Json.Proofs.Fields
import Obicall.Manifest.Parse

namespace Obicall

open Lib.Json Lib.Overlay Lib.Result

variable {F : Type} [DoubleArith F] [DoubleText F] {json : List UInt8}

-- ============================================================ what is refused

/-- What is asked of the fields in front of `dependencies`: the schema
version is the supported one, the name and the path are strings that fit, a
language that can be read is a known one, a digest is 64 hexadecimal
digits, and the configuration fits. -/
structure FieldsAccepted (F : Type) [DoubleText F] (json : List UInt8) :
    Prop where
  schemaVersion : ∃ num : F, findFieldNum json (ascii "schema_version") = some num
    ∧ DoubleText.toUInt32 num = manifestSchemaVersion
  name : (findFieldStr json (ascii "name") (zeroBytes 64)).2 = true
  language : (findFieldStr json (ascii "language") (zeroBytes 16)).2 = true →
    cString (findFieldStr json (ascii "language") (zeroBytes 16)).1
      ∈ [ascii "c", ascii "python"]
  artifactPath :
    (findFieldStr json (ascii "artifact_path") (zeroBytes 260)).2 = true
  artifactSha256 : ∀ text,
    stringText json (ascii "artifact_sha256") = some text →
      (jsonDecodeString text 65).result = some 64
        ∧ (hexDecode ((jsonDecodeString text 65).written.take 64) 32).isSome
  config : ∀ text, plainText json (ascii "config") = some text →
    text.length < 2048

section Stages

omit [DoubleArith F]

theorem parseSchemaVersion_ok :
    (∃ v, parseSchemaVersion F json = .ok v)
      ↔ ∃ num : F, findFieldNum json (ascii "schema_version") = some num
        ∧ DoubleText.toUInt32 num = manifestSchemaVersion := by
  unfold parseSchemaVersion
  cases hnum : (findFieldNum json (ascii "schema_version") : Option F) with
  | none =>
      exact ⟨fun ⟨_, h⟩ => (by cases h), fun ⟨_, h, _⟩ => (by cases h)⟩
  | some num =>
      simp only
      split
      next hne =>
        refine ⟨fun ⟨_, h⟩ => (by cases h), fun ⟨_, h, heq⟩ => ?_⟩
        cases h
        exact absurd heq hne
      next heq => exact ⟨fun _ => ⟨num, rfl, not_not.mp heq⟩, fun _ => ⟨_, rfl⟩⟩

omit [DoubleText F]

theorem parseName_eq_ok {name : ManifestName} :
    parseName json = .ok name
      ↔ findFieldStr json (ascii "name") (zeroBytes 64) = (name, true) := by
  unfold parseName
  generalize findFieldStr json (ascii "name") (zeroBytes 64) = found
  obtain ⟨v, ok⟩ := found
  cases ok <;> simp

theorem parseArtifactPath_eq_ok {path : Vector UInt8 260} :
    parseArtifactPath json = .ok path
      ↔ findFieldStr json (ascii "artifact_path") (zeroBytes 260)
        = (path, true) := by
  unfold parseArtifactPath
  generalize findFieldStr json (ascii "artifact_path") (zeroBytes 260) = found
  obtain ⟨v, ok⟩ := found
  cases ok <;> simp

theorem parseLanguage_ok :
    (∃ v, parseLanguage json = .ok v)
      ↔ ((findFieldStr json (ascii "language") (zeroBytes 16)).2 = true →
        cString (findFieldStr json (ascii "language") (zeroBytes 16)).1
          ∈ [ascii "c", ascii "python"]) := by
  unfold parseLanguage
  generalize findFieldStr json (ascii "language") (zeroBytes 16) = found
  obtain ⟨v, ok⟩ := found
  cases ok with
  | false => exact ⟨fun _ h => (by cases h), fun _ => ⟨_, rfl⟩⟩
  | true =>
      simp only [if_true, forall_const, List.mem_cons, List.not_mem_nil,
        or_false]
      split
      next hc => exact ⟨fun _ => .inl hc, fun _ => ⟨_, rfl⟩⟩
      next hc =>
        split
        next hpy => exact ⟨fun _ => .inr hpy, fun _ => ⟨_, rfl⟩⟩
        next hpy =>
          exact ⟨fun ⟨_, h⟩ => (by cases h), fun h => (h.elim hc hpy).elim⟩

theorem parseArtifactSha256_ok :
    (∃ v, parseArtifactSha256 json = .ok v)
      ↔ ∀ text, stringText json (ascii "artifact_sha256") = some text →
        (jsonDecodeString text 65).result = some 64
          ∧ (hexDecode ((jsonDecodeString text 65).written.take 64)
            32).isSome := by
  unfold parseArtifactSha256
  cases htext : stringText json (ascii "artifact_sha256") with
  | none => exact ⟨fun _ _ h => (by cases h), fun _ => ⟨_, rfl⟩⟩
  | some text =>
      simp only [Option.some.injEq, forall_eq']
      split
      next hnone =>
        refine ⟨fun ⟨_, h⟩ => (by cases h), fun ⟨hlen, hhex⟩ => ?_⟩
        rw [if_pos hlen] at hnone
        rw [hnone] at hhex
        cases hhex
      next digest hsome =>
        refine ⟨fun _ => ?_, fun _ => ⟨_, rfl⟩⟩
        split at hsome
        next hlen => exact ⟨hlen, Option.isSome_of_mem hsome⟩
        next => cases hsome

theorem parseConfig_ok :
    (∃ v, parseConfig json = .ok v)
      ↔ ∀ text, plainText json (ascii "config") = some text →
        text.length < 2048 := by
  unfold parseConfig
  cases htext : plainText json (ascii "config") with
  | none => exact ⟨fun _ _ h => (by cases h), fun _ => ⟨_, rfl⟩⟩
  | some text =>
      simp only [Option.some.injEq, forall_eq']
      split
      next hle =>
        exact ⟨fun ⟨_, h⟩ => (by cases h), fun h => absurd hle (Nat.not_le.mpr h)⟩
      next hlt => exact ⟨fun _ => Nat.not_le.mp hlt, fun _ => ⟨_, rfl⟩⟩

theorem readDependencies_eq_ok {array : List UInt8}
    {ds : { ds : List ManifestName // ds.length ≤ maxDependencies }} :
    readDependencies array = .ok ds
      ↔ (jsonArrayCount array).getD 0 ≤ maxDependencies
        ∧ (List.range ((jsonArrayCount array).getD 0)).mapM
            (dependencyEntry array) = .ok ds.val := by
  unfold readDependencies
  simp only
  split
  next hmany =>
    exact ⟨fun h => (by cases h), fun h => absurd hmany (Nat.not_lt.mpr h.1)⟩
  next hfew =>
    split
    next issue herr =>
      refine ⟨fun h => (by cases h), fun h => ?_⟩
      rw [herr] at h
      cases h.2
    next read hread =>
      refine ⟨fun h => ?_, fun h => ?_⟩
      · cases Except.ok.inj h
        exact ⟨Nat.not_lt.mp hfew, hread⟩
      · refine congrArg Except.ok (Subtype.ext ?_)
        exact Except.ok.inj (hread.symm.trans h.2)

end Stages

-- ================================================================= the parse

/-- Where the fields of a parsed manifest come from, as far as they are
asked about. -/
structure ReadFrom (json : List UInt8) (m : ParsedManifest F) : Prop where
  name : findFieldStr json (ascii "name") (zeroBytes 64) = (m.name, true)
  version : m.version
    = (findFieldStr json (ascii "version") (zeroBytes 32)).1
  architecture : m.architecture
    = (findFieldStr json (ascii "architecture") (zeroBytes 16)).1
  capabilitySlot : m.capabilitySlot
    = (findFieldStr json (ascii "capability_slot") (zeroBytes 64)).1
  artifactPath : findFieldStr json (ascii "artifact_path") (zeroBytes 260)
    = (m.artifactPath, true)
  configJson : parseConfig json = .ok m.configJson
  dependencies : parseDependencies json = .ok m.dependencies

/-- A parse that succeeds has accepted every field. -/
theorem parse_eq_ok {m : ParsedManifest F}
    (h : obicallManifestParseJson json = .ok m) :
    FieldsAccepted F json ∧ ReadFrom json m := by
  unfold obicallManifestParseJson at h
  obtain ⟨schemaVersion, hschema, h⟩ := bind_eq_ok.mp h
  obtain ⟨name, hname, h⟩ := bind_eq_ok.mp h
  obtain ⟨language, hlanguage, h⟩ := bind_eq_ok.mp h
  obtain ⟨artifactPath, hpath, h⟩ := bind_eq_ok.mp h
  obtain ⟨artifactSha256, hdigest, h⟩ := bind_eq_ok.mp h
  obtain ⟨configJson, hconfig, h⟩ := bind_eq_ok.mp h
  obtain ⟨dependencies, hdeps, h⟩ := bind_eq_ok.mp h
  cases Except.ok.inj h
  rw [parseName_eq_ok] at hname
  rw [parseArtifactPath_eq_ok] at hpath
  refine ⟨?_, hname, rfl, rfl, rfl, hpath, hconfig, hdeps⟩
  exact {
    schemaVersion := parseSchemaVersion_ok.mp ⟨_, hschema⟩
    name := congrArg Prod.snd hname
    language := parseLanguage_ok.mp ⟨_, hlanguage⟩
    artifactPath := congrArg Prod.snd hpath
    artifactSha256 := parseArtifactSha256_ok.mp ⟨_, hdigest⟩
    config := parseConfig_ok.mp ⟨_, hconfig⟩ }

/-- Where every field is accepted the parse succeeds. -/
theorem parse_of_accepted (haccepted : FieldsAccepted F json)
    {ds : { ds : List ManifestName // ds.length ≤ maxDependencies }}
    (hdeps : parseDependencies json = .ok ds) :
    ∃ m : ParsedManifest F, obicallManifestParseJson json = .ok m := by
  obtain ⟨schemaVersion, hschema⟩ := parseSchemaVersion_ok.mpr
    haccepted.schemaVersion
  have hname : parseName json = .ok _ :=
    parseName_eq_ok.mpr (Prod.ext rfl haccepted.name)
  obtain ⟨language, hlanguage⟩ := parseLanguage_ok.mpr haccepted.language
  have hpath : parseArtifactPath json = .ok _ :=
    parseArtifactPath_eq_ok.mpr (Prod.ext rfl haccepted.artifactPath)
  obtain ⟨digest, hdigest⟩ := parseArtifactSha256_ok.mpr
    haccepted.artifactSha256
  obtain ⟨configJson, hconfig⟩ := parseConfig_ok.mpr haccepted.config
  unfold obicallManifestParseJson
  rw [hschema, hname, hlanguage, hpath, hdigest, hconfig, hdeps]
  exact ⟨_, rfl⟩

-- ========================================================== a short manifest

/-- The members that a manifest has to have. -/
def leadingMembers : List (Member Value) :=
  [plainMember "schema_version" (.number numberOne),
    plainMember "name" (.string (plainStr "app")),
    plainMember "artifact_path" (.string (plainStr "app"))]

/-- A manifest with these members and one more. -/
def leadingManifest (m : Member Value) : Document :=
  plainObject (leadingMembers ++ [m])

/-- It is accepted, where the one more is none of those that can be
refused. -/
theorem leadingManifest_accepted {m : Member Value}
    (hlen : (leadingManifest m).text.length < 2 ^ 31)
    (hlanguage : valueOf (leadingMembers ++ [m]) (ascii "language") = none)
    (hdigest : valueOf (leadingMembers ++ [m]) (ascii "artifact_sha256") = none)
    (hconfig : valueOf (leadingMembers ++ [m]) (ascii "config") = none) :
    FieldsAccepted Binary64 (leadingManifest m).text := by
  have hfind : ∀ key, findText (leadingManifest m).text key
      = (valueOf (leadingMembers ++ [m]) key).map textOf := findText_doc rfl hlen
  have hname : stringText (leadingManifest m).text (ascii "name")
      = some (ascii "app") := by rw [stringText, hfind]; rfl
  have hpath : stringText (leadingManifest m).text (ascii "artifact_path")
      = some (ascii "app") := by rw [stringText, hfind]; rfl
  have hversion : (findFieldNum (leadingManifest m).text
      (ascii "schema_version") : Option Binary64)
      = jsonParseNumber numberOne.bytes := by
    rw [findFieldNum, plainText, hfind]
    rfl
  have hone : (jsonParseNumber numberOne.bytes : Option Binary64)
      = some ⟨0x3FF0000000000000⟩ := by decide +kernel
  exact {
    schemaVersion := ⟨_, hversion.trans hone, by decide +kernel⟩
    name := by
      rw [findFieldStr_some hname, decodeInto_eq (by decide)]
      decide
    language := fun h => by
      rw [findFieldStr_none (by rw [stringText, hfind, hlanguage]; rfl)] at h
      cases h
    artifactPath := by
      rw [findFieldStr_some hpath, decodeInto_eq (by decide)]
      decide
    artifactSha256 := fun text h => by
      rw [stringText, hfind, hdigest] at h
      cases h
    config := fun text h => by
      rw [plainText, hfind, hconfig] at h
      cases h }

end Obicall
