/-
`obicall_manifest_parse_json`: a manifest read from the text of its file.

The parse goes through the fields in the order of the source and stops at
the first one that it refuses. Two kinds of fields are told apart there:
those whose reader's result is looked at, and those that are read and taken
as they come (`version`, `architecture`, `capability_slot` and all numbers
but `schema_version`). What a parse that fails has written to `*out` is
left out: no caller looks at it.
-/
import Obicall.Core.Fields
import Obicall.Core.Manifest
import Obicall.Lib.Result

namespace Obicall

open Lib.Overlay Lib.Result

variable {F : Type}

-- ================================================================== data

/-- `obicall_manifest_t` with the fields that the resolver does not read. -/
structure ParsedManifest (F : Type) extends Manifest F where
  schemaVersion : UInt32
  version : Vector UInt8 32
  language : UInt32
  capabilityFlags : UInt64
  artifactPath : Vector UInt8 260
  artifactSha256 : DigestBytes
  hasArtifactSha256 : UInt32
  configSchemaVersion : UInt32
  configJson : Vector UInt8 2048

/-- What a failed parse returns, and what it gives `set_issue`: the format
and its argument. -/
structure ParseIssue where
  status : Status
  issue : Option (String × List UInt8)
  deriving DecidableEq

/-- A failure with a message that has no argument. -/
def ParseIssue.plain (status : Status) (format : String) : ParseIssue :=
  ⟨status, some (format, [])⟩

-- ============================================================ single fields

/-- `OBICALL_MANIFEST_SCHEMA_VERSION`. -/
def manifestSchemaVersion : UInt32 := 1

/-- `obicall_provider_language_t`. -/
def langUnspecified : UInt32 := 0
def langC : UInt32 := 1
def langPython : UInt32 := 2

def parseSchemaVersion (F : Type) [DoubleText F] (json : List UInt8) :
    Except ParseIssue UInt32 :=
  match (findFieldNum json (ascii "schema_version") : Option F) with
  | none =>
      .error (.plain .errInvalidArgument "manifest missing schema_version%s")
  | some num =>
      if DoubleText.toUInt32 num ≠ manifestSchemaVersion then
        .error (.plain .errUnsupported "unsupported manifest schema_version%s")
      else .ok (DoubleText.toUInt32 num)

def parseName (json : List UInt8) : Except ParseIssue ManifestName :=
  let name := findFieldStr json (ascii "name") (zeroBytes 64)
  if name.2 then .ok name.1
  else .error (.plain .errInvalidArgument "manifest missing name%s")

def parseLanguage (json : List UInt8) : Except ParseIssue UInt32 :=
  let lang := findFieldStr json (ascii "language") (zeroBytes 16)
  if lang.2 then
    if cString lang.1 = ascii "c" then .ok langC
    else if cString lang.1 = ascii "python" then .ok langPython
    else .error ⟨.errUnsupported, some ("unknown language '%s'", cString lang.1)⟩
  else .ok langUnspecified

def parseArtifactPath (json : List UInt8) :
    Except ParseIssue (Vector UInt8 260) :=
  let path := findFieldStr json (ascii "artifact_path") (zeroBytes 260)
  if path.2 then .ok path.1
  else .error (.plain .errInvalidArgument "manifest missing artifact_path%s")

/-- The field as a `uint32_t`, 0 where it is missing. -/
def findUInt32 (F : Type) [DoubleText F] (json key : List UInt8) : UInt32 :=
  ((findFieldNum json key : Option F).map DoubleText.toUInt32).getD 0

-- ================================================================ the digest

/-- A hexadecimal digit, as `hex_decode` takes it. -/
def hexValue (c : UInt8) : Option UInt8 :=
  if 0x30 ≤ c ∧ c ≤ 0x39 then some (c - 0x30)
  else if 0x61 ≤ c ∧ c ≤ 0x66 then some (c - 0x61 + 10)
  else if 0x41 ≤ c ∧ c ≤ 0x46 then some (c - 0x41 + 10)
  else none

/-- `hex_decode`. -/
def hexDecode (hex : List UInt8) (outCap : Nat) : Option (List UInt8) :=
  if hex.length ≠ outCap * 2 then none
  else (List.range outCap).mapM fun i => do
    let hi ← hexValue (hex.getD (i * 2) 0)
    let lo ← hexValue (hex.getD (i * 2 + 1) 0)
    pure (hi <<< 4 ||| lo)

/-- `artifact_sha256` and `has_artifact_sha256`. -/
def parseArtifactSha256 (json : List UInt8) :
    Except ParseIssue (DigestBytes × UInt32) :=
  match stringText json (ascii "artifact_sha256") with
  | none => .ok (zeroBytes 32, 0)
  | some text =>
      let hex := jsonDecodeString text 65
      match if hex.result = some 64 then hexDecode (hex.written.take 64) 32
        else none with
      | none =>
          .error (.plain .errInvalidArgument "malformed artifact_sha256%s")
      | some digest => .ok (place 0 digest (zeroBytes 32), 1)

-- ==================================================================== lists

/-- `capability_flag_from_name`. -/
def capabilityFlagFromName (name : List UInt8) : UInt64 :=
  if name = ascii "position_sensor" then 1
  else if name = ascii "inertial_sensor" then 2
  else if name = ascii "range_sensor" then 4
  else if name = ascii "checkpoint" then 8
  else if name = ascii "fault_injection" then 16
  else 0

/-- The loop over `capability_flags`. An element that is no string, or too
long for `name`, is passed over. -/
def parseCapabilityFlags (json : List UInt8) : UInt64 :=
  match plainText json (ascii "capability_flags") with
  | none => 0
  | some array =>
      ((List.range ((jsonArrayCount array).getD 0)).filterMap fun i =>
          elementName array i 48).foldl
        (fun flags name => flags ||| capabilityFlagFromName name) 0

/-- `config_json`: the text of the object, or an empty one. -/
def parseConfig (json : List UInt8) : Except ParseIssue (Vector UInt8 2048) :=
  match plainText json (ascii "config") with
  | none => .ok (place 0 (ascii "\x7b\x7d") (zeroBytes 2048))
  | some text =>
      if 2048 ≤ text.length then
        .error (.plain .errBufferTooSmall "config object too large%s")
      else .ok (place 0 (text ++ [0]) (zeroBytes 2048))

/-- One turn of the loop over `dependencies`. -/
def dependencyEntry (array : List UInt8) (i : Nat) :
    Except ParseIssue ManifestName :=
  match elementText array i with
  | none =>
      .error (.plain .errInvalidArgument "dependency entry must be a string%s")
  | some elem =>
      if elem.isString then
        let entry := decodeInto elem.text (zeroBytes 64)
        if entry.2 then .ok entry.1 else .error ⟨.errBufferTooSmall, none⟩
      else
        .error (.plain .errInvalidArgument
          "dependency entry must be a string%s")

/-- `dependencies` and `dependency_count`, where the value is no string. A
value that is no array has the count -1, and the loop does not turn. -/
def readDependencies (array : List UInt8) :
    Except ParseIssue
      { ds : List ManifestName // ds.length ≤ maxDependencies } :=
  let n := (jsonArrayCount array).getD 0
  if hn : maxDependencies < n then
    .error (.plain .errOutOfRange "too many dependencies%s")
  else
    match hds : (List.range n).mapM (dependencyEntry array) with
    | .error issue => .error issue
    | .ok ds => .ok ⟨ds, by
        rw [length_of_mapM hds, List.length_range]
        exact Nat.not_lt.mp hn⟩

def parseDependencies (json : List UInt8) :
    Except ParseIssue
      { ds : List ManifestName // ds.length ≤ maxDependencies } :=
  match plainText json (ascii "dependencies") with
  | none => .ok ⟨[], Nat.zero_le _⟩
  | some array => readDependencies array

-- ================================================================= the parse

/-- `obicall_manifest_parse_json`. -/
def obicallManifestParseJson [DoubleArith F] [DoubleText F]
    (json : List UInt8) : Except ParseIssue (ParsedManifest F) := do
  let schemaVersion ← parseSchemaVersion F json
  let name ← parseName json
  let language ← parseLanguage json
  let artifactPath ← parseArtifactPath json
  let artifactSha256 ← parseArtifactSha256 json
  let configJson ← parseConfig json
  let dependencies ← parseDependencies json
  return {
    schemaVersion
    name
    version := (findFieldStr json (ascii "version") (zeroBytes 32)).1
    language
    abiVersionMajor := findUInt32 F json (ascii "abi_version_major")
    abiVersionMinor := findUInt32 F json (ascii "abi_version_minor")
    architecture := (findFieldStr json (ascii "architecture") (zeroBytes 16)).1
    capabilitySlot :=
      (findFieldStr json (ascii "capability_slot") (zeroBytes 64)).1
    preferenceScore :=
      (findFieldNum json (ascii "preference_score")).getD 0.0
    artifactPath
    artifactSha256 := artifactSha256.1
    hasArtifactSha256 := artifactSha256.2
    configSchemaVersion := findUInt32 F json (ascii "config_schema_version")
    capabilityFlags := parseCapabilityFlags json
    configJson
    dependencies }

end Obicall
