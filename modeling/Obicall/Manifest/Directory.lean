/-
`manifest.c`: the manifests of a directory, as the CLI loads them before it
resolves dependencies.

`readdir` gives the entries in an order of its own; `DirEntry` is one of
them with what can be read under its name. The loop passes over the names
that are no manifest's and those whose path does not fit, and ends at the
first file that does not load.
-/
import Mathlib.Data.List.Basic
import Obicall.Core.Manifest
import Obicall.Manifest.Parse

namespace Obicall

variable {F : Type}

/-- An entry of the directory: its name, and the file's content when it
opens. -/
structure DirEntry where
  name : List UInt8
  content : Option (List UInt8)

/-- `obicall_manifest_set_t`, with all fields of its items. -/
abbrev LoadedSet (F : Type) : Type :=
  { items : List (ParsedManifest F) // items.length ≤ maxManifests }

/-- What the resolver reads of a set. -/
def LoadedSet.toSet (set : LoadedSet F) : ManifestSet F :=
  ⟨set.val.map ParsedManifest.toManifest, by
    rw [List.length_map]
    exact set.property⟩

def LoadedSet.empty : LoadedSet F := ⟨[], Nat.zero_le _⟩

/-- The buffer of `load_one_manifest_file`. -/
def manifestFileCap : Nat := 8192

/-- `full[OBICALL_MAX_PATH_LEN + 256]` of the loop. -/
def manifestPathCap : Nat := 516

/-- The entry's path. -/
def DirEntry.path (dirPath : List UInt8) (e : DirEntry) : List UInt8 :=
  dirPath ++ ascii "/" ++ e.name

/-- The loop does not pass over the entry. -/
def DirEntry.isManifest (dirPath : List UInt8) (e : DirEntry) : Bool :=
  (ascii ".manifest.json").isSuffixOf e.name
    && (e.path dirPath).length < manifestPathCap

variable [DoubleArith F] [DoubleText F]

/-- `load_one_manifest_file`. -/
def loadOneManifestFile (path : List UInt8) (content : Option (List UInt8))
    (set : LoadedSet F) : Except ParseIssue (LoadedSet F) :=
  match content with
  | none => .error ⟨.errIo, none⟩
  | some bytes =>
      if manifestFileCap < bytes.length then
        .error ⟨.errBufferTooSmall,
          some ("manifest file too large: %s", path)⟩
      else if h : set.val.length < maxManifests then
        match obicallManifestParseJson bytes with
        | .ok m =>
            .ok ⟨set.val ++ [m], by
              rw [List.length_append]
              exact h⟩
        | .error issue => .error issue
      else .error (.plain .errOutOfRange "too many manifests in directory%s")

/-- `obicall_manifest_load_dir`; `none` when the directory does not
open. -/
def obicallManifestLoadDir (dirPath : List UInt8)
    (listing : Option (List DirEntry)) : Except ParseIssue (LoadedSet F) :=
  match listing with
  | none => .ok .empty
  | some entries =>
      entries.foldlM (fun set e =>
        if e.isManifest dirPath then
          loadOneManifestFile (e.path dirPath) e.content set
        else .ok set) .empty

end Obicall
