/-
`manifest.c`: provider manifests, the resolver of their dependencies, and
the ranking of the alternatives for a capability slot.

The resolver closes the requested names under the dependencies and puts
what it finds in an order in which each stands behind its dependencies.
Both loops are library algorithms (`Lib.Worklist`, `Lib.Kahn`) on the
places of the set; what is the resolver's own is that it follows names, a
name being the first manifest that carries it, and gives up at the first
one that no manifest carries.

Of a manifest's fields, these are the ones that the functions here read.
-/
import Mathlib.Data.List.DropRight
import Mathlib.Data.List.FinRange
import Obicall.Core.Types
import Obicall.Lib.Kahn
import Obicall.Lib.Worklist

namespace Obicall

open Lib

variable {F : Type}

-- ================================================================== data

/-- `OBICALL_MAX_DEPENDENCIES`. -/
abbrev maxDependencies : Nat := 8

/-- `OBICALL_MAX_MANIFESTS`. -/
abbrev maxManifests : Nat := 64

/-- `OBICALL_MAX_NAME_LEN`. -/
abbrev ManifestName : Type := Vector UInt8 64

/-- `obicall_manifest_t`; `dependencies` are the first `dependency_count`
entries of the array. -/
structure Manifest (F : Type) where
  name : ManifestName
  abiVersionMajor : UInt32
  abiVersionMinor : UInt32
  architecture : Vector UInt8 16
  capabilitySlot : ManifestName
  preferenceScore : F
  dependencies : { ds : List ManifestName // ds.length ≤ maxDependencies }

/-- `obicall_manifest_set_t`, the first `count` items. -/
abbrev ManifestSet (F : Type) : Type :=
  { items : List (Manifest F) // items.length ≤ maxManifests }

namespace ManifestSet

variable (set : ManifestSet F)

/-- The places of the items. -/
abbrev Place : Type := Fin set.val.length

def item (i : set.Place) : Manifest F := set.val.get i

/-- `find_by_name`. -/
def findByName (name : List UInt8) : Option set.Place :=
  (List.finRange set.val.length).find? fun i =>
    cString (set.item i).name == name

-- =============================================================== closure

/-- An issue as `set_issue` is given it: the format and its argument. -/
structure ResolveIssue where
  status : Status
  format : String
  arg : List UInt8
  deriving DecidableEq

/-- Look a name up and see that the manifest is on the stack. -/
def need (format : String) (s : Worklist.Work set.Place) (name : List UInt8) :
    Except ResolveIssue (Worklist.Work set.Place) :=
  match set.findByName name with
  | none => .error ⟨.errDependencyMissing, format, name⟩
  | some idx => .ok (s.push idx)

/-- The names a manifest depends on. -/
def dependencyNames (i : set.Place) : List (List UInt8) :=
  (set.item i).dependencies.val.map cString

/-- The loop on the stack, for at most `fuel` manifests. -/
def close : Nat → Worklist.Work set.Place →
    Except ResolveIssue (Worklist.Work set.Place)
  | 0, s => .ok s
  | fuel + 1, s =>
      match s.stack with
      | [] => .ok s
      | idx :: stack =>
          match (set.dependencyNames idx).foldlM
              (set.need "missing mandatory dependency: %s")
              { s with stack := stack } with
          | .error issue => .error issue
          | .ok s => close fuel s

-- =================================================================== sort

/-- The item at `j` lists the name of the item at `i`. -/
def waits (j i : set.Place) : Bool :=
  (set.dependencyNames j).any (· == cString (set.item i).name)

/-- `indegree` before the first round. -/
def indegree (needed : set.Place → Bool) (i : set.Place) : Nat :=
  if needed i then (set.item i).dependencies.val.length else 0

/-- The loop on the queue. -/
def sort (needed : set.Place → Bool) : Kahn.State set.Place :=
  let places := List.finRange set.val.length
  let indegree := set.indegree needed
  Kahn.State.sort needed set.waits places set.val.length
    { indegree := indegree
      queue := places.filter fun i => needed i && indegree i == 0
      order := [] }

/-- `cyc`: the names left over, as far as the 256 bytes go. -/
def cyc (needed : set.Place → Bool) (indegree : set.Place → Nat) :
    List UInt8 :=
  (((List.finRange set.val.length).filter fun i =>
      needed i && 0 < indegree i).flatMap fun i =>
    cString (set.item i).name ++ " ".toUTF8.toList).take 255

/-- `obicall_manifest_resolve`: `order[0..count)`, or the issue that the
caller is told of, with `count` left at 0. -/
def obicallManifestResolve (requestedNames : List (List UInt8)) :
    Except ResolveIssue (List set.Place) :=
  match requestedNames.foldlM
      (set.need "requested provider not found: %s") .empty with
  | .error issue => .error issue
  | .ok s =>
      match set.close set.val.length s with
      | .error issue => .error issue
      | .ok s =>
          let sorted := set.sort s.marked
          if sorted.order.length ≠ s.count then
            .error ⟨.errDependencyCycle, "dependency cycle among: %s",
              set.cyc s.marked sorted.indegree⟩
          else .ok sorted.order

end ManifestSet

-- ================================================================ ranking

open DoubleArith

variable [DoubleArith F]

/-- `OBICALL_ABI_VERSION_MAJOR` and `OBICALL_ABI_VERSION_MINOR`. -/
def abiVersionMajor : UInt32 := 1
def abiVersionMinor : UInt32 := 0

/-- What follows `architecture` and `capability_slot` of an item in memory.
The loader may leave these two without a `NUL`, and `strcmp` then runs on
into it. -/
structure ItemTail where
  architecture : List UInt8
  capabilitySlot : List UInt8

/-- A candidate for a slot on a host. -/
def ManifestSet.eligible (set : ManifestSet F) (tail : set.Place → ItemTail)
    (capabilitySlot : List UInt8) (hostArchitecture : Option (List UInt8))
    (i : set.Place) : Bool :=
  let m := set.item i
  let slot := textIn m.capabilitySlot (tail i).capabilitySlot
  let architecture := textIn m.architecture (tail i).architecture
  slot != [] && slot == capabilitySlot
    && (architecture == []
      || match hostArchitecture with
        | none => true
        | some host => architecture == host)
    && m.abiVersionMajor == abiVersionMajor
    && m.abiVersionMinor ≤ abiVersionMinor
    && (set.obicallManifestResolve [cString m.name]).isOk

/-- `should_shift`: the item at `cur` ranks behind the one at `key`. -/
def ManifestSet.shouldShift (set : ManifestSet F) (key cur : set.Place) :
    Bool :=
  lt (set.item key).preferenceScore (set.item cur).preferenceScore
    || (eq (set.item cur).preferenceScore (set.item key).preferenceScore
      && cString (set.item key).name < cString (set.item cur).name)

/-- One turn of the insertion sort, from the right. -/
def ManifestSet.insert (set : ManifestSet F) (sorted : List set.Place)
    (key : set.Place) : List set.Place :=
  sorted.rdropWhile (set.shouldShift key)
    ++ key :: sorted.rtakeWhile (set.shouldShift key)

/-- `obicall_manifest_rank_alternatives`. -/
def ManifestSet.obicallManifestRankAlternatives (set : ManifestSet F)
    (tail : set.Place → ItemTail) (capabilitySlot : List UInt8)
    (hostArchitecture : Option (List UInt8)) (outCap : Nat) :
    List set.Place :=
  let candidates := (List.finRange set.val.length).filter
    (set.eligible tail capabilitySlot hostArchitecture)
  (candidates.foldl set.insert []).take outCap

end Obicall
