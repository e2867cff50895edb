/-
The loops of `obicall_manifest_resolve` on its arrays of
`OBICALL_MAX_MANIFESTS` entries.

The resolver writes `stack[stack_n++]`, `queue[qn++]` and
`order[order_n++]` without looking at the counter, and decrements
`indegree[j]` in place. Here a write behind the last entry and a decrement
below 0 end the run (`none`), and so does a loop that is not left after so
many turns. An array is the list of the entries written so far, so that
its counter is the list's length; the stack has its last entry first.
-/
import Obicall.Core.Manifest
import Obicall.Lib.Checked

namespace Obicall.ManifestSet

open Lib Lib.Checked

variable {F : Type} (set : ManifestSet F)

-- ================================================================== stack

/-- `needed[idx] = 1; needed_count++; stack[stack_n++] = idx;` for an
index that is not needed yet. -/
def mark (s : Worklist.Work set.Place) (idx : set.Place) :
    Option (Worklist.Work set.Place) :=
  if s.marked idx then some s
  else if s.stack.length < maxManifests then
    some
      { marked := Function.update s.marked idx true
        count := s.count + 1
        stack := idx :: s.stack }
  else none

/-- The loop over a list of names. -/
def markNames (format : String) :
    List (List UInt8) → Worklist.Work set.Place →
    Option (Except ResolveIssue (Worklist.Work set.Place))
  | [], s => some (.ok s)
  | name :: names, s =>
      match set.findByName name with
      | none => some (.error ⟨.errDependencyMissing, format, name⟩)
      | some idx =>
          match set.mark s idx with
          | none => none
          | some s => markNames format names s

/-- One turn of `while (stack_n > 0)`. -/
def closeTurn (s : Worklist.Work set.Place) :
    Option (Turn (Worklist.Work set.Place)
      (Except ResolveIssue (Worklist.Work set.Place))) :=
  match s.stack with
  | [] => some (.done (.ok s))
  | idx :: stack =>
      match set.markNames "missing mandatory dependency: %s"
          (set.dependencyNames idx) { s with stack := stack } with
      | none => none
      | some (.error issue) => some (.done (.error issue))
      | some (.ok s) => some (.next s)

-- ================================================================== queue

/-- The counts, `queue[0..qn)` with the entry to be taken next, and
`order[0..order_n)`. -/
structure Queued (V : Type) where
  indegree : V → Nat
  queue : List V
  qi : Nat
  order : List V

/-- `queue[qn++] = j`. -/
def enqueue (s : Queued set.Place) (j : set.Place) :
    Option (Queued set.Place) :=
  if s.queue.length < maxManifests then some { s with queue := s.queue ++ [j] }
  else none

/-- The loop over the entries of `j`, which is left at the first one that
is the name. -/
def releaseEntries (name : List UInt8) (j : set.Place) :
    List (List UInt8) → Queued set.Place → Option (Queued set.Place)
  | [], s => some s
  | d :: ds, s =>
      if d == name then
        if s.indegree j = 0 then none
        else
          let s : Queued set.Place :=
            { s with
              indegree := Function.update s.indegree j (s.indegree j - 1) }
          if s.indegree j == 0 then set.enqueue s j else some s
      else releaseEntries name j ds s

/-- The body of the loop over `j`. -/
def releaseAt (needed : set.Place → Bool) (i : set.Place)
    (s : Queued set.Place) (j : set.Place) : Option (Queued set.Place) :=
  if !needed j || s.indegree j == 0 then some s
  else
    set.releaseEntries (cString (set.item i).name) j (set.dependencyNames j) s

/-- One turn of `while (qi < qn)`; what is read afterwards are the counts
and the order. -/
def sortTurn (needed : set.Place → Bool) (s : Queued set.Place) :
    Option (Turn (Queued set.Place) ((set.Place → Nat) × List set.Place)) :=
  match s.queue[s.qi]? with
  | none => some (.done (s.indegree, s.order))
  | some i =>
      if s.order.length < maxManifests then
        match (List.finRange set.val.length).foldlM (set.releaseAt needed i)
            { s with qi := s.qi + 1, order := s.order ++ [i] } with
        | none => none
        | some s => some (.next s)
      else none

/-- The loop that queues what waits for nothing. -/
def enqueueFree (needed : set.Place → Bool) (s : Queued set.Place)
    (i : set.Place) : Option (Queued set.Place) :=
  if needed i && s.indegree i == 0 then set.enqueue s i else some s

/-- `obicall_manifest_resolve` on its arrays, each of its two `while`
loops for at most `turns` turns. -/
def resolveChecked (turns : Nat) (requestedNames : List (List UInt8)) :
    Option (Except ResolveIssue (List set.Place)) :=
  match set.markNames "requested provider not found: %s" requestedNames
      .empty with
  | none => none
  | some (.error issue) => some (.error issue)
  | some (.ok s) =>
      match loop set.closeTurn turns s with
      | none => none
      | some (.error issue) => some (.error issue)
      | some (.ok s) =>
          match (List.finRange set.val.length).foldlM (set.enqueueFree s.marked)
              ⟨set.indegree s.marked, [], 0, []⟩ with
          | none => none
          | some q =>
              match loop (set.sortTurn s.marked) turns q with
              | none => none
              | some (indegree, order) =>
                  if order.length ≠ s.count then
                    some (.error ⟨.errDependencyCycle,
                      "dependency cycle among: %s",
                      set.cyc s.marked indegree⟩)
                  else some (.ok order)

end Obicall.ManifestSet
