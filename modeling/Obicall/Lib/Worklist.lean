/-
A worklist closes a set of vertices under "has as a neighbour": it marks
the roots, then takes a marked vertex at a time from the stack and marks
its neighbours. What is marked goes on the stack once.

# What a search keeps

`Closing` says it with the vertices already taken (`done`) beside the
state: `done` and the stack together are the marked vertices, each once;
all of them are reachable; and the neighbours of those taken are marked.
With the stack empty the marked vertices are exactly the reachable ones
(`Closing.marked_iff`). Over a finite type no more vertices are taken
than there are (`Closing.length_le`), which is what a bound on the number
of rounds rests on.
-/
import Mathlib.Data.Fintype.Card
import Mathlib.Logic.Function.Basic
import Mathlib.Logic.Relation

namespace Lib.Worklist

open Relation

variable {V : Type}

/-- The marks, how many there are, and the vertices still to be taken. -/
structure Work (V : Type) where
  marked : V → Bool
  count : Nat
  stack : List V

def Work.empty : Work V := ⟨fun _ => false, 0, []⟩

/-- Mark a vertex that is not marked yet. -/
def Work.push [DecidableEq V] (s : Work V) (v : V) : Work V :=
  if s.marked v then s
  else
    { marked := Function.update s.marked v true
      count := s.count + 1
      stack := v :: s.stack }

variable (next : V → List V) (root : V → Prop)

/-- A path leads from a root to the vertex. -/
def Reachable (v : V) : Prop :=
  ∃ r, root r ∧ ReflTransGen (fun v w => w ∈ next v) r v

/-- What marking keeps. -/
structure Marking (done : List V) (s : Work V) : Prop where
  nodup : (done ++ s.stack).Nodup
  mem : ∀ v, v ∈ done ++ s.stack ↔ s.marked v = true
  count : s.count = (done ++ s.stack).length
  reachable : ∀ v, s.marked v = true → Reachable next root v

/-- What a round of the search keeps. -/
structure Closing (done : List V) (s : Work V) : Prop
    extends Marking next root done s where
  closed : ∀ v ∈ done, ∀ w ∈ next v, s.marked w = true

variable {next root} {done : List V} {s : Work V}

theorem Reachable.tail {v w : V} (h : Reachable next root v)
    (hw : w ∈ next v) : Reachable next root w := by
  obtain ⟨r, hr, hpath⟩ := h
  exact ⟨r, hr, hpath.tail hw⟩

/-- No more vertices are taken than there are. -/
theorem Closing.length_le [Fintype V] (h : Closing next root done s) :
    (done ++ s.stack).length ≤ Fintype.card V := h.nodup.length_le_card

/-- There is room for a vertex that is not marked yet. -/
theorem Marking.length_lt [Fintype V] (h : Marking next root done s) {v : V}
    (hv : s.marked v = false) :
    (done ++ s.stack).length < Fintype.card V := by
  have hfresh : v ∉ done ++ s.stack := fun hmem => by
    rw [h.mem, hv] at hmem
    cases hmem
  exact (List.nodup_cons.mpr ⟨hfresh, h.nodup⟩).length_le_card

/-- With nothing left to take, what is marked is what is reachable. -/
theorem Closing.marked_iff (h : Closing next root done s)
    (hstack : s.stack = []) (hroots : ∀ v, root v → s.marked v = true)
    (v : V) : s.marked v = true ↔ Reachable next root v := by
  refine ⟨h.reachable v, ?_⟩
  rintro ⟨r, hr, hpath⟩
  induction hpath with
  | refl => exact hroots r hr
  | tail _ hw ih =>
      refine h.closed _ ?_ _ hw
      rw [← h.mem, hstack, List.append_nil] at ih
      exact ih

-- ================================================================ marking

theorem marking_empty : Marking next root [] (.empty : Work V) where
  nodup := List.nodup_nil
  mem v := by simp [Work.empty]
  count := rfl
  reachable v hv := by cases hv

variable [DecidableEq V]

theorem marked_push (v w : V) :
    (s.push v).marked w = true ↔ s.marked w = true ∨ w = v := by
  rw [Work.push]
  split
  next hv =>
    refine (or_iff_left_of_imp ?_).symm
    rintro rfl
    exact hv
  next => by_cases h : w = v <;> simp [h]

theorem Marking.push (h : Marking next root done s) {v : V}
    (hv : Reachable next root v) : Marking next root done (s.push v) := by
  rw [Work.push]
  split
  · exact h
  next hnew =>
    have hfresh : v ∉ done ++ s.stack := fun hmem => hnew ((h.mem v).mp hmem)
    have hperm : (done ++ v :: s.stack).Perm (v :: (done ++ s.stack)) :=
      List.perm_middle
    constructor
    · exact hperm.nodup_iff.mpr (List.nodup_cons.mpr ⟨hfresh, h.nodup⟩)
    · intro w
      rw [hperm.mem_iff, List.mem_cons, h.mem]
      by_cases hw : w = v <;> simp [hw]
    · rw [hperm.length_eq, List.length_cons, h.count]
    · intro w hw
      by_cases hwv : w = v
      · exact hwv ▸ hv
      · refine h.reachable w ?_
        simpa [hwv] using hw

theorem marked_foldl_push (vs : List V) (w : V) :
    (vs.foldl Work.push s).marked w = true ↔ s.marked w = true ∨ w ∈ vs := by
  induction vs generalizing s with
  | nil => simp
  | cons v vs ih => rw [List.foldl_cons, ih, marked_push, List.mem_cons, or_assoc]

theorem Marking.foldl_push (h : Marking next root done s) {vs : List V}
    (hvs : ∀ v ∈ vs, Reachable next root v) :
    Marking next root done (vs.foldl Work.push s) := by
  induction vs generalizing s with
  | nil => exact h
  | cons v vs ih =>
      obtain ⟨hv, hvs⟩ := List.forall_mem_cons.mp hvs
      exact ih (h.push hv) hvs

-- ================================================================= rounds

/-- The search begins with the roots. -/
theorem closing_roots {roots : List V} (hroot : ∀ v, root v ↔ v ∈ roots) :
    Closing next root [] (roots.foldl Work.push .empty) where
  toMarking := marking_empty.foldl_push fun v hv =>
    ⟨v, (hroot v).mpr hv, .refl⟩
  closed v hv := by cases hv

/-- One round: take a vertex and mark its neighbours. -/
theorem Closing.round (h : Closing next root done s) {v : V} {stack : List V}
    (hstack : s.stack = v :: stack) :
    Closing next root (done ++ [v])
      ((next v).foldl Work.push { s with stack := stack }) := by
  have happ : done ++ s.stack = (done ++ [v]) ++ stack := by
    rw [hstack, List.append_cons]
  have hv : s.marked v = true := by
    rw [← h.mem, hstack]
    exact List.mem_append_right _ List.mem_cons_self
  have hmarking : Marking next root (done ++ [v]) { s with stack := stack } :=
    { nodup := happ ▸ h.nodup
      mem := happ ▸ h.mem
      count := happ ▸ h.count
      reachable := h.reachable }
  refine ⟨hmarking.foldl_push fun w hw => (h.reachable v hv).tail hw, ?_⟩
  intro u hu w hw
  rw [marked_foldl_push]
  rcases List.mem_append.mp hu with hu | hu
  · exact .inl (h.closed u hu w hw)
  · obtain rfl := List.mem_singleton.mp hu
    exact .inr hw

end Lib.Worklist
