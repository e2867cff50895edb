/-
The resolver stays within its arrays, on any set of manifests and any
requested names: the checked run of `Manifest.Arrays` never fails, and
comes to what `obicall_manifest_resolve` answers (`resolveChecked_eq`).

# Why no counter passes the number of manifests

- The stack: what was taken from it and what is on it are the marked
  manifests, each once (`Lib.Worklist.Marking`), and only an unmarked one
  is put on it.
- The queue: its entries are distinct and wait for nothing (`Fresh`), and
  a manifest is put on it when its count falls to 0, so it is not among
  them. The order is the part of the queue already taken.
- A count is decremented only where it is not 0, once for each name
  released.

Each turn of the first loop takes a manifest more, and each turn of the
second puts one more in order, so both end within one turn more than
there are manifests.
-/
import Obicall.Manifest.Arrays

namespace Obicall.ManifestSet

open Lib Lib.Checked Lib.Worklist Lib.Kahn

variable {F : Type} {set : ManifestSet F}

-- ================================================================== stack

/-- The taken places and those on the stack are the marked ones, each
once. -/
abbrev Marks (done : List set.Place) (s : Work set.Place) : Prop :=
  Marking (fun _ => []) (fun _ => True) done s

theorem Marks.mark {done : List set.Place} {s : Work set.Place}
    (h : Marks done s) (i : set.Place) :
    set.mark s i = some (s.push i) ∧ Marks done (s.push i) := by
  refine ⟨?_, h.push ⟨i, trivial, .refl⟩⟩
  rw [ManifestSet.mark, Work.push]
  cases hi : s.marked i with
  | true => rfl
  | false =>
      have hroom := h.length_lt hi
      rw [List.length_append, Fintype.card_fin] at hroom
      have hlt : s.stack.length < maxManifests :=
        Nat.lt_of_lt_of_le (by omega) set.property
      rw [if_neg Bool.false_ne_true, if_pos hlt, if_neg Bool.false_ne_true]

theorem Marks.markNames {done : List set.Place} {s : Work set.Place}
    (h : Marks done s) (format : String) (names : List (List UInt8)) :
    set.markNames format names s = some (names.foldlM (set.need format) s)
      ∧ ∀ s', names.foldlM (set.need format) s = .ok s' → Marks done s' := by
  induction names generalizing s with
  | nil =>
      refine ⟨rfl, fun s' hs' => ?_⟩
      cases hs'
      exact h
  | cons name names ih =>
      rw [ManifestSet.markNames, List.foldlM_cons, need]
      cases set.findByName name with
      | none => exact ⟨rfl, fun s' hs' => by cases hs'⟩
      | some i =>
          obtain ⟨hmark, hpush⟩ := h.mark i
          dsimp only
          rw [hmark]
          exact ih hpush

/-- A place is taken from the stack. -/
theorem Marks.pop {done : List set.Place} {s : Work set.Place}
    (h : Marks done s) {i : set.Place} {stack : List set.Place}
    (hstack : s.stack = i :: stack) :
    Marks (done ++ [i]) { s with stack := stack } := by
  have happ : done ++ s.stack = (done ++ [i]) ++ stack := by
    rw [hstack, List.append_cons]
  exact ⟨happ ▸ h.nodup, happ ▸ h.mem, happ ▸ h.count, h.reachable⟩

/-- The places not taken yet. -/
def left (set : ManifestSet F) (s : Work set.Place) : Nat :=
  set.val.length - (s.count - s.stack.length)

theorem Marks.left_eq {done : List set.Place} {s : Work set.Place}
    (h : Marks done s) :
    set.left s = set.val.length - done.length
      ∧ done.length + s.stack.length ≤ set.val.length := by
  have hle := h.nodup.length_le_card
  rw [List.length_append, Fintype.card_fin] at hle
  rw [left, h.count, List.length_append, Nat.add_sub_cancel]
  exact ⟨rfl, hle⟩

theorem close_of_empty {s : Work set.Place} (h : s.stack = []) (fuel : Nat) :
    set.close fuel s = .ok s := by
  cases fuel with
  | zero => rfl
  | succ fuel => rw [close, h]

/-- One turn takes one place more. -/
theorem closeTurn_ok (s : Work set.Place) (h : ∃ done, Marks done s) :
    TurnOk (fun s => ∃ done, Marks done s) set.left
      (fun s => set.close (set.left s) s) s (set.closeTurn s) := by
  obtain ⟨done, h⟩ := h
  rw [closeTurn]
  cases hstack : s.stack with
  | nil => exact .done (close_of_empty hstack _).symm
  | cons i stack =>
      obtain ⟨hleft, hle⟩ := h.left_eq
      rw [hstack, List.length_cons] at hle
      have hpop := h.pop hstack
      obtain ⟨hnames, hmarks⟩ := hpop.markNames
        "missing mandatory dependency: %s" (set.dependencyNames i)
      have hclose : set.close (set.left s) s
          = ((set.dependencyNames i).foldlM
                (set.need "missing mandatory dependency: %s")
                { s with stack := stack }).bind
              (set.close (set.left s - 1)) := by
        obtain ⟨k, hk⟩ : ∃ k, set.left s = k + 1 :=
          ⟨set.left s - 1, by omega⟩
        rw [hk, close, hstack]
        dsimp only
        cases (set.dependencyNames i).foldlM
          (set.need "missing mandatory dependency: %s")
          { s with stack := stack } <;> rfl
      dsimp only
      rw [hnames]
      cases hrest : (set.dependencyNames i).foldlM
          (set.need "missing mandatory dependency: %s")
          { s with stack := stack } with
      | error issue =>
          rw [hrest] at hclose
          exact .done hclose.symm
      | ok s' =>
          rw [hrest] at hclose
          have hs' := hmarks s' hrest
          have hleft' := hs'.left_eq.1
          rw [List.length_append, List.length_singleton] at hleft'
          refine .next ⟨_, hs'⟩ (by omega) ?_
          rw [hclose, show set.left s - 1 = set.left s' by omega]
          rfl

/-- The loop on the stack ends, and within the stack. -/
theorem loop_closeTurn {s : Work set.Place} (h : Marks [] s) :
    loop set.closeTurn (set.val.length + 1) s
      = some (set.close set.val.length s) := by
  have hleft : set.left s = set.val.length := h.left_eq.1
  rw [loop_eq_some closeTurn_ok ⟨[], h⟩ (by omega), hleft]

-- ================================================================== queue

/-- The queue's entries are distinct and wait for nothing; those taken
are the order. -/
structure Fresh (s : Queued set.Place) : Prop where
  nodup : s.queue.Nodup
  zero : ∀ v ∈ s.queue, s.indegree v = 0
  taken : s.qi ≤ s.queue.length
  order : s.order = s.queue.take s.qi

/-- What the sort of `Lib.Kahn` sees of the arrays. -/
def Queued.state (s : Queued set.Place) : State set.Place where
  indegree := s.indegree
  queue := s.queue.drop s.qi
  order := s.order

theorem Fresh.length_le {s : Queued set.Place} (h : Fresh s) :
    s.queue.length ≤ set.val.length := by
  have hle := h.nodup.length_le_card
  rwa [Fintype.card_fin] at hle

/-- A place that still waits is not in the queue, so there is room for
it. -/
theorem Fresh.room {s : Queued set.Place} (h : Fresh s) {j : set.Place}
    (hj : s.indegree j ≠ 0) : j ∉ s.queue ∧ s.queue.length < maxManifests := by
  have hfresh : j ∉ s.queue := fun hmem => hj (h.zero j hmem)
  have hle := (List.nodup_cons.mpr ⟨hfresh, h.nodup⟩).length_le_card
  rw [List.length_cons, Fintype.card_fin] at hle
  exact ⟨hfresh, Nat.lt_of_lt_of_le hle set.property⟩

/-- What one release leaves. -/
def Queued.released (s : Queued set.Place) (j : set.Place) :
    Queued set.Place :=
  { s with
    indegree := Function.update s.indegree j (s.indegree j - 1)
    queue := if s.indegree j - 1 == 0 then s.queue ++ [j] else s.queue }

theorem Fresh.released {s : Queued set.Place} (h : Fresh s) {j : set.Place}
    (hj : s.indegree j ≠ 0) : Fresh (s.released j) := by
  obtain ⟨hfresh, -⟩ := h.room hj
  have hother : ∀ v ∈ s.queue, (s.released j).indegree v = 0 := by
    intro v hv
    have hvj : v ≠ j := fun heq => hfresh (heq ▸ hv)
    rw [Queued.released]
    dsimp only
    rw [Function.update_of_ne hvj]
    exact h.zero v hv
  rw [Queued.released] at hother ⊢
  by_cases hlast : s.indegree j - 1 = 0
  · rw [hlast] at hother ⊢
    refine ⟨?_, ?_, ?_, ?_⟩
    · exact List.nodup_append.mpr ⟨h.nodup, List.nodup_singleton j,
        fun v hv w hw heq => hfresh (by
          rw [List.mem_singleton.mp hw] at heq
          exact heq ▸ hv)⟩
    · intro v hv
      rcases List.mem_append.mp hv with hv | hv
      · exact hother v hv
      · rw [List.mem_singleton.mp hv]
        exact Function.update_self j 0 s.indegree
    · have htaken := h.taken
      show s.qi ≤ (s.queue ++ [j]).length
      rw [List.length_append]
      omega
    · show s.order = (s.queue ++ [j]).take s.qi
      rw [List.take_append_of_le_length h.taken, h.order]
  · have hb : (s.indegree j - 1 == 0) = false := beq_eq_false_iff_ne.mpr hlast
    rw [hb] at hother ⊢
    exact ⟨h.nodup, hother, h.taken, h.order⟩

/-- The loop over the entries decrements once, and not below 0. -/
theorem Fresh.releaseEntries {s : Queued set.Place} (h : Fresh s)
    {j : set.Place} (hj : s.indegree j ≠ 0) (name : List UInt8)
    (ds : List (List UInt8)) :
    set.releaseEntries name j ds s
      = some (if ds.any (· == name) then s.released j else s) := by
  induction ds with
  | nil => rfl
  | cons d ds ih =>
      rw [ManifestSet.releaseEntries, List.any_cons]
      cases d == name with
      | false =>
          rw [if_neg Bool.false_ne_true, ih, Bool.false_or]
      | true =>
          rw [if_pos rfl, if_neg hj, Bool.true_or, if_pos rfl,
            Queued.released]
          simp only [Function.update_self, enqueue, if_pos (h.room hj).2]
          split <;> rfl

theorem Fresh.releaseAt {s : Queued set.Place} (h : Fresh s)
    (needed : set.Place → Bool) (i j : set.Place) :
    ∃ s', set.releaseAt needed i s j = some s' ∧ Fresh s'
      ∧ s'.state = s.state.release needed set.waits i j := by
  rw [ManifestSet.releaseAt]
  by_cases hskip : (!needed j || s.indegree j == 0) = true
  · rw [if_pos hskip]
    exact ⟨s, rfl, h, (if_pos hskip).symm⟩
  · rw [if_neg hskip]
    have hj : s.indegree j ≠ 0 := fun hzero => hskip (by simp [hzero])
    have hstate : s.state.release needed set.waits i j
        = if set.waits j i then (s.released j).state else s.state := by
      rw [State.release]
      refine (if_neg hskip).trans ?_
      split
      · rw [Queued.state, Queued.released]
        dsimp only
        split
        · rw [← List.drop_append_of_le_length h.taken]
          rfl
        · rfl
      · rfl
    rw [h.releaseEntries hj, hstate, waits]
    refine ⟨_, rfl, ?_, ?_⟩
    · split
      · exact h.released hj
      · exact h
    · split <;> rfl

/-- The loop over all places. -/
theorem Fresh.releaseAll {s : Queued set.Place} (h : Fresh s)
    (needed : set.Place → Bool) (i : set.Place) (places : List set.Place) :
    ∃ s', places.foldlM (set.releaseAt needed i) s = some s' ∧ Fresh s'
      ∧ s'.state = places.foldl (State.release needed set.waits i) s.state := by
  induction places generalizing s with
  | nil => exact ⟨s, rfl, h, rfl⟩
  | cons j places ih =>
      obtain ⟨s', hs', hfresh, hstate⟩ := h.releaseAt needed i j
      obtain ⟨s'', hs'', hfresh', hstate'⟩ := ih hfresh
      rw [List.foldlM_cons, hs']
      exact ⟨s'', hs'', hfresh', by rw [hstate', hstate]; rfl⟩

/-- The places not in order yet. -/
def unordered (set : ManifestSet F) (s : Queued set.Place) : Nat :=
  set.val.length - s.order.length

/-- One turn puts one place more in order. -/
theorem sortTurn_ok (needed : set.Place → Bool) (s : Queued set.Place)
    (h : Fresh s) :
    TurnOk Fresh set.unordered
      (fun s =>
        let sorted := State.sort needed set.waits
          (List.finRange set.val.length) (set.unordered s) s.state
        (sorted.indegree, sorted.order))
      s (set.sortTurn needed s) := by
  have hlen : s.order.length = s.qi := by
    rw [h.order, List.length_take, Nat.min_eq_left h.taken]
  have hall := h.length_le
  have htaken := h.taken
  rw [sortTurn]
  cases hqi : s.queue[s.qi]? with
  | none =>
      have hempty : s.state.queue = [] :=
        List.drop_eq_nil_of_le (List.getElem?_eq_none_iff.mp hqi)
      refine .done ?_
      cases set.unordered s with
      | zero => rfl
      | succ n => rw [State.sort, hempty]; rfl
  | some i =>
      obtain ⟨hlt, hi⟩ := List.getElem?_eq_some_iff.mp hqi
      have hcap : s.order.length < maxManifests :=
        Nat.lt_of_lt_of_le (by omega) set.property
      have hqueue : s.state.queue = i :: s.queue.drop (s.qi + 1) := by
        rw [Queued.state, List.drop_eq_getElem_cons hlt, hi]
      have hnext : Fresh { s with qi := s.qi + 1, order := s.order ++ [i] } :=
        ⟨h.nodup, h.zero, hlt, by
          rw [h.order, ← List.take_concat_get' _ _ hlt, hi]⟩
      obtain ⟨s', hs', hfresh, hstate⟩ :=
        hnext.releaseAll needed i (List.finRange set.val.length)
      have horder : s'.order = s.order ++ [i] := by
        have hkept := congrArg State.order hstate
        rw [foldl_release (List.nodup_finRange _)] at hkept
        exact hkept
      have hleft : set.unordered s = set.unordered s' + 1 := by
        rw [unordered, unordered, horder, List.length_append,
          List.length_singleton]
        omega
      have hsort : State.sort needed set.waits (List.finRange _)
            (set.unordered s) s.state
          = State.sort needed set.waits (List.finRange _)
            (set.unordered s') s'.state := by
        rw [hleft, State.sort, hqueue, hstate]
        rfl
      dsimp only
      rw [if_pos hcap, hs']
      exact .next hfresh (by omega) (by rw [hsort])

/-- The loop that fills the queue. -/
theorem enqueueFree_all (needed : set.Place → Bool)
    (indegree : set.Place → Nat) (places queue : List set.Place)
    (hroom : queue.length + places.length ≤ maxManifests) :
    places.foldlM (set.enqueueFree needed) ⟨indegree, queue, 0, []⟩
      = some ⟨indegree, queue ++ places.filter fun i =>
          needed i && indegree i == 0, 0, []⟩ := by
  induction places generalizing queue with
  | nil => rw [List.filter_nil, List.append_nil]; rfl
  | cons i places ih =>
      rw [List.length_cons] at hroom
      rw [List.foldlM_cons, enqueueFree, List.filter_cons]
      dsimp only
      cases needed i && indegree i == 0 with
      | false => exact ih queue (by omega)
      | true =>
          have hlt : queue.length < maxManifests := by omega
          have hlen : (queue ++ [i]).length + places.length ≤ maxManifests := by
            rw [List.length_append, List.length_singleton]
            omega
          rw [if_pos rfl, if_pos rfl, enqueue, if_pos hlt,
            List.append_cons queue i (List.filter _ _)]
          exact ih (queue ++ [i]) hlen

/-- The loop on the queue ends, and within queue and order. -/
theorem loop_sortTurn (needed : set.Place → Bool) {s : Queued set.Place}
    (h : Fresh s) (horder : s.order = []) :
    loop (set.sortTurn needed) (set.val.length + 1) s
      = some
          (let sorted := State.sort needed set.waits
            (List.finRange set.val.length) set.val.length s.state
          (sorted.indegree, sorted.order)) := by
  have hleft : set.unordered s = set.val.length := by
    rw [unordered, horder]
    rfl
  rw [loop_eq_some (sortTurn_ok needed) h (by omega), hleft]

theorem fresh_start (needed : set.Place → Bool) (indegree : set.Place → Nat) :
    Fresh ⟨indegree, (List.finRange set.val.length).filter fun i =>
      needed i && indegree i == 0, 0, []⟩ where
  nodup := (List.nodup_finRange _).filter _
  zero v hv := by
    have hzero := (List.mem_filter.mp hv).2
    rw [Bool.and_eq_true, beq_iff_eq] at hzero
    exact hzero.2
  taken := Nat.zero_le _
  order := List.take_zero.symm

/-- On every set and for any requested names, each of the two `while`
loops ends within one turn more than there are manifests, no array is
written behind its 64 entries, no count is decremented below 0, and the
run comes to the resolver's answer. -/
theorem resolveChecked_eq (set : ManifestSet F)
    (requested : List (List UInt8)) :
    set.resolveChecked (set.val.length + 1) requested
      = some (set.obicallManifestResolve requested) := by
  have hempty : Marks [] (.empty : Work set.Place) := marking_empty
  obtain ⟨hnames, hmarks⟩ := hempty.markNames
    "requested provider not found: %s" requested
  rw [resolveChecked, obicallManifestResolve, hnames]
  cases hrequested : requested.foldlM
      (set.need "requested provider not found: %s") .empty with
  | error issue => rfl
  | ok s =>
      dsimp only
      rw [loop_closeTurn (hmarks s hrequested)]
      cases set.close set.val.length s with
      | error issue => rfl
      | ok s =>
          dsimp only
          rw [enqueueFree_all s.marked _ _ [] (by
            rw [List.length_finRange]
            exact Nat.le_trans (Nat.le_of_eq (Nat.zero_add _)) set.property),
            List.nil_append]
          dsimp only
          rw [loop_sortTurn s.marked (fresh_start s.marked _) rfl]
          exact (apply_ite some _ _ _).symm

end Obicall.ManifestSet
