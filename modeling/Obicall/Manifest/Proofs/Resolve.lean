/-
What the resolver answers, for any set of manifests and any requested
names: the reachable manifests, each once and behind its dependencies
(`resolve_ok`), or which of its two errors and when
(`resolve_verdict_iff`).

# Three verdicts

`ResolveCase` is the resolver's specification: a name that no manifest
carries is met, or something is left over, or the order holds everything
that is reachable. Something is left over when the reachable manifests
wait for each other in a circle, but also when one of them lists a name
twice: its in-degree counts both entries and the sort takes off one. So
the resolver tells a cycle where there may be none.
-/
import Mathlib.Data.List.Nodup
import Obicall.Core.Manifest

namespace Obicall.ManifestSet

open Relation Lib.Worklist Lib.Kahn

variable {F : Type} (set : ManifestSet F) (requested : List (List UInt8))

-- ============================================================= statement

/-- The manifests that a manifest's names denote. -/
def deps (i : set.Place) : List set.Place :=
  (set.dependencyNames i).filterMap set.findByName

/-- One of the requested names denotes it. -/
def Requested (i : set.Place) : Prop :=
  ∃ name ∈ requested, set.findByName name = some i

/-- It is requested, or a reachable manifest depends on it. -/
abbrev Reachable (i : set.Place) : Prop :=
  Lib.Worklist.Reachable set.deps (set.Requested requested) i

/-- A requested name, or one that a reachable manifest lists, is no
manifest's. -/
def Absent : Prop :=
  (∃ name ∈ requested, set.findByName name = none)
    ∨ ∃ i, set.Reachable requested i
      ∧ ∃ name ∈ set.dependencyNames i, set.findByName name = none

/-- A reachable manifest depends on itself, however far round. -/
def Cyclic : Prop :=
  ∃ i, set.Reachable requested i ∧ TransGen (fun i j => j ∈ set.deps i) i i

/-- No reachable manifest lists a name twice. -/
def NoRepeats : Prop :=
  ∀ i, set.Reachable requested i → (set.dependencyNames i).Nodup

variable {set requested}

-- ================================================================= names

theorem name_of_findByName {name : List UInt8} {i : set.Place}
    (h : set.findByName name = some i) : cString (set.item i).name = name := by
  have hi := List.find?_some h
  exact beq_iff_eq.mp hi

theorem findByName_of_reachable {i : set.Place}
    (h : set.Reachable requested i) :
    set.findByName (cString (set.item i).name) = some i := by
  obtain ⟨r, ⟨name, -, hname⟩, hpath⟩ := h
  cases hpath with
  | refl => rw [name_of_findByName hname, hname]
  | tail _ hdep =>
      obtain ⟨dep, -, hdep⟩ := List.mem_filterMap.mp hdep
      rw [name_of_findByName hdep, hdep]

/-- Every name the manifest lists is some manifest's. -/
def AllFound (set : ManifestSet F) (i : set.Place) : Prop :=
  ∀ name ∈ set.dependencyNames i, set.findByName name ≠ none

theorem map_name_deps {i : set.Place} (h : set.AllFound i) :
    (set.deps i).map (fun j => cString (set.item j).name)
      = set.dependencyNames i := by
  rw [deps, AllFound] at *
  generalize set.dependencyNames i = names at *
  induction names with
  | nil => rfl
  | cons name names ih =>
      obtain ⟨hname, hnames⟩ := List.forall_mem_cons.mp h
      obtain ⟨j, hj⟩ := Option.ne_none_iff_exists'.mp hname
      rw [List.filterMap_cons_some hj, List.map_cons, ih hnames,
        name_of_findByName hj]

theorem length_deps {i : set.Place} (h : set.AllFound i) :
    (set.deps i).length = (set.item i).dependencies.val.length := by
  rw [← List.length_map (fun j => cString (set.item j).name),
    map_name_deps h, dependencyNames, List.length_map]

theorem nodup_deps_iff {i : set.Place} (hi : set.Reachable requested i)
    (h : set.AllFound i) :
    (set.deps i).Nodup ↔ (set.dependencyNames i).Nodup := by
  rw [← map_name_deps h]
  refine ⟨fun hnodup => hnodup.map_on fun j hj k hk hname => ?_,
    List.Nodup.of_map _⟩
  have hj := findByName_of_reachable (hi.tail hj)
  rw [hname, findByName_of_reachable (hi.tail hk)] at hj
  exact (Option.some.inj hj).symm

theorem waits_iff {i j : set.Place} (hi : set.Reachable requested i) :
    set.waits j i = true ↔ i ∈ set.deps j := by
  rw [waits, List.any_eq_true, deps, List.mem_filterMap]
  refine exists_congr fun name => and_congr_right fun _ => ?_
  rw [beq_iff_eq]
  constructor
  · rintro rfl
    exact findByName_of_reachable hi
  · exact fun h => (name_of_findByName h).symm

-- =============================================================== closure

theorem foldlM_need {names : List (List UInt8)}
    (h : ∀ name ∈ names, set.findByName name ≠ none) (format : String)
    (s : Work set.Place) :
    names.foldlM (set.need format) s
      = .ok ((names.filterMap set.findByName).foldl Work.push s) := by
  induction names generalizing s with
  | nil => rfl
  | cons name names ih =>
      obtain ⟨hname, hnames⟩ := List.forall_mem_cons.mp h
      obtain ⟨i, hi⟩ := Option.ne_none_iff_exists'.mp hname
      rw [List.foldlM_cons, need, hi, List.filterMap_cons_some hi]
      exact ih hnames (s.push i)

theorem foldlM_need_absent {names : List (List UInt8)}
    (h : ∃ name ∈ names, set.findByName name = none) (format : String)
    (s : Work set.Place) :
    ∃ name, names.foldlM (set.need format) s
      = .error ⟨.errDependencyMissing, format, name⟩ := by
  induction names generalizing s with
  | nil =>
      obtain ⟨name, hname, -⟩ := h
      cases hname
  | cons name names ih =>
      rw [List.foldlM_cons, need]
      cases hfound : set.findByName name with
      | none => exact ⟨name, rfl⟩
      | some i =>
          refine ih ?_ (s.push i)
          obtain ⟨absent, hmem, habsent⟩ := h
          rcases List.mem_cons.mp hmem with rfl | hmem
          · rw [hfound] at habsent
            cases habsent
          · exact ⟨absent, hmem, habsent⟩

/-- The search meets a name that is nobody's, or closes what it began
with. -/
theorem close_case {fuel : Nat} {done : List set.Place}
    {s : Work set.Place}
    (h : Closing set.deps (set.Requested requested) done s)
    (hfound : ∀ i ∈ done, set.AllFound i)
    (hfuel : set.val.length ≤ done.length + fuel) :
    (∃ i, set.Reachable requested i ∧ ¬ set.AllFound i
        ∧ ∃ name, set.close fuel s = .error ⟨.errDependencyMissing,
            "missing mandatory dependency: %s", name⟩)
      ∨ ∃ done' s', set.close fuel s = .ok s'
        ∧ Closing set.deps (set.Requested requested) done' s'
        ∧ s'.stack = [] ∧ (∀ i ∈ done', set.AllFound i)
        ∧ ∀ i, s.marked i = true → s'.marked i = true := by
  induction fuel generalizing done s with
  | zero =>
      -- every place is taken
      refine .inr ⟨done, s, rfl, h, ?_, hfound, fun _ => id⟩
      have hle := h.length_le
      rw [List.length_append, Fintype.card_fin] at hle
      exact List.eq_nil_of_length_eq_zero (by omega)
  | succ fuel ih =>
      rw [close]
      cases hstack : s.stack with
      | nil => exact .inr ⟨done, s, rfl, h, hstack, hfound, fun _ => id⟩
      | cons idx stack =>
          dsimp only
          have hidx : s.marked idx = true := by
            rw [← h.mem, hstack]
            exact List.mem_append_right _ List.mem_cons_self
          by_cases hall : set.AllFound idx
          · rw [foldlM_need hall]
            have hnext : ∀ i ∈ done ++ [idx], set.AllFound i := by
              rw [List.forall_mem_append, List.forall_mem_singleton]
              exact ⟨hfound, hall⟩
            have hleft : set.val.length ≤ (done ++ [idx]).length + fuel := by
              rw [List.length_append, List.length_singleton]
              omega
            rcases ih (h.round hstack) hnext hleft with hmissing | hclosed
            · exact .inl hmissing
            · obtain ⟨done', s', hs', hclosing, hempty, hfound', hkept⟩ := hclosed
              refine .inr ⟨done', s', hs', hclosing, hempty, hfound', ?_⟩
              exact fun i hi => hkept i ((marked_foldl_push _ _).mpr (.inl hi))
          · refine .inl ⟨idx, h.reachable idx hidx, hall, ?_⟩
            have habsent : ∃ name ∈ set.dependencyNames idx,
                set.findByName name = none := by
              simpa [AllFound] using hall
            obtain ⟨name, hname⟩ := foldlM_need_absent habsent
              "missing mandatory dependency: %s" { s with stack := stack }
            rw [hname]
            exact ⟨name, rfl⟩

-- ============================================================== verdicts

/-- What the resolver answers, and when. -/
inductive ResolveCase (set : ManifestSet F)
    (requested : List (List UInt8)) :
    Except ResolveIssue (List set.Place) → Prop where
  | missing {issue : ResolveIssue} : set.Absent requested →
      issue.status = .errDependencyMissing →
      ResolveCase set requested (.error issue)
  | leftOver {issue : ResolveIssue} : ¬ set.Absent requested →
      ¬ (set.NoRepeats requested ∧ ¬ set.Cyclic requested) →
      issue.status = .errDependencyCycle →
      ResolveCase set requested (.error issue)
  | ok {order : List set.Place} : ¬ set.Absent requested →
      set.NoRepeats requested → ¬ set.Cyclic requested →
      order.Nodup → (∀ i, i ∈ order ↔ set.Reachable requested i) →
      (∀ (q : Nat) (i : set.Place), order[q]? = some i → ∀ j ∈ set.deps i,
        ∃ p, p < q ∧ order[p]? = some j) →
      ResolveCase set requested (.ok order)

/-- What the sort leaves, once everything reachable is found. -/
theorem sorting_sort_places {needed : set.Place → Bool}
    (hneeded : ∀ i, needed i = true ↔ set.Reachable requested i)
    (hfound : ∀ i, set.Reachable requested i → set.AllFound i) :
    Sorting set.deps needed (set.sort needed)
      ∧ (set.sort needed).queue = [] := by
  have hnodup : (List.finRange set.val.length).Nodup := List.nodup_finRange _
  have hall : ∀ i, needed i = true → i ∈ List.finRange set.val.length :=
    fun i _ => List.mem_finRange i
  have hdegree : ∀ i, needed i = true →
      set.indegree needed i = (set.deps i).length := by
    intro i hi
    rw [indegree, if_pos hi, length_deps (hfound i ((hneeded i).mp hi))]
  refine sorting_sort ?_ hnodup hall (sorting_start hnodup hall hdegree) ?_
  · exact fun i j hi _ => waits_iff ((hneeded i).mp hi)
  · rw [Fintype.card_fin]
    exact Nat.le_add_left _ _

/-- Everything is in order unless a name is repeated or there is a
cycle. -/
theorem complete_iff {needed : set.Place → Bool}
    (hsort : Sorting set.deps needed (set.sort needed))
    (hqueue : (set.sort needed).queue = [])
    (hneeded : ∀ i, needed i = true ↔ set.Reachable requested i)
    (hfound : ∀ i, set.Reachable requested i → set.AllFound i) :
    (∀ i, needed i = true → i ∈ (set.sort needed).order)
      ↔ set.NoRepeats requested ∧ ¬ set.Cyclic requested := by
  have hclosed : ∀ i, needed i = true → ∀ j ∈ set.deps i,
      needed j = true := fun i hi j hj =>
    (hneeded j).mpr (((hneeded i).mp hi).tail hj)
  rw [hsort.complete_iff hqueue hclosed]
  refine and_congr ?_ ?_
  · refine forall_congr' fun i => ?_
    rw [hneeded]
    exact forall_congr' fun hi => nodup_deps_iff hi (hfound i hi)
  · simp only [hneeded, Cyclic, not_exists, not_and]

/-- What the sort of a closed search makes of it. -/
theorem sorted_case {s : Work set.Place}
    (hpresent : ¬ set.Absent requested)
    (hneeded : ∀ i, s.marked i = true ↔ set.Reachable requested i)
    (hfound : ∀ i, set.Reachable requested i → set.AllFound i)
    {done : List set.Place} (hdone : done.Nodup)
    (hmem : ∀ i, i ∈ done ↔ s.marked i = true)
    (hcount : s.count = done.length) {issue : ResolveIssue}
    (hissue : issue.status = .errDependencyCycle) :
    ResolveCase set requested
      (if (set.sort s.marked).order.length ≠ s.count then .error issue
        else .ok (set.sort s.marked).order) := by
  obtain ⟨hsort, hqueue⟩ := sorting_sort_places hneeded hfound
  have hcomplete := complete_iff hsort hqueue hneeded hfound
  have hlength := length_eq_iff hsort hdone hmem
  rw [hcount]
  split
  next hne =>
    rw [Ne, hlength, hcomplete] at hne
    exact .leftOver hpresent hne hissue
  next heq =>
    rw [Ne, not_not, hlength] at heq
    obtain ⟨hdistinct, hacyclic⟩ := hcomplete.mp heq
    have hin : ∀ i, i ∈ (set.sort s.marked).order
        ↔ set.Reachable requested i := fun i =>
      ⟨fun hi => (hneeded i).mp (needed_of_mem_order hsort hi),
        fun hi => heq i ((hneeded i).mpr hi)⟩
    exact .ok hpresent hdistinct hacyclic
      (List.nodup_append.mp hsort.nodup).1 hin hsort.earlier

theorem resolve_case (set : ManifestSet F) (requested : List (List UInt8)) :
    ResolveCase set requested (set.obicallManifestResolve requested) := by
  rw [obicallManifestResolve]
  by_cases hfound : ∀ name ∈ requested, set.findByName name ≠ none
  · rw [foldlM_need hfound]
    dsimp only
    have hroot : ∀ i, set.Requested requested i
        ↔ i ∈ requested.filterMap set.findByName := by
      intro i
      rw [Requested, List.mem_filterMap]
    have hroots : Closing set.deps (set.Requested requested) [] _ :=
      closing_roots hroot
    rcases close_case hroots (by simp) (Nat.le_add_left _ _) with
      hmissing | hclosed
    · obtain ⟨i, hi, hnot, name, hname⟩ := hmissing
      rw [hname]
      refine .missing (.inr ⟨i, hi, ?_⟩) rfl
      simpa [AllFound] using hnot
    · obtain ⟨done, s, hs, hclosing, hempty, hdone, hkept⟩ := hclosed
      rw [hs]
      have hneeded : ∀ i, s.marked i = true ↔ set.Reachable requested i :=
        hclosing.marked_iff hempty fun i hi =>
          hkept i ((marked_foldl_push _ _).mpr (.inr ((hroot i).mp hi)))
      have hmem : ∀ i, i ∈ done ↔ s.marked i = true := by
        intro i
        rw [← hclosing.mem, hempty, List.append_nil]
      have hfound' : ∀ i, set.Reachable requested i → set.AllFound i :=
        fun i hi => hdone i ((hmem i).mpr ((hneeded i).mpr hi))
      have hpresent : ¬ set.Absent requested := by
        rintro (⟨name, hname, habsent⟩ | ⟨i, hi, name, hname, habsent⟩)
        · exact hfound name hname habsent
        · exact hfound' i hi name hname habsent
      have hnodup : done.Nodup := (List.nodup_append.mp hclosing.nodup).1
      have hcount : s.count = done.length := by
        rw [hclosing.count, hempty, List.append_nil]
      exact sorted_case hpresent hneeded hfound' hnodup hmem hcount rfl
  · have habsent : ∃ name ∈ requested, set.findByName name = none := by
      simpa using hfound
    obtain ⟨name, hname⟩ := foldlM_need_absent habsent
      "requested provider not found: %s" .empty
    rw [hname]
    exact .missing (.inl habsent) rfl

-- ================================================================== order

/-- The order that is returned: exactly what is reachable, each once, and
each behind everything it depends on. -/
theorem resolve_ok {order : List set.Place}
    (h : set.obicallManifestResolve requested = .ok order) :
    order.Nodup ∧ (∀ i, i ∈ order ↔ set.Reachable requested i)
      ∧ ∀ (q : Nat) (i : set.Place), order[q]? = some i →
        ∀ name ∈ set.dependencyNames i, ∃ p j, p < q ∧ order[p]? = some j
          ∧ set.findByName name = some j := by
  have hcase := resolve_case set requested
  rw [h] at hcase
  cases hcase with
  | ok hpresent _ _ hnodup hmem hearlier =>
      refine ⟨hnodup, hmem, fun q i hq name hname => ?_⟩
      have hi : set.Reachable requested i :=
        (hmem i).mp (List.mem_of_getElem? hq)
      cases hfound : set.findByName name with
      | none => exact (hpresent (.inr ⟨i, hi, name, hname, hfound⟩)).elim
      | some j =>
          obtain ⟨p, hp, hpj⟩ := hearlier q i hq j
            (List.mem_filterMap.mpr ⟨name, hname, hfound⟩)
          exact ⟨p, j, hp, hpj, rfl⟩

/-- A name as the parser leaves it in its array. -/
def manifestName (s : List UInt8) : ManifestName :=
  Vector.ofFn fun i => s.getD i.val 0

/-- A manifest of a name and its dependencies. -/
def depending (name : UInt8) (ds : List UInt8)
    (h : ds.length ≤ maxDependencies) : Manifest Unit where
  name := manifestName [name]
  abiVersionMajor := 1
  abiVersionMinor := 0
  architecture := Vector.replicate _ 0
  capabilitySlot := manifestName []
  preferenceScore := ()
  dependencies := ⟨ds.map fun d => manifestName [d], by
    rw [List.length_map]
    exact h⟩

/-- "a" depends on "b" and "c", which depends on "b". -/
def diamond : ManifestSet Unit :=
  ⟨[depending 97 [98, 99] (by decide), depending 98 [] (by decide),
    depending 99 [98] (by decide)], by decide⟩

theorem resolve_ok_diamond :
    diamond.obicallManifestResolve [[97]]
        = .ok [⟨1, by decide⟩, ⟨2, by decide⟩, ⟨0, by decide⟩]
      ∧ ∀ i, diamond.Reachable [[97]] i := by
  have hresolve : diamond.obicallManifestResolve [[97]]
      = .ok [⟨1, by decide⟩, ⟨2, by decide⟩, ⟨0, by decide⟩] := by
    decide
  refine ⟨hresolve, fun i => ?_⟩
  obtain ⟨-, hmem, -⟩ := resolve_ok hresolve
  rw [← hmem]
  revert i
  decide

-- ================================================================ verdict

/-- The status that the resolver returns. -/
def resolveStatus (set : ManifestSet F) (requested : List (List UInt8)) :
    Status :=
  match set.obicallManifestResolve requested with
  | .ok _ => .ok
  | .error issue => issue.status

/-- It is the right one: something is missing, or there is a cycle, or
neither. -/
def Verdict (set : ManifestSet F) (requested : List (List UInt8)) : Prop :=
  (set.resolveStatus requested = .errDependencyMissing
      ↔ set.Absent requested)
    ∧ (¬ set.Absent requested →
      (set.resolveStatus requested = .errDependencyCycle
          ↔ set.Cyclic requested)
        ∧ (set.resolveStatus requested = .ok ↔ ¬ set.Cyclic requested))

/-- The resolver's verdict is right unless all names are found, there is
no cycle, and a reachable manifest lists a name twice. -/
theorem resolve_verdict_iff (set : ManifestSet F)
    (requested : List (List UInt8)) :
    set.Verdict requested
      ↔ set.Absent requested ∨ set.Cyclic requested
        ∨ set.NoRepeats requested := by
  have hcase := resolve_case set requested
  rw [Verdict, resolveStatus]
  generalize set.obicallManifestResolve requested = answer at hcase ⊢
  cases hcase with
  | missing habsent hstatus => simp [habsent, hstatus]
  | leftOver hpresent hleft hstatus =>
      have hcycle : set.NoRepeats requested → set.Cyclic requested :=
        fun hdistinct => by_contra fun hacyclic => hleft ⟨hdistinct, hacyclic⟩
      simpa [hpresent, hstatus] using hcycle
  | ok hpresent hdistinct hacyclic _ _ _ =>
      simp [hpresent, hdistinct, hacyclic]

/-- "a" lists "b" twice. -/
def repeating : ManifestSet Unit :=
  ⟨[depending 97 [98, 98] (by decide), depending 98 [] (by decide)],
    by decide⟩

/-- The resolver tells a cycle where there is none. -/
theorem repeating_refused :
    (repeating.val.map fun m => cString m.name).Nodup
      ∧ repeating.resolveStatus [[97]] = .errDependencyCycle
      ∧ ¬ repeating.Verdict [[97]] := by
  have hstatus : repeating.resolveStatus [[97]] = .errDependencyCycle := by
    decide
  have hup : ∀ i j : repeating.Place, j ∈ repeating.deps i → i < j := by
    decide
  have hacyclic : ¬ repeating.Cyclic [[97]] := by
    rintro ⟨i, -, hpath⟩
    have hlt : ∀ j, TransGen (fun i j => j ∈ repeating.deps i) i j → i < j := by
      intro j hpath
      induction hpath with
      | single h => exact hup _ _ h
      | tail _ h ih => exact ih.trans (hup _ _ h)
    exact absurd (hlt i hpath) (lt_irrefl i)
  have hpresent : ¬ repeating.Absent [[97]] := by
    rintro (habsent | ⟨i, -, habsent⟩)
    · revert habsent
      decide
    · revert i
      decide
  refine ⟨by decide, hstatus, fun h => ?_⟩
  exact hacyclic ((h.2 hpresent).1.mp hstatus)

end Obicall.ManifestSet
