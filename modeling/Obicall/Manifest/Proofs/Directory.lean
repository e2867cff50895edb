/-
The order in which a directory is listed decides nothing: whether the
manifests load, which requests resolve and to which manifests, and how the
alternatives for a slot rank is the same for every order, as long as no
two manifests share a name. For the ranking, which compares strings the
loader may leave without an end, these have to be terminated too.

A set only enters through its manifests and the places they stand at.
Between two sets of the same manifests, `Stands` says that two places hold
the same one; what a name denotes, what is reachable, what is missing and
what is cyclic moves along it (`stands_findByName`, `stands_reachable`).
The ranking moves with the order of scores and names, which tells
manifests of different names apart (`Insertion.map_sort_eq`).
-/
import Mathlib.Data.List.Basic
import Mathlib.Logic.Relation
import Obicall.Lib.Result
import Obicall.Manifest.Directory
import Obicall.Manifest.Proofs.Rank
import Obicall.Manifest.Proofs.Resolve

namespace Obicall

open Lib Relation

variable {F : Type}

/-- By ascending score, equal scores by ascending name. -/
def Manifest.RanksBefore {L : Type} [LinearOrder L] (rank : F → L)
    (m m' : Manifest F) : Prop :=
  rank m.preferenceScore < rank m'.preferenceScore
    ∨ rank m.preferenceScore = rank m'.preferenceScore
      ∧ cString m.name ≤ cString m'.name

-- ============================================================ the listing

section Loading

variable [DoubleArith F] [DoubleText F]

/-- What is loaded of an entry, if anything can be. -/
def DirEntry.manifest (e : DirEntry) : Option (ParsedManifest F) :=
  match e.content with
  | none => none
  | some bytes =>
      if manifestFileCap < bytes.length then none
      else (obicallManifestParseJson bytes).toOption

theorem loadOneManifestFile_ok {path : List UInt8} {e : DirEntry}
    {set set' : LoadedSet F} :
    loadOneManifestFile path e.content set = .ok set'
      ↔ ∃ m, e.manifest = some m ∧ set'.val = set.val ++ [m] := by
  unfold loadOneManifestFile DirEntry.manifest
  cases e.content with
  | none =>
      refine ⟨fun h => (by cases h), fun ⟨m, h, _⟩ => (by cases h)⟩
  | some bytes =>
      dsimp only
      split
      · exact ⟨fun h => (by cases h), fun ⟨m, h, _⟩ => (by cases h)⟩
      split
      · cases obicallManifestParseJson (F := F) bytes with
        | error issue =>
            exact ⟨fun h => (by cases h), fun ⟨m, h, _⟩ => (by cases h)⟩
        | ok m =>
            constructor
            · intro h
              cases h
              exact ⟨m, rfl, rfl⟩
            · rintro ⟨m', hm, hval⟩
              cases hm
              exact congrArg Except.ok (Subtype.ext hval.symm)
      next hfull =>
        refine ⟨fun h => (by cases h), fun ⟨m, _, hval⟩ => ?_⟩
        have hlen := set'.property
        rw [hval, List.length_append] at hlen
        exact absurd hlen (Nat.not_le.mpr (Nat.lt_succ_of_le
          (Nat.le_of_not_lt hfull)))

/-- A directory loads if and only if every manifest in it does and there
is room for all of them; what is loaded are these, in the order of the
listing. -/
theorem loadDir_ok {dirPath : List UInt8} {entries : List DirEntry}
    {set : LoadedSet F} :
    obicallManifestLoadDir dirPath (some entries) = .ok set
      ↔ (∀ e ∈ entries.filter (·.isManifest dirPath),
          (e.manifest (F := F)).isSome)
        ∧ set.val
          = (entries.filter (·.isManifest dirPath)).filterMap
              DirEntry.manifest := by
  have hloop : ∀ start : LoadedSet F,
      entries.foldlM (fun set e =>
          if e.isManifest dirPath then
            loadOneManifestFile (e.path dirPath) e.content set
          else .ok set) start = .ok set
        ↔ (∀ e ∈ entries.filter (·.isManifest dirPath),
            (e.manifest (F := F)).isSome)
          ∧ set.val = start.val
            ++ (entries.filter (·.isManifest dirPath)).filterMap
              DirEntry.manifest := by
    induction entries with
    | nil =>
        intro start
        rw [List.filter_nil, List.filterMap_nil, List.append_nil]
        constructor
        · intro h
          cases h
          exact ⟨fun e he => absurd he List.not_mem_nil, rfl⟩
        · exact fun h => congrArg Except.ok (Subtype.ext h.2.symm)
    | cons e entries ih =>
        intro start
        rw [List.foldlM_cons, Result.bind_eq_ok]
        by_cases he : e.isManifest dirPath = true
        · rw [if_pos he, List.filter_cons_of_pos he, List.forall_mem_cons]
          constructor
          · rintro ⟨next, hone, hrest⟩
            obtain ⟨m, hm, hnext⟩ := loadOneManifestFile_ok.mp hone
            obtain ⟨hall, hval⟩ := (ih next).mp hrest
            refine ⟨⟨by rw [hm]; rfl, hall⟩, ?_⟩
            rw [hval, hnext, List.filterMap_cons_some hm,
              List.append_assoc]
            rfl
          · rintro ⟨⟨hsome, hall⟩, hval⟩
            obtain ⟨m, hm⟩ := Option.isSome_iff_exists.mp hsome
            rw [List.filterMap_cons_some hm] at hval
            have hroom : (start.val ++ [m]).length ≤ maxManifests := by
              have hlen := set.property
              rw [hval, List.length_append, List.length_cons] at hlen
              rw [List.length_append, List.length_singleton]
              omega
            refine ⟨⟨start.val ++ [m], hroom⟩,
              loadOneManifestFile_ok.mpr ⟨m, hm, rfl⟩,
              (ih _).mpr ⟨hall, ?_⟩⟩
            rw [hval, List.append_assoc]
            rfl
        · rw [if_neg he, List.filter_cons_of_neg he]
          constructor
          · rintro ⟨next, hone, hrest⟩
            cases hone
            exact (ih start).mp hrest
          · exact fun h => ⟨start, rfl, (ih start).mpr h⟩
  exact hloop .empty

/-- In another order a directory loads to the same manifests. -/
theorem loadDir_perm {dirPath : List UInt8} {entries entries' : List DirEntry}
    (hperm : entries.Perm entries') {set : LoadedSet F}
    (h : obicallManifestLoadDir dirPath (some entries) = .ok set) :
    ∃ set', obicallManifestLoadDir dirPath (some entries') = .ok set'
      ∧ set.val.Perm set'.val := by
  have hkept := hperm.filter (·.isManifest dirPath)
  have hmanifests := hkept.filterMap (DirEntry.manifest (F := F))
  obtain ⟨hall, hval⟩ := loadDir_ok.mp h
  have hroom : ((entries'.filter (·.isManifest dirPath)).filterMap
      (DirEntry.manifest (F := F))).length ≤ maxManifests := by
    rw [← hmanifests.length_eq, ← hval]
    exact set.property
  refine ⟨⟨_, hroom⟩, loadDir_ok.mpr ⟨fun e he => ?_, rfl⟩, ?_⟩
  · exact hall e (hkept.mem_iff.mpr he)
  · rw [hval]
    exact hmanifests

end Loading

-- ========================================================= the same places

namespace ManifestSet

variable {set set' : ManifestSet F} {requested : List (List UInt8)}

/-- The names of the manifests. -/
def names (set : ManifestSet F) : List (List UInt8) :=
  set.val.map fun m => cString m.name

/-- Two places hold the same manifest. -/
def Stands (set set' : ManifestSet F) (i : set.Place) (j : set'.Place) :
    Prop :=
  set'.item j = set.item i

theorem item_mem (i : set.Place) : set.item i ∈ set.val := List.get_mem _ _

/-- Where no two manifests share a name, a name denotes the one that
carries it. -/
theorem findByName_eq_some (hnames : set.names.Nodup) {name : List UInt8}
    {i : set.Place} :
    set.findByName name = some i ↔ cString (set.item i).name = name := by
  refine ⟨name_of_findByName, fun hi => ?_⟩
  cases hfound : set.findByName name with
  | none =>
      have hnot := List.find?_eq_none.mp hfound i (List.mem_finRange i)
      exact absurd (beq_iff_eq.mpr hi) hnot
  | some k =>
      have hk : cString (set.item k).name = cString (set.item i).name :=
        (name_of_findByName hfound).trans hi.symm
      have hlen : set.names.length = set.val.length := List.length_map ..
      have hget : ∀ j : set.Place, set.names[j.val]?
          = some (cString (set.item j).name) := by
        intro j
        unfold names item
        rw [List.getElem?_map, List.getElem?_eq_getElem j.isLt]
        rfl
      have hlt : k.val < set.names.length := by
        rw [hlen]
        exact k.isLt
      have hval : k.val = i.val := by
        refine (List.getElem?_inj hlt hnames).mp ?_
        rw [hget, hget, hk]
      exact congrArg some (Fin.ext hval)

/-- A manifest stands at one place. -/
theorem eq_of_names (hnames : set.names.Nodup) {i j : set.Place}
    (h : cString (set.item i).name = cString (set.item j).name) : i = j := by
  have hi := (findByName_eq_some hnames).mpr h
  have hj := (findByName_eq_some hnames).mpr (Eq.refl
    (cString (set.item j).name))
  exact Option.some.inj (hi.symm.trans hj)

theorem item_injective (hnames : set.names.Nodup) :
    Function.Injective set.item := by
  intro i j hij
  exact eq_of_names hnames (congrArg (fun m => cString m.name) hij)

theorem findByName_eq_none {name : List UInt8} :
    set.findByName name = none ↔ name ∉ set.names := by
  unfold findByName names
  rw [List.find?_eq_none]
  constructor
  · intro h hmem
    obtain ⟨m, hm, hname⟩ := List.mem_map.mp hmem
    obtain ⟨i, hi, hget⟩ := List.getElem_of_mem hm
    refine h ⟨i, hi⟩ (List.mem_finRange _) (beq_iff_eq.mpr ?_)
    show cString (set.val.get ⟨i, hi⟩).name = name
    rw [List.get_eq_getElem, hget, hname]
  · intro h i _ hi
    exact h (List.mem_map.mpr ⟨set.item i, item_mem i, beq_iff_eq.mp hi⟩)

theorem perm_names (hperm : set.val.Perm set'.val) :
    set.names.Perm set'.names := hperm.map _

/-- Every manifest has a place in the other set. -/
theorem exists_stands (hperm : set.val.Perm set'.val) (i : set.Place) :
    ∃ j, Stands set set' i j := by
  have hmem : set.item i ∈ set'.val := hperm.subset (item_mem i)
  obtain ⟨j, hj, hget⟩ := List.getElem_of_mem hmem
  exact ⟨⟨j, hj⟩, hget⟩

/-- A name that denotes a place denotes where its manifest stands. -/
theorem stands_findByName (hnames : set'.names.Nodup) {name : List UInt8}
    {i : set.Place} {j : set'.Place} (hij : Stands set set' i j)
    (hi : set.findByName name = some i) :
    set'.findByName name = some j := by
  rw [findByName_eq_some hnames, hij]
  exact name_of_findByName hi

theorem stands_dependencyNames {i : set.Place} {j : set'.Place}
    (hij : Stands set set' i j) :
    set'.dependencyNames j = set.dependencyNames i := by
  unfold dependencyNames
  rw [hij]

section Moved

variable {σ : set.Place → set'.Place} (hσ : ∀ i, Stands set set' i (σ i))
  (hnames : set'.names.Nodup)

include hσ hnames

/-- Dependencies stand among the dependencies of where their manifest
stands. -/
theorem stands_deps {i k : set.Place} (hk : k ∈ set.deps i) :
    σ k ∈ set'.deps (σ i) := by
  obtain ⟨name, hname, hfound⟩ := List.mem_filterMap.mp hk
  refine List.mem_filterMap.mpr
    ⟨name, ?_, stands_findByName hnames (hσ k) hfound⟩
  rw [stands_dependencyNames (hσ i)]
  exact hname

theorem stands_reachable {i : set.Place} (hi : set.Reachable requested i) :
    set'.Reachable requested (σ i) := by
  obtain ⟨root, ⟨name, hname, hfound⟩, hpath⟩ := hi
  refine ⟨σ root, ⟨name, hname, stands_findByName hnames (hσ root) hfound⟩,
    hpath.lift σ fun a b hab => stands_deps hσ hnames hab⟩

theorem stands_cyclic (h : set.Cyclic requested) :
    set'.Cyclic requested := by
  obtain ⟨i, hi, hpath⟩ := h
  exact ⟨σ i, stands_reachable hσ hnames hi,
    hpath.lift σ fun a b hab => stands_deps hσ hnames hab⟩

theorem stands_absent (hsub : ∀ name ∈ set'.names, name ∈ set.names)
    (h : set.Absent requested) : set'.Absent requested := by
  have hnone : ∀ name, set.findByName name = none →
      set'.findByName name = none := fun name hname =>
    findByName_eq_none.mpr fun hmem =>
      findByName_eq_none.mp hname (hsub name hmem)
  rcases h with ⟨name, hname, hfound⟩ | ⟨i, hi, name, hname, hfound⟩
  · exact .inl ⟨name, hname, hnone name hfound⟩
  · refine .inr ⟨σ i, stands_reachable hσ hnames hi, name, ?_,
      hnone name hfound⟩
    rw [stands_dependencyNames (hσ i)]
    exact hname

theorem stands_repeats (h : set'.NoRepeats requested) :
    set.NoRepeats requested := by
  intro i hi
  rw [← stands_dependencyNames (hσ i)]
  exact h (σ i) (stands_reachable hσ hnames hi)

end Moved

-- ============================================================ the resolver

/-- What resolves in one order resolves in the other, to the same
manifests. -/
theorem resolve_perm (hperm : set.val.Perm set'.val)
    (hnames : set.names.Nodup) {plan : List set.Place}
    (h : set.obicallManifestResolve requested = .ok plan) :
    ∃ plan', set'.obicallManifestResolve requested = .ok plan'
      ∧ (plan.map set.item).Perm (plan'.map set'.item) := by
  have hnames' : set'.names.Nodup := (perm_names hperm).nodup_iff.mp hnames
  choose σ hσ using exists_stands hperm
  choose τ hτ using exists_stands hperm.symm
  have hcase := resolve_case set requested
  have hcase' := resolve_case set' requested
  rw [h] at hcase
  generalize set'.obicallManifestResolve requested = answer at hcase'
  cases hcase with
  | ok hpresent hdistinct hacyclic hnodup hmem _ =>
      cases hcase' with
      | missing habsent _ =>
          exact absurd (stands_absent hτ hnames
            (fun name hname => (perm_names hperm).subset hname) habsent)
            hpresent
      | leftOver _ hleft _ =>
          exact absurd ⟨stands_repeats hτ hnames hdistinct,
            fun hcyclic => hacyclic (stands_cyclic hτ hnames hcyclic)⟩ hleft
      | @ok plan' _ _ _ hnodup' hmem' _ =>
          refine ⟨plan', rfl, ?_⟩
          refine (List.perm_ext_iff_of_nodup
            (hnodup.map (item_injective hnames))
            (hnodup'.map (item_injective hnames'))).mpr fun m => ?_
          rw [List.mem_map, List.mem_map]
          constructor
          · rintro ⟨i, hi, rfl⟩
            exact ⟨σ i, (hmem' _).mpr (stands_reachable hσ hnames'
              ((hmem i).mp hi)), hσ i⟩
          · rintro ⟨j, hj, rfl⟩
            exact ⟨τ j, (hmem _).mpr (stands_reachable hτ hnames
              ((hmem' j).mp hj)), hτ j⟩

theorem isOk_resolve_perm (hperm : set.val.Perm set'.val)
    (hnames : set.names.Nodup) (requested : List (List UInt8)) :
    (set.obicallManifestResolve requested).isOk
      = (set'.obicallManifestResolve requested).isOk := by
  have hnames' : set'.names.Nodup := (perm_names hperm).nodup_iff.mp hnames
  cases h : set.obicallManifestResolve requested with
  | ok plan =>
      obtain ⟨plan', h', -⟩ := resolve_perm hperm hnames h
      rw [h']
      rfl
  | error issue =>
      cases h' : set'.obicallManifestResolve requested with
      | error issue' => rfl
      | ok plan' =>
          obtain ⟨plan, hplan, -⟩ := resolve_perm hperm.symm hnames' h'
          rw [h] at hplan
          cases hplan

-- ============================================================= the ranking

theorem eligible_perm (hperm : set.val.Perm set'.val)
    (hnames : set.names.Nodup) {i : set.Place} {j : set'.Place}
    (hij : Stands set set' i j) {capabilitySlot : List UInt8}
    {hostArchitecture : Option (List UInt8)}
    (h : set.Eligible capabilitySlot hostArchitecture i) :
    set'.Eligible capabilitySlot hostArchitecture j := by
  obtain ⟨hne, hslot, harch, hmajor, hminor, order, hres⟩ := h
  rw [← hij] at hne hslot harch hmajor hminor hres
  obtain ⟨order', hres', -⟩ := resolve_perm hperm hnames hres
  exact ⟨hne, hslot, harch, hmajor, hminor, order', hres'⟩

theorem terminated_perm (hperm : set.val.Perm set'.val)
    (h : set.Terminated) : set'.Terminated := by
  choose τ hτ using exists_stands hperm.symm
  constructor
  · intro i
    rw [← hτ i]
    exact h.architecture (τ i)
  · intro i
    rw [← hτ i]
    exact h.capabilitySlot (τ i)

variable [DoubleArith F] {L : Type} [LinearOrder L]

theorem scoresRanked_perm (hperm : set.val.Perm set'.val) {rank : F → L}
    (h : ScoresRanked set rank) : ScoresRanked set' rank := by
  choose τ hτ using exists_stands hperm.symm
  refine ⟨fun i j => ?_, fun i j => ?_⟩
  · rw [← hτ i, ← hτ j]
    exact h.lt (τ i) (τ j)
  · rw [← hτ i, ← hτ j]
    exact h.eq (τ i) (τ j)

omit [DoubleArith F] in
/-- Manifests of different names are told apart. -/
theorem eq_of_ranksBefore (hnames : set.names.Nodup) {rank : F → L}
    {i j : set.Place} (hij : set.RanksBefore rank i j)
    (hji : set.RanksBefore rank j i) : i = j := by
  rcases hij with hlt | ⟨heq, hle⟩
  · rcases hji with hlt' | ⟨heq', -⟩
    · exact absurd hlt' (not_lt.mpr hlt.le)
    · exact absurd heq' hlt.ne'
  · rcases hji with hlt' | ⟨-, hle'⟩
    · exact absurd heq hlt'.ne'
    · exact eq_of_names hnames (List.le_antisymm hle hle')

/-- The alternatives rank in one order as in the other. -/
theorem rank_perm (hperm : set.val.Perm set'.val)
    (hnames : set.names.Nodup) (hterm : set.Terminated) {rank : F → L}
    (h : ScoresRanked set rank) (tail : set.Place → ItemTail)
    (tail' : set'.Place → ItemTail) (capabilitySlot : List UInt8)
    (hostArchitecture : Option (List UInt8)) (outCap : Nat) :
    (set.obicallManifestRankAlternatives tail capabilitySlot
        hostArchitecture outCap).map set.item
      = (set'.obicallManifestRankAlternatives tail' capabilitySlot
          hostArchitecture outCap).map set'.item := by
  have hterm' := terminated_perm hperm hterm
  have hnames' : set'.names.Nodup := (perm_names hperm).nodup_iff.mp hnames
  choose σ hσ using exists_stands hperm
  choose τ hτ using exists_stands hperm.symm
  have hcandidates : (((List.finRange set.val.length).filter
        (set.eligible tail capabilitySlot hostArchitecture)).map set.item).Perm
      (((List.finRange set'.val.length).filter
        (set'.eligible tail' capabilitySlot hostArchitecture)).map
          set'.item) := by
    refine (List.perm_ext_iff_of_nodup
      (((List.nodup_finRange _).filter _).map (item_injective hnames))
      (((List.nodup_finRange _).filter _).map
        (item_injective hnames'))).mpr fun m => ?_
    simp only [List.mem_map, List.mem_filter, List.mem_finRange, true_and,
      eligible_iff hterm, eligible_iff hterm']
    constructor
    · rintro ⟨i, hi, rfl⟩
      exact ⟨σ i, eligible_perm hperm hnames (hσ i) hi, hσ i⟩
    · rintro ⟨j, hj, rfl⟩
      exact ⟨τ j, eligible_perm hperm.symm hnames' (hτ j) hj, hτ j⟩
  have hsort := Insertion.map_sort_eq (decides_shouldShift h)
    (decides_shouldShift (scoresRanked_perm hperm h))
    (R := Manifest.RanksBefore rank) (f := set.item) (g := set'.item)
    (fun _ _ hij => hij) (fun _ _ hij => hij) hcandidates
    (fun a b ha hb hab hba => by
      obtain ⟨i, -, rfl⟩ := List.mem_map.mp ha
      obtain ⟨j, -, rfl⟩ := List.mem_map.mp hb
      exact congrArg set.item (eq_of_ranksBefore hnames hab hba))
  show ((Insertion.sort set.shouldShift _).take outCap).map set.item
    = ((Insertion.sort set'.shouldShift _).take outCap).map set'.item
  rw [List.map_take, List.map_take]
  exact congrArg (List.take outCap) hsort

end ManifestSet

-- ============================================================ the directory

/-- The manifests of a directory that share no name, listed in two orders:
they load in both or in neither; every request resolves in both or in
neither, and to the same manifests; and the alternatives for a slot rank
the same, when slots and architectures are terminated. -/
theorem listing_order [DoubleArith F] [DoubleText F] {L : Type}
    [LinearOrder L] (rank : F → L) (dirPath : List UInt8)
    {entries entries' : List DirEntry} (hperm : entries.Perm entries') :
    let load (es : List DirEntry) : Except ParseIssue (LoadedSet F) :=
      obicallManifestLoadDir dirPath (some es)
    ((∃ set, load entries = .ok set) ↔ ∃ set, load entries' = .ok set)
    ∧ ∀ set set' : LoadedSet F,
      load entries = .ok set → load entries' = .ok set' →
      set.toSet.names.Nodup →
      (∀ requested,
        (set.toSet.obicallManifestResolve requested).isOk
          = (set'.toSet.obicallManifestResolve requested).isOk
        ∧ ∀ plan plan',
          set.toSet.obicallManifestResolve requested = .ok plan →
          set'.toSet.obicallManifestResolve requested = .ok plan' →
          (plan.map set.toSet.item).Perm (plan'.map set'.toSet.item))
      ∧ (set.toSet.Terminated → ManifestSet.ScoresRanked set.toSet rank →
        ∀ tail tail' capabilitySlot hostArchitecture outCap,
          (set.toSet.obicallManifestRankAlternatives tail capabilitySlot
              hostArchitecture outCap).map set.toSet.item
            = (set'.toSet.obicallManifestRankAlternatives tail'
                capabilitySlot hostArchitecture outCap).map
                set'.toSet.item) := by
  intro load
  refine ⟨⟨?_, ?_⟩, fun set set' h h' hnames => ?_⟩
  · rintro ⟨set, h⟩
    obtain ⟨set', h', -⟩ := loadDir_perm hperm h
    exact ⟨set', h'⟩
  · rintro ⟨set', h'⟩
    obtain ⟨set, h, -⟩ := loadDir_perm hperm.symm h'
    exact ⟨set, h⟩
  · obtain ⟨loaded, hloaded, hval⟩ := loadDir_perm hperm h
    obtain rfl : loaded = set' := Except.ok.inj (hloaded.symm.trans h')
    have hsets : set.toSet.val.Perm loaded.toSet.val := hval.map _
    refine ⟨fun requested => ⟨ManifestSet.isOk_resolve_perm hsets hnames
      requested, fun plan plan' hplan hplan' => ?_⟩,
      fun hterm hranked =>
        ManifestSet.rank_perm hsets hnames hterm hranked⟩
    obtain ⟨plan'', hplan'', hsame⟩ :=
      ManifestSet.resolve_perm hsets hnames hplan
    obtain rfl : plan'' = plan' := Except.ok.inj (hplan''.symm.trans hplan')
    exact hsame

/-- A manifest of the name and the preference score in the text. -/
def slotManifest (name score : String) : DirEntry where
  name := ascii name ++ ascii ".manifest.json"
  content := some (ascii "\x7b\"schema_version\":1,\"name\":\""
    ++ ascii name ++ ascii "\",\"language\":\"c\",\"artifact_path\":\"p\","
    ++ ascii "\"abi_version_major\":1,\"capability_slot\":\"s\","
    ++ ascii "\"preference_score\":" ++ ascii score ++ ascii "\x7d")

theorem listing_order_swapped :
    ∃ set set' : LoadedSet Binary64,
      obicallManifestLoadDir (ascii "m")
          (some [slotManifest "a" "2", slotManifest "b" "1"]) = .ok set
      ∧ obicallManifestLoadDir (ascii "m")
          (some [slotManifest "b" "1", slotManifest "a" "2"]) = .ok set'
      ∧ (set.toSet.obicallManifestRankAlternatives (fun _ => ⟨[], []⟩)
          (ascii "s") none 2).map set.toSet.item
        = (set'.toSet.obicallManifestRankAlternatives (fun _ => ⟨[1], [1]⟩)
            (ascii "s") none 2).map set'.toSet.item := by
  have hlist := listing_order (F := Binary64) Binary64.order (ascii "m")
    (List.Perm.swap (slotManifest "b" "1") (slotManifest "a" "2") [])
  -- what the two manifests are loaded as
  have hload : (obicallManifestLoadDir (F := Binary64) (ascii "m") (some
      [slotManifest "a" "2", slotManifest "b" "1"])).toOption.map
        (fun set => (set.toSet.names, set.toSet.val.map fun m =>
          (m.preferenceScore.isNan, m.architecture.contains 0,
            m.capabilitySlot.contains 0)))
      = some ([ascii "a", ascii "b"],
        [(false, true, true), (false, true, true)]) := by
    decide +kernel
  obtain ⟨set, hset, hfacts⟩ := Option.map_eq_some_iff.mp hload
  have hok : obicallManifestLoadDir (ascii "m")
      (some [slotManifest "a" "2", slotManifest "b" "1"]) = .ok set := by
    cases h : obicallManifestLoadDir (F := Binary64) (ascii "m")
        (some [slotManifest "a" "2", slotManifest "b" "1"]) with
    | error issue =>
        rw [h] at hset
        cases hset
    | ok loaded =>
        rw [h] at hset
        cases hset
        rfl
  obtain ⟨set', hok'⟩ := hlist.1.mp ⟨set, hok⟩
  have hnames : set.toSet.names.Nodup := by
    rw [(Prod.mk.inj hfacts).1]
    decide
  have hitems : ∀ i, (set.toSet.item i).preferenceScore.isNan = false
      ∧ (set.toSet.item i).architecture.contains 0 = true
      ∧ (set.toSet.item i).capabilitySlot.contains 0 = true := by
    intro i
    have hmem := List.mem_map_of_mem (f := fun m : Manifest Binary64 =>
      (m.preferenceScore.isNan, m.architecture.contains 0,
        m.capabilitySlot.contains 0)) (ManifestSet.item_mem i)
    rw [(Prod.mk.inj hfacts).2] at hmem
    simpa using hmem
  have hterm : set.toSet.Terminated :=
    ⟨fun i => Vector.contains_iff_mem.mp (hitems i).2.1,
      fun i => Vector.contains_iff_mem.mp (hitems i).2.2⟩
  exact ⟨set, set', hok, hok', (hlist.2 set set' hok hok' hnames).2 hterm
    (ManifestSet.scoresRanked_of_not_isNan fun i => (hitems i).1) _ _ _ _ _⟩

end Obicall
