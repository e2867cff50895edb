/-
What the ranking answers: of the manifests that are eligible for a slot
on a host, each once, the first ones by score and name.

A slot and an architecture are compared as far as `strcmp` reads them,
which is as far as they go when they are terminated (`Terminated`).

Scores are doubles, and what the ranking needs of them is that they are
compared by a total order; of doubles that are not NaN that is the order
of their values (`scoresRanked_of_not_isNan`). The insertion sort is
the one of `Lib.Insertion`, and its test decides that order with names
as the second key (`decides_shouldShift`).
-/
import Mathlib.Data.List.Nodup
import Obicall.Core.Binary64
import Obicall.Core.Manifest
import Obicall.Lib.Insertion

namespace Obicall

open DoubleArith Lib

namespace ManifestSet

variable {F : Type} (set : ManifestSet F)

-- ============================================================ eligibility

/-- The manifest at `i` can fill the slot on the host. -/
structure Eligible (capabilitySlot : List UInt8)
    (hostArchitecture : Option (List UInt8)) (i : set.Place) : Prop where
  slot_ne : cString (set.item i).capabilitySlot ≠ []
  slot : cString (set.item i).capabilitySlot = capabilitySlot
  architecture : cString (set.item i).architecture = []
    ∨ ∀ host ∈ hostArchitecture, cString (set.item i).architecture = host
  abiMajor : (set.item i).abiVersionMajor = Obicall.abiVersionMajor
  abiMinor : (set.item i).abiVersionMinor ≤ Obicall.abiVersionMinor
  resolves : ∃ order,
    set.obicallManifestResolve [cString (set.item i).name] = .ok order

/-- The strings of the items that a loader may leave without a `NUL` have
one. -/
structure Terminated : Prop where
  architecture : ∀ i, 0 ∈ (set.item i).architecture
  capabilitySlot : ∀ i, 0 ∈ (set.item i).capabilitySlot

variable {set}

theorem eligible_iff (hterm : set.Terminated) {tail : set.Place → ItemTail}
    {capabilitySlot : List UInt8} {hostArchitecture : Option (List UInt8)}
    {i : set.Place} :
    set.eligible tail capabilitySlot hostArchitecture i = true
      ↔ set.Eligible capabilitySlot hostArchitecture i := by
  have hslot := textIn_of_mem (hterm.capabilitySlot i)
    (tail i).capabilitySlot
  have harchitecture := textIn_of_mem (hterm.architecture i)
    (tail i).architecture
  have hresolves : (set.obicallManifestResolve [cString (set.item i).name]).isOk
        = true
      ↔ ∃ order, set.obicallManifestResolve [cString (set.item i).name]
        = .ok order := by
    cases set.obicallManifestResolve [cString (set.item i).name] with
    | ok order => simp [Except.isOk, Except.toBool]
    | error issue => simp [Except.isOk, Except.toBool]
  have hall : set.eligible tail capabilitySlot hostArchitecture i = true
      ↔ ((((cString (set.item i).capabilitySlot ≠ []
        ∧ cString (set.item i).capabilitySlot = capabilitySlot)
        ∧ (cString (set.item i).architecture = []
          ∨ ∀ host ∈ hostArchitecture,
            cString (set.item i).architecture = host))
        ∧ (set.item i).abiVersionMajor = Obicall.abiVersionMajor)
        ∧ (set.item i).abiVersionMinor ≤ Obicall.abiVersionMinor)
        ∧ ∃ order, set.obicallManifestResolve [cString (set.item i).name]
          = .ok order := by
    cases hostArchitecture with
    | none => simp [eligible, hslot, harchitecture, hresolves]
    | some host => simp [eligible, hslot, harchitecture, hresolves]
  rw [hall]
  constructor
  · rintro ⟨⟨⟨⟨⟨hne, hslot⟩, harch⟩, hmajor⟩, hminor⟩, hres⟩
    exact ⟨hne, hslot, harch, hmajor, hminor, hres⟩
  · rintro ⟨hne, hslot, harch, hmajor, hminor, hres⟩
    exact ⟨⟨⟨⟨⟨hne, hslot⟩, harch⟩, hmajor⟩, hminor⟩, hres⟩

-- ================================================================== order

variable {L : Type} [DoubleArith F] [LinearOrder L]

/-- The scores of a set are compared by the order of their ranks. -/
structure ScoresRanked (set : ManifestSet F) (rank : F → L) : Prop where
  lt : ∀ i j : set.Place,
    lt (set.item i).preferenceScore (set.item j).preferenceScore
      = decide (rank (set.item i).preferenceScore
        < rank (set.item j).preferenceScore)
  eq : ∀ i j : set.Place,
    eq (set.item i).preferenceScore (set.item j).preferenceScore
      = decide (rank (set.item i).preferenceScore
        = rank (set.item j).preferenceScore)

/-- By ascending score, equal scores by ascending name. -/
def RanksBefore (set : ManifestSet F) (rank : F → L) (i j : set.Place) : Prop :=
  rank (set.item i).preferenceScore < rank (set.item j).preferenceScore
    ∨ rank (set.item i).preferenceScore = rank (set.item j).preferenceScore
      ∧ cString (set.item i).name ≤ cString (set.item j).name

theorem decides_shouldShift {rank : F → L} (h : ScoresRanked set rank) :
    Insertion.Decides set.shouldShift (set.RanksBefore rank) where
  trans := by
    rintro x y z (hxy | ⟨hxy, hname⟩) (hyz | ⟨hyz, hname'⟩)
    · exact .inl (hxy.trans hyz)
    · exact .inl (hyz ▸ hxy)
    · exact .inl (hxy ▸ hyz)
    · exact .inr ⟨hxy.trans hyz, List.le_trans hname hname'⟩
  of_behind := by
    intro key cur hshift
    rw [shouldShift, h.lt, h.eq, Bool.or_eq_true, Bool.and_eq_true,
      decide_eq_true_eq, decide_eq_true_eq, decide_eq_true_eq] at hshift
    rcases hshift with hlt | ⟨heq, hname⟩
    · exact .inl hlt
    · exact .inr ⟨heq.symm, List.le_of_lt hname⟩
  of_not_behind := by
    intro key cur hstay
    rw [shouldShift, h.lt, h.eq, Bool.or_eq_false_iff, Bool.and_eq_false_iff,
      decide_eq_false_iff_not, decide_eq_false_iff_not,
      decide_eq_false_iff_not] at hstay
    obtain ⟨hle, hname⟩ := hstay
    rcases lt_or_eq_of_le (not_lt.mp hle) with hlt | heq
    · exact .inl hlt
    · exact .inr ⟨heq, List.not_lt.mp (hname.resolve_left (not_not.mpr heq))⟩

/-- Doubles that are not NaN are compared by their values. -/
theorem scoresRanked_of_not_isNan {set : ManifestSet Binary64}
    (h : ∀ i, (set.item i).preferenceScore.isNan = false) :
    ScoresRanked set Binary64.order where
  lt i j := by
    show Binary64.compare _ _ _ = _
    rw [Binary64.compare, h i, h j]
    rfl
  eq i j := by
    show Binary64.compare _ _ _ = _
    rw [Binary64.compare, h i, h j]
    rfl

-- ================================================================= result

/-- The ranking is the beginning of the list of exactly the eligible
manifests, each once, by ascending score with equal scores by name, whatever
is in memory behind their strings. -/
theorem rankAlternatives_exact (set : ManifestSet F) (hterm : set.Terminated)
    (rank : F → L) (h : ScoresRanked set rank) (tail : set.Place → ItemTail)
    (capabilitySlot : List UInt8) (hostArchitecture : Option (List UInt8))
    (outCap : Nat) :
    ∃ ranked : List set.Place,
      ranked.Nodup
        ∧ (∀ i, i ∈ ranked ↔ set.Eligible capabilitySlot hostArchitecture i)
        ∧ ranked.Pairwise (set.RanksBefore rank)
        ∧ set.obicallManifestRankAlternatives tail capabilitySlot
            hostArchitecture outCap = ranked.take outCap := by
  have hperm := @Insertion.sort_perm _ set.shouldShift
    ((List.finRange set.val.length).filter
      (set.eligible tail capabilitySlot hostArchitecture))
  refine ⟨_, hperm.nodup_iff.mpr ((List.nodup_finRange _).filter _),
    fun i => ?_, (decides_shouldShift h).pairwise_sort _, rfl⟩
  rw [hperm.mem_iff, List.mem_filter, eligible_iff hterm]
  exact and_iff_right (List.mem_finRange i)

end ManifestSet

/-- A manifest without dependencies for the slot `s`. -/
def alternative (name : UInt8) (score : Binary64) : Manifest Binary64 where
  name := (Vector.replicate 64 0).set 0 name
  abiVersionMajor := 1
  abiVersionMinor := 0
  architecture := Vector.replicate 16 0
  capabilitySlot := (Vector.replicate 64 0).set 0 0x73
  preferenceScore := score
  dependencies := ⟨[], by decide⟩

/-- Two alternatives, the better one last. -/
def twoAlternatives : ManifestSet Binary64 :=
  ⟨[alternative 0x61 2.5, alternative 0x62 1.5],
    (by decide : 2 ≤ maxManifests)⟩

/-- With a letter behind every string of theirs. -/
theorem ManifestSet.rankAlternatives_exact_two :
    ∃ ranked : List twoAlternatives.Place,
      ranked.Nodup
        ∧ (∀ i, i ∈ ranked ↔ twoAlternatives.Eligible [0x73] none i)
        ∧ ranked.Pairwise (twoAlternatives.RanksBefore Binary64.order)
        ∧ twoAlternatives.obicallManifestRankAlternatives
            (fun _ => ⟨[0x61], [0x61]⟩) [0x73] none 2 = ranked.take 2 :=
  rankAlternatives_exact twoAlternatives
    ⟨by decide +kernel, by decide +kernel⟩ Binary64.order
    (scoresRanked_of_not_isNan (by decide +kernel)) _ [0x73] none 2

end Obicall
