/-
The selector does not oscillate. Each decision's hysteresis goes into the
next call, so a run of decisions is a selector with a memory, and it
stands by what it selects: the best action is still the best, and an
action held once is held again. The selection then changes no oftener
than the eligibility does, the first decision apart
(`selection_changes_le`).
-/
import Mathlib.Data.List.Basic
import Obicall.Dgt.Proofs.Minimax
import Obicall.Lib.Hysteresis

namespace Obicall

open Lib.Hysteresis

-- ================================================================== runs

section runs

variable {F : Type} [DoubleArith F]

/-- One decision after the other, each given the hysteresis state that
the one before left. -/
def DgtPolicyTable.decisions (t : DgtPolicyTable F) (margin : F)
    (baseline : UInt32) :
    Option (DgtHysteresisState F) → List DgtEligibility →
      List (DgtDecision F)
  | _, [] => []
  | hin, elig :: eligs =>
      let (_, d, hout) := obicallDgtSelectAction t elig hin margin baseline
      d :: t.decisions margin baseline (some hout) eligs

/-- The hysteresis state that a decision leaves. -/
def DgtPolicyTable.remember (t : DgtPolicyTable F) (margin : F)
    (baseline : UInt32) (elig : DgtEligibility)
    (hin : Option (DgtHysteresisState F)) : DgtHysteresisState F :=
  (obicallDgtSelectAction t elig hin margin baseline).2.2

/-- The action that a hysteresis state remembers. -/
def previousIndex {F : Type} (hin : Option (DgtHysteresisState F)) :
    Option UInt32 :=
  hin.bind fun h => if h.hasPrevious then some h.previousActionIndex else none

/-- An action that is selected can be held. -/
theorem heldLoss_of_candidate {t : DgtPolicyTable F} {elig : DgtEligibility}
    {p : UInt32 × F} (h : t.Candidate elig p) :
    t.heldLoss elig (some ⟨true, p.1, p.2⟩) = some p :=
  heldLoss_eq_some_iff.mpr ⟨_, rfl, rfl, rfl, h⟩

theorem settle_candidate {t : DgtPolicyTable F} {elig : DgtEligibility}
    {best : UInt32 × F} (hbest : (t.bestOf elig).best = some best)
    (hin : Option (DgtHysteresisState F)) (margin : F) :
    t.Candidate elig
      (DgtPolicyTable.settle margin best (t.heldLoss elig hin)) := by
  cases hheld : t.heldLoss elig hin with
  | none => exact candidate_bestOf hbest
  | some held =>
      obtain ⟨-, -, -, -, hcand⟩ := heldLoss_eq_some_iff.mp hheld
      rw [DgtPolicyTable.settle]
      split
      · exact candidate_bestOf hbest
      · exact hcand

/-- What is settled on is settled on again. -/
theorem settle_settle (margin : F) (best : UInt32 × F)
    (held : Option (UInt32 × F)) :
    DgtPolicyTable.settle margin best
        (some (DgtPolicyTable.settle margin best held))
      = DgtPolicyTable.settle margin best held := by
  cases held with
  | none =>
      -- the best action against itself
      rw [DgtPolicyTable.settle, DgtPolicyTable.settle]
      exact ite_self _
  | some held =>
      cases hlt : DoubleArith.lt best.2 (held.2 * (1.0 - margin)) with
      | true =>
          simp only [DgtPolicyTable.settle, hlt, if_true]
          exact ite_self _
      | false => simp [DgtPolicyTable.settle, hlt]

/-- With something to select, the selector stands by its selection. -/
theorem steady_remember {t : DgtPolicyTable F}
    (hvalid : obicallDgtValidateTable t = .ok ()) {elig : DgtEligibility}
    {best : UInt32 × F} (hbest : (t.bestOf elig).best = some best)
    (margin : F) (baseline : UInt32) :
    Steady (t.remember margin baseline) elig := by
  intro hin
  have hselect : ∀ hin, t.remember margin baseline elig hin
      = ⟨true, (DgtPolicyTable.settle margin best (t.heldLoss elig hin)).1,
        (DgtPolicyTable.settle margin best (t.heldLoss elig hin)).2⟩ := by
    intro hin
    obtain ⟨hold, hselect⟩ :=
      obicallDgtSelectAction_settle hvalid hbest hin margin baseline
    rw [DgtPolicyTable.remember, hselect]
    rfl
  rw [hselect (some _), hselect hin,
    heldLoss_of_candidate (settle_candidate hbest hin margin), settle_settle]

/-- The actions decided on are the ones remembered. -/
theorem decisions_index {t : DgtPolicyTable F}
    (hvalid : obicallDgtValidateTable t = .ok ()) (margin : F)
    (baseline : UInt32) {eligs : List DgtEligibility}
    (hsome : ∀ elig ∈ eligs, (t.bestOf elig).best ≠ none)
    (hin : Option (DgtHysteresisState F)) :
    (t.decisions margin baseline hin eligs).map (·.selectedActionIndex)
        = (selections (t.remember margin baseline) hin eligs).map
          (·.previousActionIndex)
      ∧ ∀ h ∈ selections (t.remember margin baseline) hin eligs,
        h.hasPrevious = true := by
  induction eligs generalizing hin with
  | nil => exact ⟨rfl, fun h hh => nomatch hh⟩
  | cons elig eligs ih =>
      obtain ⟨hfirst, hrest⟩ := List.forall_mem_cons.mp hsome
      obtain ⟨best, hbest⟩ := Option.ne_none_iff_exists'.mp hfirst
      obtain ⟨hold, hselect⟩ :=
        obicallDgtSelectAction_settle hvalid hbest hin margin baseline
      rw [DgtPolicyTable.decisions, selections, DgtPolicyTable.remember,
        hselect, List.map_cons, List.map_cons]
      obtain ⟨hindex, hprevious⟩ := ih hrest _
      exact ⟨congrArg _ hindex, List.forall_mem_cons.mpr ⟨rfl, hprevious⟩⟩

end runs

-- ============================================================ exact numbers

variable {K : Type} [Field K] [LinearOrder K] [SquareRoot K]

/-- In exact arithmetic, from a table that passes its check, with an
eligible action at every step: counted from what was remembered before
the first decision, the selected action changes at most once more often
than the eligibility, and under a constant one every decision is the
same. -/
theorem selection_changes_le {t : DgtPolicyTable K}
    (hvalid : obicallDgtValidateTable t = .ok ()) (margin : K)
    (baseline : UInt32) (hin : Option (DgtHysteresisState K))
    {eligs : List DgtEligibility}
    (hsome : ∀ elig ∈ eligs, ∃ a, t.Eligible elig a) :
    changes (previousIndex hin :: (t.decisions margin baseline hin eligs).map
        fun d => some d.selectedActionIndex) ≤ changes eligs + 1
      ∧ ∀ elig n, eligs = List.replicate n elig →
        ∃ a, (t.decisions margin baseline hin eligs).map
          (fun d => d.selectedActionIndex) = List.replicate n a := by
  have hbest : ∀ elig ∈ eligs, (t.bestOf elig).best ≠ none := by
    intro elig helig
    obtain ⟨a, w, hbest, -⟩ := best_of_eligible hvalid (hsome elig helig)
    rw [hbest]
    exact Option.some_ne_none _
  have hsteady : ∀ elig ∈ eligs, Steady (t.remember margin baseline) elig := by
    intro elig helig
    obtain ⟨best, hb⟩ := Option.ne_none_iff_exists'.mp (hbest elig helig)
    exact steady_remember hvalid hb margin baseline
  obtain ⟨hindex, hprevious⟩ := decisions_index hvalid margin baseline hbest hin
  constructor
  · have hchanges := changes_map_le previousIndex
      (hin :: (selections (t.remember margin baseline) hin eligs).map some)
    have hsame : (t.decisions margin baseline hin eligs).map
          (fun d => some d.selectedActionIndex)
        = ((selections (t.remember margin baseline) hin eligs).map some).map
          previousIndex := by
      have hsome := congrArg (List.map some) hindex
      rw [List.map_map, List.map_map] at hsome
      refine hsome.trans ?_
      rw [List.map_map]
      refine List.map_congr_left fun h hh => ?_
      simp [previousIndex, hprevious h hh]
    rw [hsame]
    exact hchanges.trans (changes_selections_le hin hsteady)
  · rintro elig n rfl
    cases n with
    | zero => exact ⟨0, rfl⟩
    | succ n =>
        have hkept := hsteady elig
          (List.mem_replicate.mpr ⟨n.succ_ne_zero, rfl⟩)
        rw [hindex, selections_replicate hkept hin, List.map_replicate]
        exact ⟨_, rfl⟩

/-- The first action is not eligible for a while. -/
def firstDropped : List DgtEligibility :=
  [allEligible, allEligible.set 0 false, allEligible]

/-- It is dropped, and not taken up again. -/
theorem selection_changes_le_dropped :
    (twoActions.decisions (3 / 4) 0 (some ⟨true, 0, 2⟩) firstDropped).map
        (fun d => d.selectedActionIndex) = [0, 1, 1]
      ∧ changes (previousIndex (some ⟨true, 0, (2 : ℚ)⟩)
        :: (twoActions.decisions (3 / 4) 0 (some ⟨true, 0, 2⟩)
          firstDropped).map fun d => some d.selectedActionIndex)
        ≤ changes firstDropped + 1 := by
  have hvalid : obicallDgtValidateTable twoActions = .ok () := by
    decide +kernel
  have hsecond : ∀ elig ∈ firstDropped, elig.eligible 1 = true :=
    List.forall_mem_cons.mpr ⟨rfl, List.forall_mem_cons.mpr
      ⟨rfl, List.forall_mem_singleton.mpr rfl⟩⟩
  have hin : (1 : UInt32) < twoActions.actionCount := by decide +kernel
  have hsome : ∀ elig ∈ firstDropped, ∃ a, twoActions.Eligible elig a :=
    fun elig helig => ⟨1, hin, hsecond elig helig⟩
  refine ⟨by decide +kernel, ?_⟩
  exact (selection_changes_le hvalid (3 / 4) 0 (some ⟨true, 0, 2⟩) hsome).1

end Obicall
