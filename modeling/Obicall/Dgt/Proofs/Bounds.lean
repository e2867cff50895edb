/-
Where the selector reads: the indices of `obicall_dgt_select_action` into
`actions[]`, `action_eligible[]` and `cost[][]`.

# Checked tables

The selector is run once more with reads that know where the arrays end:
an index past 16 ends the run (`none`). A run that reaches its end gives
what the plain one gives.

# What is out of bounds

A table that passes its check has its counts within the arrays, and then
so is every index: those of the loops are below a count, and the held
action is tested against one. The fallback is for tables that fail their
check, and has no other bound than their counts. `select_baseline` tests
the baseline against `action_count` before it reads `action_eligible`,
and the scenario loop runs to `scenario_count`, or to the first loss that
is not finite, whatever these counts are (`reads_in_bounds_iff`).
-/
import Obicall.Core.Binary64
import Obicall.Core.Dgt
import Obicall.Lib.Checked

namespace Obicall

open DoubleArith Lib.Checked

variable {F : Type}

-- ======================================================== checked memory

/-- `actions[a]`. -/
def DgtPolicyTable.readAction (t : DgtPolicyTable F) (a : UInt32) :
    Option DgtAction :=
  t.actions[a.toNat]?

/-- `action_eligible[a]`. -/
def DgtEligibility.read (elig : DgtEligibility) (a : UInt32) : Option Bool :=
  elig[a.toNat]?

/-- `cost[a][s]`. -/
def DgtPolicyTable.readCost (t : DgtPolicyTable F) (a s : Nat) :
    Option (DgtCostComponents F) :=
  t.cost[a]?.bind fun row => row[s]?

variable [DoubleArith F]

-- ====================================================== checked selection

/-- The loops of `obicall_dgt_validate_table` over the costs. -/
def DgtPolicyTable.checkedCostsOk (t : DgtPolicyTable F) : Option Bool :=
  (List.range t.actionCount.toNat).allM fun a =>
    (List.range t.scenarioCount.toNat).allM fun s =>
      (t.readCost a s).map fun c => c.toList.all finiteNonneg

/-- `obicall_dgt_validate_table`. -/
def checkedDgtValidateTable (t : DgtPolicyTable F) :
    Option (Except (Status × String) Unit) :=
  if t.structSize ≠ sizeofDgtPolicyTable then
    some (.error (.errInvalidArgument, "struct_size mismatch"))
  else if t.schemaVersion ≠ dgtPolicySchemaVersion then
    some (.error (.errUnsupported, "unsupported policy schema_version"))
  else if t.actionCount = 0 || dgtMaxActions < t.actionCount.toNat then
    some (.error (.errInvalidArgument, "action_count out of range"))
  else if t.scenarioCount = 0 || dgtMaxScenarios < t.scenarioCount.toNat then
    some (.error (.errInvalidArgument, "scenario_count out of range"))
  else if !t.weights.toList.all finiteNonneg then
    some (.error (.errDgtInvalidScore, "weight is non-finite or negative"))
  else if !t.weights.toList.any (lt 0.0 ·) then
    some (.error (.errDgtInvalidScore,
      "at least one weight must be positive"))
  else if !t.scales.all finitePositive then
    some (.error (.errDgtInvalidScore,
      "normalization scale must be finite and positive"))
  else t.checkedCostsOk.map fun ok =>
    if !ok then
      .error (.errDgtInvalidScore,
        "cost component is non-finite or negative")
    else .ok ()

/-- One turn of the scenario loop reads the costs first. -/
def DgtPolicyTable.checkedWorse (t : DgtPolicyTable F) (a : Nat)
    (worst : Option F) (s : Nat) : ExceptT Status Option (Option F) :=
  .mk ((t.readCost a s).map fun _ => t.worse a worst s)

/-- `obicall_dgt_action_worst_case_loss`. -/
def checkedDgtActionWorstCaseLoss (t : DgtPolicyTable F) (a : UInt32) :
    Option (Except Status F) :=
  if t.actionCount ≤ a then some (.error .errOutOfRange)
  else
    ((List.range t.scenarioCount.toNat).foldlM (t.checkedWorse a.toNat)
      none).run.map fun
      | .error st => .error st
      | .ok none => .error .errDgtInvalidScore
      | .ok (some worst) => .ok worst

/-- The outputs for a selected action, whose id is read. -/
def DgtPolicyTable.checkedSelected (t : DgtPolicyTable F) (a : UInt32)
    (loss : F) (eligibleCount : UInt32) (baseline hold : Bool) :
    Option (Status × DgtDecision F × DgtHysteresisState F) :=
  (t.readAction a).map fun _ =>
    (.ok, t.selected a loss eligibleCount baseline hold)

/-- `select_baseline`. -/
def checkedSelectBaseline (t : DgtPolicyTable F) (elig : DgtEligibility)
    (baseline : UInt32) :
    Option (Status × DgtDecision F × DgtHysteresisState F) :=
  if t.actionCount ≤ baseline then
    some (.errDgtNoEligibleAction, .zero F, .zero F)
  else do
    if !(← elig.read baseline) then
      some (.errDgtNoEligibleAction, .zero F, .zero F)
    else match ← checkedDgtActionWorstCaseLoss t baseline with
      | .error _ => some (.errDgtNoEligibleAction, .zero F, .zero F)
      | .ok loss => t.checkedSelected baseline loss 1 true false

/-- The best so far, or an action with its loss: the ids are read on a
tie. -/
def DgtPolicyTable.checkedBetter (t : DgtPolicyTable F) (a : UInt32)
    (loss : F) : Option (UInt32 × F) → Option (UInt32 × F)
  | none => some (a, loss)
  | some (i, bestLoss) =>
      if lt loss bestLoss then some (a, loss)
      else if eq loss bestLoss then do
        let x ← t.readAction a
        let y ← t.readAction i
        some (if x.actionId < y.actionId then (a, loss) else (i, bestLoss))
      else some (i, bestLoss)

/-- The same on plain tables. -/
def DgtPolicyTable.better (t : DgtPolicyTable F) (a : UInt32) (loss : F) :
    Option (UInt32 × F) → Option (UInt32 × F)
  | none => some (a, loss)
  | some (i, bestLoss) =>
      if lt loss bestLoss || (eq loss bestLoss
          && (t.action a).actionId < (t.action i).actionId) then
        some (a, loss)
      else some (i, bestLoss)

/-- One turn of the loop over the actions. -/
def DgtPolicyTable.checkedConsider (t : DgtPolicyTable F)
    (elig : DgtEligibility) (b : DgtBest F) (a : UInt32) :
    Option (DgtBest F) := do
  if !(← elig.read a) then some b
  else match ← checkedDgtActionWorstCaseLoss t a with
    | .error _ => some b
    | .ok loss => (t.checkedBetter a loss b.best).map fun best =>
        { eligibleCount := b.eligibleCount + 1, best := some best }

/-- The loop. -/
def DgtPolicyTable.checkedBestOf (t : DgtPolicyTable F)
    (elig : DgtEligibility) : Option (DgtBest F) :=
  ((List.range t.actionCount.toNat).map UInt32.ofNat).foldlM
    (t.checkedConsider elig) ⟨0, none⟩

/-- The loss of the previously selected action, where it can still be
held. -/
def DgtPolicyTable.checkedHeldLoss (t : DgtPolicyTable F)
    (elig : DgtEligibility) (hysteresisIn : Option (DgtHysteresisState F)) :
    Option (Option (UInt32 × F)) :=
  match hysteresisIn with
  | none => some none
  | some h =>
      if h.hasPrevious && h.previousActionIndex < t.actionCount then do
        if ← elig.read h.previousActionIndex then
          (checkedDgtActionWorstCaseLoss t h.previousActionIndex).map fun
            | .error _ => none
            | .ok loss => some (h.previousActionIndex, loss)
        else some none
      else some none

/-- `obicall_dgt_select_action`. -/
def checkedDgtSelectAction (t : DgtPolicyTable F) (elig : DgtEligibility)
    (hysteresisIn : Option (DgtHysteresisState F)) (hysteresisMargin : F)
    (baseline : UInt32) :
    Option (Status × DgtDecision F × DgtHysteresisState F) := do
  match ← checkedDgtValidateTable t with
  | .error _ => checkedSelectBaseline t elig baseline
  | .ok _ =>
      let b ← t.checkedBestOf elig
      match b.best with
      | none => checkedSelectBaseline t elig baseline
      | some (best, bestLoss) =>
          match ← t.checkedHeldLoss elig hysteresisIn with
          | none =>
              t.checkedSelected best bestLoss b.eligibleCount false false
          | some (prev, prevLoss) =>
              if lt bestLoss (prevLoss * (1.0 - hysteresisMargin)) then
                t.checkedSelected best bestLoss b.eligibleCount false false
              else
                t.checkedSelected prev prevLoss b.eligibleCount false
                  (prev != best)

-- ================================================================= reads

section Reads

variable {t : DgtPolicyTable F} {elig : DgtEligibility} {a : UInt32}

omit [DoubleArith F] in
theorem readAction_eq (h : a.toNat < dgtMaxActions) :
    t.readAction a = some (t.action a) := by
  rw [DgtPolicyTable.readAction, DgtPolicyTable.action,
    Vector.getElem?_eq_getElem h]
  simp [Vector.getD, h]

theorem checkedRead_eq (h : a.toNat < dgtMaxActions) :
    elig.read a = some (elig.eligible a) := by
  rw [DgtEligibility.read, DgtEligibility.eligible,
    Vector.getElem?_eq_getElem h]
  simp [Vector.getD, h]

theorem read_past (h : dgtMaxActions ≤ a.toNat) : elig.read a = none :=
  Vector.getElem?_eq_none h

theorem readCost_eq {a s : Nat} (ha : a < dgtMaxActions)
    (hs : s < dgtMaxScenarios) : t.readCost a s = some (t.costAt a s) := by
  rw [DgtPolicyTable.costAt, DgtPolicyTable.readCost,
    Vector.getElem?_eq_getElem ha, Option.bind_some,
    Vector.getElem?_eq_getElem hs, Option.getD_some]

omit [DoubleArith F] in
theorem readCost_past {a s : Nat} (hs : dgtMaxScenarios ≤ s) :
    t.readCost a s = none := by
  rw [DgtPolicyTable.readCost]
  cases t.cost[a]? with
  | none => rfl
  | some row => exact Vector.getElem?_eq_none hs

end Reads

-- ================================================================ losses

section Losses

variable {t : DgtPolicyTable F} {a : Nat}

theorem checkedWorse_eq {s : Nat} (ha : a < dgtMaxActions)
    (hs : s < dgtMaxScenarios) (worst : Option F) :
    t.checkedWorse a worst s = .mk (some (t.worse a worst s)) := by
  rw [DgtPolicyTable.checkedWorse, readCost_eq ha hs]
  rfl

/-- As long as the scenarios are within the array, the loop is the plain
one. -/
theorem checkedWorse_foldlM {ss : List Nat} (ha : a < dgtMaxActions)
    (hss : ∀ s ∈ ss, s < dgtMaxScenarios) (worst : Option F) :
    (ss.foldlM (t.checkedWorse a) worst).run
      = some (ss.foldlM (t.worse a) worst) := by
  induction ss generalizing worst with
  | nil => rfl
  | cons s ss ih =>
      obtain ⟨hs, hss⟩ := List.forall_mem_cons.mp hss
      rw [List.foldlM_cons, List.foldlM_cons, checkedWorse_eq ha hs]
      cases t.worse a worst s with
      | error st => rfl
      | ok worst' => exact ih hss worst'

/-- A loop that is over by the end of the array is the plain one: it has
no further scenario, or has met a loss that is not finite. -/
theorem checkedWorse_range (ha : a < dgtMaxActions) {n : Nat}
    (h : n ≤ dgtMaxScenarios
      ∨ ∃ s < dgtMaxScenarios, isFinite (t.loss a s) = false) :
    ((List.range n).foldlM (t.checkedWorse a) none).run
      = some ((List.range n).foldlM (t.worse a) none) := by
  by_cases hn : n ≤ dgtMaxScenarios
  · refine checkedWorse_foldlM ha (fun s hs => ?_) none
    exact (List.mem_range.mp hs).trans_le hn
  · obtain ⟨s, hs, hinf⟩ := h.resolve_left hn
    obtain ⟨k, rfl⟩ := Nat.exists_eq_add_of_le (Nat.le_of_not_le hn)
    have hfirst := checkedWorse_foldlM (t := t) ha
      (fun s hs => List.mem_range.mp hs) none
    rw [List.range_add, List.foldlM_append, List.foldlM_append,
      ExceptT.run_bind, hfirst]
    cases hloop : (List.range dgtMaxScenarios).foldlM (t.worse a) none with
    | error st => rfl
    | ok w =>
        have hall := (worse_foldlM_ok_iff t a _ none).mp ⟨w, hloop⟩
        rw [hall s (List.mem_range.mpr hs)] at hinf
        cases hinf

/-- One that is not reads past it. -/
theorem checkedWorse_range_past (ha : a < dgtMaxActions) {n : Nat}
    (hn : dgtMaxScenarios < n)
    (hall : ∀ s < dgtMaxScenarios, isFinite (t.loss a s) = true) :
    ((List.range n).foldlM (t.checkedWorse a) none).run = none := by
  obtain ⟨k, rfl⟩ := Nat.exists_eq_add_of_lt hn
  have hfirst := checkedWorse_foldlM (t := t) ha
    (fun s hs => List.mem_range.mp hs) none
  obtain ⟨w, hw⟩ := (worse_foldlM_ok_iff t a (List.range dgtMaxScenarios)
    none).mpr fun s hs => hall s (List.mem_range.mp hs)
  have htail : (List.range (k + 1)).map (dgtMaxScenarios + ·)
      = dgtMaxScenarios
        :: ((List.range k).map Nat.succ).map (dgtMaxScenarios + ·) := by
    rw [List.range_succ_eq_map]
    rfl
  have hpast : t.checkedWorse a w dgtMaxScenarios = .mk none := by
    rw [DgtPolicyTable.checkedWorse, readCost_past (Nat.le_refl _)]
    rfl
  rw [Nat.add_assoc, List.range_add, htail, List.foldlM_append,
    ExceptT.run_bind, hfirst, hw]
  show ((_ :: _ : List Nat).foldlM (t.checkedWorse a) w).run = none
  rw [List.foldlM_cons, hpast]
  rfl

end Losses

section WorstCase

variable {t : DgtPolicyTable F} {a : UInt32} (ha : a.toNat < dgtMaxActions)
include ha

theorem checkedLoss_eq (h : t.scenarioCount.toNat ≤ dgtMaxScenarios
      ∨ ∃ s < dgtMaxScenarios, isFinite (t.loss a.toNat s) = false) :
    checkedDgtActionWorstCaseLoss t a
      = some (obicallDgtActionWorstCaseLoss t a) := by
  rw [checkedDgtActionWorstCaseLoss, obicallDgtActionWorstCaseLoss]
  split
  · rfl
  · rw [checkedWorse_range ha h]
    cases (List.range t.scenarioCount.toNat).foldlM (t.worse a.toNat) none with
    | error st => rfl
    | ok w =>
        cases w with
        | none => rfl
        | some w => rfl

theorem checkedLoss_past (hlt : a < t.actionCount)
    (hscen : dgtMaxScenarios < t.scenarioCount.toNat)
    (hall : ∀ s < dgtMaxScenarios, isFinite (t.loss a.toNat s) = true) :
    checkedDgtActionWorstCaseLoss t a = none := by
  rw [checkedDgtActionWorstCaseLoss, if_neg (UInt32.not_le.mpr hlt),
    checkedWorse_range_past ha hscen hall]
  rfl

end WorstCase

-- ============================================================= validation

/-- The counts of a table are within its arrays. -/
def DgtPolicyTable.Fits {F : Type} (t : DgtPolicyTable F) : Prop :=
  t.actionCount.toNat ≤ dgtMaxActions
    ∧ t.scenarioCount.toNat ≤ dgtMaxScenarios

theorem checkedCostsOk_eq {t : DgtPolicyTable F} (h : t.Fits) :
    t.checkedCostsOk = some t.costsOk := by
  refine allM_eq_some fun a ha => allM_eq_some fun s hs => ?_
  have ha : a < dgtMaxActions := (List.mem_range.mp ha).trans_le h.1
  have hs : s < dgtMaxScenarios := (List.mem_range.mp hs).trans_le h.2
  rw [readCost_eq ha hs]
  rfl

/-- The check itself stays in bounds: it looks at the counts before it
looks at the costs. -/
theorem checkedValidate_eq (t : DgtPolicyTable F) :
    checkedDgtValidateTable t = some (obicallDgtValidateTable t) := by
  rw [checkedDgtValidateTable, obicallDgtValidateTable]
  split
  · rfl
  split
  · rfl
  split
  · rfl
  next hactions =>
    split
    · rfl
    next hscen =>
      simp only [Bool.or_eq_true, decide_eq_true_eq, not_or, not_lt]
        at hactions hscen
      rw [checkedCostsOk_eq ⟨hactions.2, hscen.2⟩, Option.map_some]
      split
      · rfl
      split
      · rfl
      split
      · rfl
      · cases t.costsOk with
        | false => rfl
        | true => rfl

-- ============================================================== selection

omit [DoubleArith F] in
theorem checkedSelected_eq {t : DgtPolicyTable F} {a : UInt32}
    (h : a.toNat < dgtMaxActions) (loss : F) (n : UInt32)
    (baseline hold : Bool) :
    t.checkedSelected a loss n baseline hold
      = some (.ok, t.selected a loss n baseline hold) := by
  rw [DgtPolicyTable.checkedSelected, readAction_eq h, Option.map_some]

section Fitting

variable {t : DgtPolicyTable F} {elig : DgtEligibility} (hfits : t.Fits)
include hfits

omit [DoubleArith F] in
theorem index_lt {a : UInt32} (h : a < t.actionCount) :
    a.toNat < dgtMaxActions :=
  (UInt32.lt_iff_toNat_lt.mp h).trans_le hfits.1

theorem checkedLoss_of_fits {a : UInt32} (h : a < t.actionCount) :
    checkedDgtActionWorstCaseLoss t a
      = some (obicallDgtActionWorstCaseLoss t a) :=
  checkedLoss_eq (index_lt hfits h) (.inl hfits.2)

omit hfits in
/-- What a turn makes of the best so far. -/
theorem consider_best {b : DgtBest F} {a : UInt32} {loss : F}
    (helig : elig.eligible a = true)
    (hloss : obicallDgtActionWorstCaseLoss t a = .ok loss) :
    t.consider elig b a = ⟨b.eligibleCount + 1, t.better a loss b.best⟩ := by
  unfold DgtPolicyTable.consider
  rw [helig, hloss]
  rfl

theorem checkedBetter_eq {a : UInt32} (ha : a < t.actionCount) (loss : F)
    {best : Option (UInt32 × F)}
    (hbest : ∀ p, best = some p → t.Candidate elig p) :
    (t.checkedBetter a loss best).map some = some (t.better a loss best) := by
  cases best with
  | none => rfl
  | some p =>
      obtain ⟨i, bestLoss⟩ := p
      have hi := index_lt hfits (hbest _ rfl).1
      rw [DgtPolicyTable.checkedBetter, DgtPolicyTable.better,
        readAction_eq (index_lt hfits ha), readAction_eq hi]
      cases lt loss bestLoss with
      | true => rfl
      | false =>
          cases eq loss bestLoss with
          | false => rfl
          | true =>
              show (some (if _ then _ else _)).map some = _
              by_cases hid : (t.action a).actionId < (t.action i).actionId
              · simp [hid]
              · simp [hid]

theorem checkedConsider_eq {b : DgtBest F} {a : UInt32}
    (ha : a < t.actionCount)
    (hb : ∀ p, b.best = some p → t.Candidate elig p) :
    t.checkedConsider elig b a = some (t.consider elig b a) := by
  unfold DgtPolicyTable.checkedConsider
  rw [checkedRead_eq (index_lt hfits ha), checkedLoss_of_fits hfits ha]
  cases helig : elig.eligible a with
  | false =>
      rw [DgtPolicyTable.consider, helig]
      rfl
  | true =>
      cases hloss : obicallDgtActionWorstCaseLoss t a with
      | error st =>
          unfold DgtPolicyTable.consider
          rw [helig, hloss]
          rfl
      | ok loss =>
          obtain ⟨best, hbest, hsome⟩ :=
            Option.map_eq_some_iff.mp (checkedBetter_eq hfits ha loss hb)
          show (t.checkedBetter a loss b.best).map _ = _
          rw [consider_best helig hloss, hbest, ← hsome]
          rfl

theorem checkedBestOf_eq : t.checkedBestOf elig = some (t.bestOf elig) := by
  refine (foldlM_eq_some (P := fun b : DgtBest F =>
    ∀ p, b.best = some p → t.Candidate elig p)
    (fun b hb a ha => ?_) fun p hp => by cases hp).1
  have ha : a < t.actionCount := mem_actions_iff.mp ha
  exact ⟨checkedConsider_eq hfits ha hb, candidate_consider ha hb⟩

theorem checkedHeldLoss_eq (hin : Option (DgtHysteresisState F)) :
    t.checkedHeldLoss elig hin = some (t.heldLoss elig hin) := by
  cases hin with
  | none => rfl
  | some h =>
      rw [DgtPolicyTable.checkedHeldLoss, DgtPolicyTable.heldLoss]
      cases h.hasPrevious with
      | false => rfl
      | true =>
          by_cases hlt : h.previousActionIndex < t.actionCount
          · rw [checkedRead_eq (index_lt hfits hlt), checkedLoss_of_fits hfits hlt]
            simp only [hlt, decide_true, Bool.true_and]
            cases elig.eligible h.previousActionIndex with
            | false => rfl
            | true =>
                cases obicallDgtActionWorstCaseLoss t h.previousActionIndex with
                | error st => rfl
                | ok loss => rfl
          · simp [hlt]

/-- On a table that passes its check the selection stays in bounds. -/
theorem checkedSelect_of_valid (hvalid : obicallDgtValidateTable t = .ok ())
    (hin : Option (DgtHysteresisState F)) (margin : F) {baseline : UInt32}
    (hbase : checkedSelectBaseline t elig baseline
      = some (selectBaseline t elig baseline)) :
    checkedDgtSelectAction t elig hin margin baseline
      = some (obicallDgtSelectAction t elig hin margin baseline) := by
  unfold checkedDgtSelectAction obicallDgtSelectAction
  rw [checkedValidate_eq, hvalid, checkedBestOf_eq hfits,
    checkedHeldLoss_eq hfits]
  dsimp only [Option.bind_eq_bind, Option.bind_some]
  cases hbest : (t.bestOf elig).best with
  | none => exact hbase
  | some best =>
      have hlt := index_lt hfits (candidate_bestOf hbest).1
      dsimp only
      cases hheld : t.heldLoss elig hin with
      | none => exact checkedSelected_eq hlt ..
      | some held =>
          obtain ⟨-, -, -, -, hcandidate⟩ := heldLoss_eq_some_iff.mp hheld
          have hlt' := index_lt hfits hcandidate.1
          dsimp only
          split
          · exact checkedSelected_eq hlt ..
          · exact checkedSelected_eq hlt' ..

end Fitting

-- =============================================================== baseline

/-- The reads of the fallback end in bounds: the baseline is in
`action_eligible`, and if it is eligible, then the loop over its scenarios
is over by the end of the array. -/
def DgtPolicyTable.BaselineInBounds (t : DgtPolicyTable F)
    (elig : DgtEligibility) (baseline : UInt32) : Prop :=
  baseline < t.actionCount → baseline.toNat < dgtMaxActions
    ∧ (elig.eligible baseline = true →
      t.scenarioCount.toNat ≤ dgtMaxScenarios
        ∨ ∃ s < dgtMaxScenarios,
          isFinite (t.loss baseline.toNat s) = false)

section Baseline

variable {t : DgtPolicyTable F} {elig : DgtEligibility} {baseline : UInt32}

theorem checkedBaseline_eq (h : t.BaselineInBounds elig baseline) :
    checkedSelectBaseline t elig baseline
      = some (selectBaseline t elig baseline) := by
  unfold checkedSelectBaseline selectBaseline
  by_cases hlt : baseline < t.actionCount
  · obtain ⟨hbase, hloop⟩ := h hlt
    rw [if_neg (UInt32.not_le.mpr hlt), checkedRead_eq hbase]
    simp only [UInt32.not_le.mpr hlt, decide_false, Bool.false_or]
    cases helig : elig.eligible baseline with
    | false => rfl
    | true =>
        dsimp only [Option.bind_eq_bind, Option.bind_some]
        rw [checkedLoss_eq hbase (hloop helig)]
        cases obicallDgtActionWorstCaseLoss t baseline with
        | error st => rfl
        | ok loss => exact checkedSelected_eq hbase ..
  · have hle := UInt32.not_lt.mp hlt
    simp [hle]

theorem checkedBaseline_past (h : ¬ t.BaselineInBounds elig baseline) :
    checkedSelectBaseline t elig baseline = none := by
  simp only [DgtPolicyTable.BaselineInBounds, Classical.not_imp] at h
  obtain ⟨hlt, h⟩ := h
  unfold checkedSelectBaseline
  rw [if_neg (UInt32.not_le.mpr hlt)]
  by_cases hbase : baseline.toNat < dgtMaxActions
  · obtain ⟨helig, hloop⟩ := Classical.not_imp.mp (not_and.mp h hbase)
    obtain ⟨hscen, hfinite⟩ := not_or.mp hloop
    have hall : ∀ s < dgtMaxScenarios,
        isFinite (t.loss baseline.toNat s) = true := fun s hs => by
      by_contra hno
      exact hfinite ⟨s, hs, Bool.not_eq_true _ ▸ hno⟩
    rw [checkedRead_eq hbase, helig,
      checkedLoss_past hbase hlt (Nat.lt_of_not_le hscen) hall]
    rfl
  · rw [read_past (Nat.le_of_not_lt hbase)]
    rfl

/-- The counts of a valid table bound the fallback as well. -/
theorem baselineInBounds_of_fits (h : t.Fits) :
    t.BaselineInBounds elig baseline := fun hlt =>
  ⟨index_lt h hlt, fun _ => .inl h.2⟩

theorem checkedSelect_invalid {issue : Status × String}
    (h : obicallDgtValidateTable t = .error issue)
    (hin : Option (DgtHysteresisState F)) (margin : F) :
    checkedDgtSelectAction t elig hin margin baseline
        = checkedSelectBaseline t elig baseline
      ∧ obicallDgtSelectAction t elig hin margin baseline
        = selectBaseline t elig baseline := by
  constructor
  · unfold checkedDgtSelectAction
    rw [checkedValidate_eq, h]
    rfl
  · rw [obicallDgtSelectAction, h]

theorem checkedSelect_eq (h : t.BaselineInBounds elig baseline)
    (hin : Option (DgtHysteresisState F)) (margin : F) :
    checkedDgtSelectAction t elig hin margin baseline
      = some (obicallDgtSelectAction t elig hin margin baseline) := by
  have hbase := checkedBaseline_eq h
  cases hvalid : obicallDgtValidateTable t with
  | ok u =>
      obtain ⟨hactions, -, hscen⟩ := bounds_of_valid hvalid
      exact checkedSelect_of_valid ⟨hactions, hscen⟩ hvalid hin margin hbase
  | error issue =>
      obtain ⟨hchecked, hplain⟩ := checkedSelect_invalid hvalid hin margin
      rw [hchecked, hplain]
      exact hbase

theorem checkedSelect_past (h : ¬ t.BaselineInBounds elig baseline)
    (hin : Option (DgtHysteresisState F)) (margin : F) :
    checkedDgtSelectAction t elig hin margin baseline = none := by
  cases hvalid : obicallDgtValidateTable t with
  | ok u =>
      obtain ⟨hactions, -, hscen⟩ := bounds_of_valid hvalid
      exact (h (baselineInBounds_of_fits ⟨hactions, hscen⟩)).elim
  | error issue =>
      rw [(checkedSelect_invalid hvalid hin margin).1]
      exact checkedBaseline_past h

/-- Every index of the selection is within its array exactly when the
fallback's are, whatever the table, the eligibilities, the hysteresis
state and the baseline: then the run on checked tables ends with what the
plain one gives, and otherwise it reads past an array. -/
theorem reads_in_bounds_iff (t : DgtPolicyTable F) (elig : DgtEligibility)
    (hin : Option (DgtHysteresisState F)) (margin : F) (baseline : UInt32) :
    (checkedDgtSelectAction t elig hin margin baseline
        = some (obicallDgtSelectAction t elig hin margin baseline)
      ↔ t.BaselineInBounds elig baseline)
    ∧ (checkedDgtSelectAction t elig hin margin baseline = none
      ↔ ¬ t.BaselineInBounds elig baseline) := by
  by_cases h : t.BaselineInBounds elig baseline
  · rw [checkedSelect_eq h hin margin]
    exact ⟨iff_of_true rfl h, iff_of_false nofun (not_not_intro h)⟩
  · rw [checkedSelect_past h hin margin]
    exact ⟨iff_of_false nofun h, iff_of_true rfl h⟩

end Baseline

-- ================================================================ samples

/-- `make_fixture_table` of the unit tests. -/
def makeFixtureTable : DgtPolicyTable Binary64 where
  structSize := sizeofDgtPolicyTable
  schemaVersion := dgtPolicySchemaVersion
  actionCount := 3
  actions := Vector.ofFn fun a => ⟨if a < 3 then UInt32.ofNat a else 0, 0⟩
  scenarioCount := 1
  weights := ⟨1.0, 0.0, 0.0, 0.0⟩
  cost := Vector.ofFn fun a => Vector.ofFn fun s =>
    ⟨if s = 0 then [0.85, 0.70, 0.35].getD a 0.0 else 0.0, 0.0, 0.0, 0.0⟩
  scaleEstimationError := 1.0
  scaleDelay := 1.0
  scaleCoverageLoss := 1.0
  scaleResourceCost := 1.0

/-- A table that declares 20 actions lets the baseline 16 through to
`action_eligible[16]`; one that declares 17 scenarios, to `cost[0][16]`. -/
theorem counts_past_arrays :
    checkedDgtSelectAction { makeFixtureTable with actionCount := 20 }
        (Vector.replicate _ true) none 0.05 16 = none
    ∧ checkedDgtSelectAction { makeFixtureTable with scenarioCount := 17 }
        (Vector.replicate _ true) none 0.05 0 = none := by
  decide +kernel

end Obicall
