/-
`dgt.c`: the policy table of actions and fault scenarios, and the
selector over it.

Eligibility comes from the caller. Among the eligible actions the
selector takes the one whose largest loss over the scenarios is
smallest, the lowest `action_id` on a tie, and lets the action selected
last time stand when that one is not clearly worse. A table that fails
its check, or one with nothing to select from, leaves the baseline
action, itself only if it is eligible.

Names, modes and providers of an action and the texts of a scenario are
labels: no function here reads them.
-/
import Mathlib.Data.List.Basic
import Obicall.Core.Types

namespace Obicall

open DoubleArith

variable {F : Type}

-- ================================================================= table

/-- `OBICALL_DGT_MAX_ACTIONS`. -/
abbrev dgtMaxActions : Nat := 16

/-- `OBICALL_DGT_MAX_SCENARIOS`. -/
abbrev dgtMaxScenarios : Nat := 16

/-- `OBICALL_DGT_POLICY_SCHEMA_VERSION`. -/
def dgtPolicySchemaVersion : UInt32 := 1

/-- `obicall_dgt_action_t`. -/
structure DgtAction where
  actionId : UInt32
  sensorSubsetMask : UInt64
  deriving DecidableEq

/-- `obicall_dgt_cost_components_t`. -/
structure DgtCostComponents (F : Type) where
  estimationError : F
  delay : F
  coverageLoss : F
  resourceCost : F
  deriving DecidableEq

/-- `obicall_dgt_weights_t`. -/
structure DgtWeights (F : Type) where
  wEstimationError : F
  wDelay : F
  wCoverageLoss : F
  wResourceCost : F
  deriving DecidableEq

/-- `obicall_dgt_policy_table_t`; `cost` is indexed by action, then by
scenario. -/
structure DgtPolicyTable (F : Type) where
  structSize : UInt32
  schemaVersion : UInt32
  actionCount : UInt32
  actions : Vector DgtAction dgtMaxActions
  scenarioCount : UInt32
  weights : DgtWeights F
  cost : Vector (Vector (DgtCostComponents F) dgtMaxScenarios) dgtMaxActions
  scaleEstimationError : F
  scaleDelay : F
  scaleCoverageLoss : F
  scaleResourceCost : F
  deriving DecidableEq

/-- `sizeof(obicall_dgt_policy_table_t)`. -/
def sizeofDgtPolicyTable : UInt32 := 11800

/-- `obicall_dgt_eligibility_t`, by action index. -/
abbrev DgtEligibility : Type := Vector Bool dgtMaxActions

/-- `obicall_dgt_hysteresis_state_t`. -/
structure DgtHysteresisState (F : Type) where
  hasPrevious : Bool
  previousActionIndex : UInt32
  previousWorstCaseLoss : F
  deriving DecidableEq

/-- `obicall_dgt_decision_t`. -/
structure DgtDecision (F : Type) where
  selectedActionId : UInt32
  selectedActionIndex : UInt32
  worstCaseLoss : F
  eligibleCount : UInt32
  usedFallbackBaseline : Bool
  usedHysteresisHold : Bool
  deriving DecidableEq

/-- A decision after `memset(.., 0, ..)`, which leaves `0.0`. -/
def DgtDecision.zero (F : Type) [DoubleArith F] : DgtDecision F :=
  ⟨0, 0, 0.0, 0, false, false⟩

/-- A hysteresis state after `memset(.., 0, ..)`. -/
def DgtHysteresisState.zero (F : Type) [DoubleArith F] :
    DgtHysteresisState F :=
  ⟨false, 0, 0.0⟩

/-- `actions[a]`; past the array there is nothing to read. -/
def DgtPolicyTable.action (t : DgtPolicyTable F) (a : UInt32) : DgtAction :=
  t.actions.getD a.toNat ⟨0, 0⟩

def DgtEligibility.eligible (elig : DgtEligibility) (a : UInt32) : Bool :=
  Vector.getD elig a.toNat false

-- ============================================================ validation

variable [DoubleArith F]

/-- `cost[a][s]`. -/
def DgtPolicyTable.costAt (t : DgtPolicyTable F) (a s : Nat) :
    DgtCostComponents F :=
  ((t.cost[a]?).bind fun row => row[s]?).getD ⟨0.0, 0.0, 0.0, 0.0⟩

def DgtWeights.toList (w : DgtWeights F) : List F :=
  [w.wEstimationError, w.wDelay, w.wCoverageLoss, w.wResourceCost]

def DgtCostComponents.toList (c : DgtCostComponents F) : List F :=
  [c.estimationError, c.delay, c.coverageLoss, c.resourceCost]

def DgtPolicyTable.scales (t : DgtPolicyTable F) : List F :=
  [t.scaleEstimationError, t.scaleDelay, t.scaleCoverageLoss,
    t.scaleResourceCost]

/-- `isfinite(x)` and not `x < 0.0`. -/
def finiteNonneg (x : F) : Bool := isFinite x && !lt x 0.0

/-- `isfinite(x)` and not `x <= 0.0`. -/
def finitePositive (x : F) : Bool := isFinite x && !le x 0.0

/-- Every cost component of the table's own actions and scenarios. -/
def DgtPolicyTable.costsOk (t : DgtPolicyTable F) : Bool :=
  (List.range t.actionCount.toNat).all fun a =>
    (List.range t.scenarioCount.toNat).all fun s =>
      (t.costAt a s).toList.all finiteNonneg

/-- `obicall_dgt_validate_table`: the first check that fails, with the
text the caller is given. -/
def obicallDgtValidateTable (t : DgtPolicyTable F) :
    Except (Status × String) Unit :=
  if t.structSize ≠ sizeofDgtPolicyTable then
    .error (.errInvalidArgument, "struct_size mismatch")
  else if t.schemaVersion ≠ dgtPolicySchemaVersion then
    .error (.errUnsupported, "unsupported policy schema_version")
  else if t.actionCount = 0 || dgtMaxActions < t.actionCount.toNat then
    .error (.errInvalidArgument, "action_count out of range")
  else if t.scenarioCount = 0 || dgtMaxScenarios < t.scenarioCount.toNat then
    .error (.errInvalidArgument, "scenario_count out of range")
  else if !t.weights.toList.all finiteNonneg then
    .error (.errDgtInvalidScore, "weight is non-finite or negative")
  else if !t.weights.toList.any (lt 0.0 ·) then
    .error (.errDgtInvalidScore, "at least one weight must be positive")
  else if !t.scales.all finitePositive then
    .error (.errDgtInvalidScore,
      "normalization scale must be finite and positive")
  else if !t.costsOk then
    .error (.errDgtInvalidScore,
      "cost component is non-finite or negative")
  else .ok ()

-- ================================================================= losses

/-- The weighted, normalised cost of an action under a scenario. -/
def DgtPolicyTable.loss (t : DgtPolicyTable F) (a s : Nat) : F :=
  let c := t.costAt a s
  t.weights.wEstimationError * (c.estimationError / t.scaleEstimationError)
    + t.weights.wDelay * (c.delay / t.scaleDelay)
    + t.weights.wCoverageLoss * (c.coverageLoss / t.scaleCoverageLoss)
    + t.weights.wResourceCost * (c.resourceCost / t.scaleResourceCost)

/-- One turn of the scenario loop; the worst loss so far is absent before
the first. -/
def DgtPolicyTable.worse (t : DgtPolicyTable F) (a : Nat)
    (worst : Option F) (s : Nat) : Except Status (Option F) :=
  let loss := t.loss a s
  if !isFinite loss then .error .errDgtInvalidScore
  else match worst with
    | none => .ok (some loss)
    | some w => .ok (some (if lt w loss then loss else w))

/-- `obicall_dgt_action_worst_case_loss`. -/
def obicallDgtActionWorstCaseLoss (t : DgtPolicyTable F) (a : UInt32) :
    Except Status F :=
  if t.actionCount ≤ a then .error .errOutOfRange
  else
    match (List.range t.scenarioCount.toNat).foldlM (t.worse a.toNat) none with
    | .error st => .error st
    | .ok none => .error .errDgtInvalidScore
    | .ok (some worst) => .ok worst

-- ============================================================== selection

/-- The two outputs that go with a selected action. -/
def DgtPolicyTable.selected (t : DgtPolicyTable F) (a : UInt32) (loss : F)
    (eligibleCount : UInt32) (baseline hold : Bool) :
    DgtDecision F × DgtHysteresisState F :=
  (⟨(t.action a).actionId, a, loss, eligibleCount, baseline, hold⟩,
    ⟨true, a, loss⟩)

/-- `select_baseline`. Where it fails, both outputs stay as
`obicall_dgt_select_action` cleared them. -/
def selectBaseline (t : DgtPolicyTable F) (elig : DgtEligibility)
    (baseline : UInt32) : Status × DgtDecision F × DgtHysteresisState F :=
  if t.actionCount ≤ baseline || !elig.eligible baseline then
    (.errDgtNoEligibleAction, .zero F, .zero F)
  else match obicallDgtActionWorstCaseLoss t baseline with
    | .error _ => (.errDgtNoEligibleAction, .zero F, .zero F)
    | .ok loss => (.ok, t.selected baseline loss 1 true false)

/-- `eligible_count`, `best_idx` and `best_loss`. -/
structure DgtBest (F : Type) where
  eligibleCount : UInt32
  best : Option (UInt32 × F)

/-- One turn of the loop over the actions. -/
def DgtPolicyTable.consider (t : DgtPolicyTable F) (elig : DgtEligibility)
    (b : DgtBest F) (a : UInt32) : DgtBest F :=
  if !elig.eligible a then b
  else match obicallDgtActionWorstCaseLoss t a with
    | .error _ => b
    | .ok loss =>
        { eligibleCount := b.eligibleCount + 1
          best := match b.best with
            | none => some (a, loss)
            | some (i, bestLoss) =>
                if lt loss bestLoss || (eq loss bestLoss
                    && (t.action a).actionId < (t.action i).actionId) then
                  some (a, loss)
                else some (i, bestLoss) }

/-- The loop. -/
def DgtPolicyTable.bestOf (t : DgtPolicyTable F) (elig : DgtEligibility) :
    DgtBest F :=
  ((List.range t.actionCount.toNat).map UInt32.ofNat).foldl (t.consider elig)
    ⟨0, none⟩

/-- The loss of the previously selected action, where it can still be
held. -/
def DgtPolicyTable.heldLoss (t : DgtPolicyTable F) (elig : DgtEligibility)
    (hysteresisIn : Option (DgtHysteresisState F)) :
    Option (UInt32 × F) :=
  match hysteresisIn with
  | none => none
  | some h =>
      if h.hasPrevious && h.previousActionIndex < t.actionCount
          && elig.eligible h.previousActionIndex then
        match obicallDgtActionWorstCaseLoss t h.previousActionIndex with
        | .error _ => none
        | .ok loss => some (h.previousActionIndex, loss)
      else none

/-- `obicall_dgt_select_action`: the status and the two outputs. -/
def obicallDgtSelectAction (t : DgtPolicyTable F) (elig : DgtEligibility)
    (hysteresisIn : Option (DgtHysteresisState F)) (hysteresisMargin : F)
    (baseline : UInt32) : Status × DgtDecision F × DgtHysteresisState F :=
  match obicallDgtValidateTable t with
  | .error _ => selectBaseline t elig baseline
  | .ok _ =>
      let b := t.bestOf elig
      match b.best with
      | none => selectBaseline t elig baseline
      | some (best, bestLoss) =>
          match t.heldLoss elig hysteresisIn with
          | none => (.ok, t.selected best bestLoss b.eligibleCount false false)
          | some (prev, prevLoss) =>
              if lt bestLoss (prevLoss * (1.0 - hysteresisMargin)) then
                (.ok, t.selected best bestLoss b.eligibleCount false false)
              else
                (.ok, t.selected prev prevLoss b.eligibleCount false
                  (prev != best))

-- ================================================================= bounds

/-- The counts of a table that passes its check. -/
theorem bounds_of_valid {t : DgtPolicyTable F}
    (h : obicallDgtValidateTable t = .ok ()) :
    t.actionCount.toNat ≤ dgtMaxActions ∧ 0 < t.scenarioCount.toNat
      ∧ t.scenarioCount.toNat ≤ dgtMaxScenarios := by
  rw [obicallDgtValidateTable] at h
  split at h
  · cases h
  split at h
  · cases h
  split at h
  · cases h
  next hactions =>
    split at h
    · cases h
    next hscen =>
      simp only [Bool.or_eq_true, decide_eq_true_eq, not_or, not_lt]
        at hactions hscen
      refine ⟨hactions.2, Nat.pos_of_ne_zero fun hzero => hscen.1 ?_,
        hscen.2⟩
      exact UInt32.toNat_inj.mp hzero

-- ========================================================== finite losses

theorem worse_of_not_finite {t : DgtPolicyTable F} {a s : Nat}
    (h : isFinite (t.loss a s) = false) (worst : Option F) :
    t.worse a worst s = .error .errDgtInvalidScore := by
  unfold DgtPolicyTable.worse
  dsimp only
  rw [h]
  rfl

theorem worse_of_finite {t : DgtPolicyTable F} {a s : Nat}
    (h : isFinite (t.loss a s) = true) (worst : Option F) :
    ∃ w, t.worse a worst s = .ok (some w) := by
  unfold DgtPolicyTable.worse
  dsimp only
  rw [h]
  cases worst with
  | none => exact ⟨_, rfl⟩
  | some w => exact ⟨_, rfl⟩

/-- The scenario loop runs to its end exactly when no loss on its way is
an infinity or a NaN. -/
theorem worse_foldlM_ok_iff (t : DgtPolicyTable F) (a : Nat) (ss : List Nat)
    (worst : Option F) :
    (∃ w, ss.foldlM (t.worse a) worst = .ok w)
      ↔ ∀ s ∈ ss, isFinite (t.loss a s) = true := by
  induction ss generalizing worst with
  | nil => exact iff_of_true ⟨worst, rfl⟩ nofun
  | cons s ss ih =>
      rw [List.foldlM_cons, List.forall_mem_cons]
      cases hfinite : isFinite (t.loss a s) with
      | false =>
          rw [worse_of_not_finite hfinite]
          refine iff_of_false ?_ fun h => nomatch h.1
          rintro ⟨w, hw⟩
          cases hw
      | true =>
          obtain ⟨w, hw⟩ := worse_of_finite hfinite worst
          rw [hw, and_iff_right rfl]
          exact ih (some w)

/-- With a scenario the loop does not end without a loss. -/
theorem worse_foldlM_ne_none (t : DgtPolicyTable F) (a s : Nat)
    (ss : List Nat) (worst : Option F) :
    (s :: ss).foldlM (t.worse a) worst ≠ .ok none := by
  rw [List.foldlM_cons]
  cases hfinite : isFinite (t.loss a s) with
  | false =>
      rw [worse_of_not_finite hfinite]
      nofun
  | true =>
      obtain ⟨w, hw⟩ := worse_of_finite hfinite worst
      rw [hw]
      cases ss with
      | nil => exact nofun
      | cons s' ss => exact worse_foldlM_ne_none t a s' ss (some w)

/-- An action has a worst case exactly when there is a scenario and its
loss under each of them is finite. -/
theorem worstCaseLoss_ok_iff {t : DgtPolicyTable F} {a : UInt32} :
    (∃ w, obicallDgtActionWorstCaseLoss t a = .ok w)
      ↔ a < t.actionCount ∧ 0 < t.scenarioCount.toNat
        ∧ ∀ s < t.scenarioCount.toNat,
          isFinite (t.loss a.toNat s) = true := by
  have hloop := worse_foldlM_ok_iff t a.toNat
    (List.range t.scenarioCount.toNat) none
  simp only [List.mem_range] at hloop
  rw [obicallDgtActionWorstCaseLoss, ← hloop]
  by_cases hlt : a < t.actionCount
  · rw [if_neg (UInt32.not_le.mpr hlt), and_iff_right hlt]
    cases hscen : t.scenarioCount.toNat with
    | zero =>
        refine iff_of_false ?_ fun h => absurd h.1 (Nat.lt_irrefl 0)
        rintro ⟨w, hw⟩
        cases hw
    | succ n =>
        rw [List.range_succ_eq_map, and_iff_right n.succ_pos]
        have hne := worse_foldlM_ne_none t a.toNat 0
          ((List.range n).map Nat.succ) none
        constructor
        · rintro ⟨w, hw⟩
          split at hw
          · cases hw
          · cases hw
          next worst heq => exact ⟨some worst, heq⟩
        · rintro ⟨w, hw⟩
          rw [hw]
          cases w with
          | none => exact absurd hw hne
          | some w => exact ⟨w, rfl⟩
  · rw [if_pos (UInt32.not_lt.mp hlt)]
    refine iff_of_false ?_ fun h => hlt h.1
    rintro ⟨w, hw⟩
    cases hw

-- =============================================================== outcomes

/-- An action the selector may choose, with its loss. -/
def DgtPolicyTable.Candidate (t : DgtPolicyTable F) (elig : DgtEligibility)
    (p : UInt32 × F) : Prop :=
  p.1 < t.actionCount ∧ elig.eligible p.1 = true
    ∧ obicallDgtActionWorstCaseLoss t p.1 = .ok p.2

/-- One turn of the loop keeps the best so far a candidate. -/
theorem candidate_consider {t : DgtPolicyTable F} {elig : DgtEligibility}
    {b : DgtBest F} {a : UInt32} (ha : a < t.actionCount)
    (hb : ∀ p, b.best = some p → t.Candidate elig p) :
    ∀ p, (t.consider elig b a).best = some p → t.Candidate elig p := by
  intro p hp
  unfold DgtPolicyTable.consider at hp
  cases helig : elig.eligible a with
  | false =>
      rw [if_pos (by rw [helig]; rfl)] at hp
      exact hb p hp
  | true =>
      rw [if_neg (by rw [helig]; decide)] at hp
      cases hloss : obicallDgtActionWorstCaseLoss t a with
      | error st =>
          rw [hloss] at hp
          exact hb p hp
      | ok loss =>
          have hnew : t.Candidate elig (a, loss) := ⟨ha, helig, hloss⟩
          rw [hloss] at hp
          dsimp only at hp
          cases hbest : b.best with
          | none =>
              rw [hbest] at hp
              injection hp with hp
              exact hp ▸ hnew
          | some q =>
              rw [hbest] at hp
              dsimp only at hp
              split at hp
              · injection hp with hp
                exact hp ▸ hnew
              · injection hp with hp
                exact hp ▸ hb q hbest

theorem candidate_foldl {t : DgtPolicyTable F} {elig : DgtEligibility}
    (as : List UInt32) (has : ∀ a ∈ as, a < t.actionCount) {b : DgtBest F}
    (hb : ∀ p, b.best = some p → t.Candidate elig p) :
    ∀ p, (as.foldl (t.consider elig) b).best = some p →
      t.Candidate elig p := by
  induction as generalizing b with
  | nil => exact hb
  | cons a as ih =>
      rw [List.foldl_cons]
      refine ih (fun a' ha' => has a' (List.mem_cons_of_mem _ ha')) ?_
      exact candidate_consider (has a List.mem_cons_self) hb

/-- The places the loop goes through. -/
theorem mem_actions_iff {n a : UInt32} :
    a ∈ (List.range n.toNat).map UInt32.ofNat ↔ a < n := by
  rw [List.mem_map]
  constructor
  · rintro ⟨k, hk, rfl⟩
    have hk : k < n.toNat := List.mem_range.mp hk
    have hsize : k < UInt32.size := hk.trans n.toNat_lt
    rw [UInt32.lt_iff_toNat_lt, UInt32.toNat_ofNat_of_lt' hsize]
    exact hk
  · intro ha
    exact ⟨a.toNat, List.mem_range.mpr (UInt32.lt_iff_toNat_lt.mp ha),
      UInt32.ofNat_toNat⟩

theorem candidate_bestOf {t : DgtPolicyTable F} {elig : DgtEligibility}
    {p : UInt32 × F} (h : (t.bestOf elig).best = some p) :
    t.Candidate elig p := by
  have hstart : ∀ p, (⟨0, none⟩ : DgtBest F).best = some p →
      t.Candidate elig p := by
    intro p hp
    cases hp
  exact candidate_foldl _ (fun a => mem_actions_iff.mp) hstart p h

/-- A turn of the loop leaves nothing to select exactly when there was
nothing before and the action is no candidate. -/
theorem best_consider {t : DgtPolicyTable F} {elig : DgtEligibility}
    {b : DgtBest F} {a : UInt32} (ha : a < t.actionCount) :
    (t.consider elig b a).best = none
      ↔ b.best = none ∧ ∀ w, ¬ t.Candidate elig (a, w) := by
  unfold DgtPolicyTable.consider
  cases helig : elig.eligible a with
  | false =>
      have hno : ∀ w, ¬ t.Candidate elig (a, w) := fun w hw =>
        Bool.false_ne_true (helig.symm.trans hw.2.1)
      rw [if_pos (by decide), and_iff_left hno]
  | true =>
      rw [if_neg (by decide)]
      cases hloss : obicallDgtActionWorstCaseLoss t a with
      | error st =>
          refine (and_iff_left fun w hw => ?_).symm
          cases hloss.symm.trans hw.2.2
      | ok loss =>
          have hnew : t.Candidate elig (a, loss) := ⟨ha, helig, hloss⟩
          refine iff_of_false ?_ fun h => h.2 loss hnew
          dsimp only
          cases b.best with
          | none => nofun
          | some q =>
              dsimp only
              split
              · nofun
              · nofun

theorem best_foldl {t : DgtPolicyTable F} {elig : DgtEligibility}
    {as : List UInt32} (has : ∀ a ∈ as, a < t.actionCount) {b : DgtBest F} :
    (as.foldl (t.consider elig) b).best = none
      ↔ b.best = none ∧ ∀ a ∈ as, ∀ w, ¬ t.Candidate elig (a, w) := by
  induction as generalizing b with
  | nil => exact (and_iff_left nofun).symm
  | cons a as ih =>
      obtain ⟨ha, has⟩ := List.forall_mem_cons.mp has
      rw [List.foldl_cons, ih has, best_consider ha, and_assoc,
        List.forall_mem_cons]

theorem bestOf_eq_none_iff {t : DgtPolicyTable F} {elig : DgtEligibility} :
    (t.bestOf elig).best = none ↔ ∀ p, ¬ t.Candidate elig p := by
  rw [DgtPolicyTable.bestOf, best_foldl fun a => mem_actions_iff.mp,
    and_iff_right rfl]
  constructor
  · exact fun h p hp => h p.1 (mem_actions_iff.mpr hp.1) p.2 hp
  · exact fun h a _ w => h (a, w)

/-- What is held is the previous selection, where it is a candidate. -/
theorem heldLoss_eq_some_iff {t : DgtPolicyTable F} {elig : DgtEligibility}
    {hin : Option (DgtHysteresisState F)} {p : UInt32 × F} :
    t.heldLoss elig hin = some p
      ↔ ∃ h, hin = some h ∧ h.hasPrevious = true
        ∧ h.previousActionIndex = p.1 ∧ t.Candidate elig p := by
  cases hin with
  | none => simp [DgtPolicyTable.heldLoss]
  | some h =>
      rw [DgtPolicyTable.heldLoss]
      constructor
      · intro hp
        split at hp
        next hheld =>
          simp only [Bool.and_eq_true, decide_eq_true_eq] at hheld
          cases hloss : obicallDgtActionWorstCaseLoss t
              h.previousActionIndex with
          | error st =>
              rw [hloss] at hp
              cases hp
          | ok loss =>
              rw [hloss] at hp
              obtain rfl := Option.some.inj hp
              exact ⟨h, rfl, hheld.1.1, rfl, hheld.1.2, hheld.2, hloss⟩
        next => cases hp
      · rintro ⟨h', heq, hprev, hindex, hlt, helig, hloss⟩
        obtain rfl := Option.some.inj heq
        rw [← hindex] at hlt helig hloss
        rw [if_pos (by simp [hprev, hlt, helig]), hloss]
        exact congrArg (fun a => some (a, p.2)) hindex

/-- The best action, or the one that is held. -/
def DgtPolicyTable.settle (margin : F) (best : UInt32 × F) :
    Option (UInt32 × F) → UInt32 × F
  | none => best
  | some held => if lt best.2 (held.2 * (1.0 - margin)) then best else held

/-- The selection from a table that passes its check, with something to
select. -/
theorem obicallDgtSelectAction_settle {t : DgtPolicyTable F}
    (hvalid : obicallDgtValidateTable t = .ok ()) {elig : DgtEligibility}
    {best : UInt32 × F} (hbest : (t.bestOf elig).best = some best)
    (hin : Option (DgtHysteresisState F)) (margin : F) (baseline : UInt32) :
    ∃ hold, obicallDgtSelectAction t elig hin margin baseline
      = (.ok, t.selected
          (DgtPolicyTable.settle margin best (t.heldLoss elig hin)).1
          (DgtPolicyTable.settle margin best (t.heldLoss elig hin)).2
          (t.bestOf elig).eligibleCount false hold) := by
  rw [obicallDgtSelectAction, hvalid]
  dsimp only
  rw [hbest]
  dsimp only
  cases t.heldLoss elig hin with
  | none => exact ⟨false, rfl⟩
  | some prev =>
      rw [DgtPolicyTable.settle]
      cases hlt : lt best.2 (prev.2 * (1.0 - margin)) with
      | true => exact ⟨false, by simp [hlt]⟩
      | false => exact ⟨prev.1 != best.1, by simp [hlt]⟩

/-- What a selection leaves: nothing at all and the one error, or a
candidate in both outputs. -/
inductive DgtOutcome (t : DgtPolicyTable F) (elig : DgtEligibility) :
    Status × DgtDecision F × DgtHysteresisState F → Prop where
  | none : DgtOutcome t elig (.errDgtNoEligibleAction, .zero F, .zero F)
  | selected {a : UInt32} {loss : F} (n : UInt32) (baseline hold : Bool) :
      t.Candidate elig (a, loss) →
      DgtOutcome t elig (.ok, t.selected a loss n baseline hold)

theorem selectBaseline_outcome (t : DgtPolicyTable F)
    (elig : DgtEligibility) (baseline : UInt32) :
    DgtOutcome t elig (selectBaseline t elig baseline) := by
  unfold selectBaseline
  by_cases h : t.actionCount ≤ baseline ∨ elig.eligible baseline = false
  · rw [if_pos (by simpa using h)]
    exact .none
  · rw [if_neg (by simpa using h)]
    simp only [not_or, Bool.not_eq_false] at h
    cases hloss : obicallDgtActionWorstCaseLoss t baseline with
    | error st => exact .none
    | ok loss =>
        exact .selected _ _ _ ⟨UInt32.not_le.mp h.1, h.2, hloss⟩

/-- The selector never selects an ineligible action, and never leaves a
half-written decision. -/
theorem obicallDgtSelectAction_outcome (t : DgtPolicyTable F)
    (elig : DgtEligibility) (hin : Option (DgtHysteresisState F))
    (margin : F) (baseline : UInt32) :
    DgtOutcome t elig
      (obicallDgtSelectAction t elig hin margin baseline) := by
  unfold obicallDgtSelectAction
  cases hvalid : obicallDgtValidateTable t with
  | error issue => exact selectBaseline_outcome t elig baseline
  | ok _ =>
      dsimp only
      cases hbest : (t.bestOf elig).best with
      | none => exact selectBaseline_outcome t elig baseline
      | some best =>
          have hnew := candidate_bestOf hbest
          dsimp only
          cases hheld : t.heldLoss elig hin with
          | none => exact .selected _ _ _ hnew
          | some prev =>
              obtain ⟨-, -, -, -, hprev⟩ := heldLoss_eq_some_iff.mp hheld
              dsimp only
              split
              · exact .selected _ _ _ hnew
              · exact .selected _ _ _ hprev

/-- From a table that passes its check the selection fails exactly when
there is no candidate. -/
theorem obicallDgtSelectAction_ok_iff {t : DgtPolicyTable F}
    (hvalid : obicallDgtValidateTable t = .ok ()) (elig : DgtEligibility)
    (hin : Option (DgtHysteresisState F)) (margin : F) (baseline : UInt32) :
    (obicallDgtSelectAction t elig hin margin baseline).1 = .ok
      ↔ ∃ p, t.Candidate elig p := by
  constructor
  · intro hok
    have houtcome := obicallDgtSelectAction_outcome t elig hin margin baseline
    generalize obicallDgtSelectAction t elig hin margin baseline = out
      at hok houtcome
    cases houtcome with
    | none => cases hok
    | selected n baseline hold hcand => exact ⟨_, hcand⟩
  · rintro ⟨p, hp⟩
    cases hbest : (t.bestOf elig).best with
    | none => exact (bestOf_eq_none_iff.mp hbest p hp).elim
    | some best =>
        obtain ⟨hold, hselect⟩ :=
          obicallDgtSelectAction_settle hvalid hbest hin margin baseline
        rw [hselect]

end Obicall
