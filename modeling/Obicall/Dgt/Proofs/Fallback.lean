/-
The fallback of the selector: what becomes of a table that fails its
check.

`select_baseline` computes the baseline's loss with the table that was
just refused, and gives up where that loss is not a number
(`fallback_works_iff`). Some defects do no harm: a negative weight, a
negative cost, no positive weight or a wrong schema leave the losses
finite. Others take the fallback with them (`fields_of_finiteLosses`): a
weight or a cost that is not finite, a zero scale, a table without
scenarios.
-/
import Obicall.Dgt.Proofs.Bounds

namespace Obicall

open DoubleArith

variable {F : Type} [DoubleArith F]

-- ============================================================= statement

/-- An eligible baseline is selected, and only one that is not, or is not
in the table, is refused. -/
structure FallbackWorks (t : DgtPolicyTable F) (elig : DgtEligibility)
    (hin : Option (DgtHysteresisState F)) (margin : F) (baseline : UInt32) :
    Prop where
  selects : baseline < t.actionCount → elig.eligible baseline = true →
    let (st, decision, _) :=
      obicallDgtSelectAction t elig hin margin baseline
    st = .ok ∧ decision.selectedActionIndex = baseline
      ∧ decision.usedFallbackBaseline = true
  refuses : (obicallDgtSelectAction t elig hin margin baseline).1
      = .errDgtNoEligibleAction →
    ¬ (baseline < t.actionCount ∧ elig.eligible baseline = true)

/-- There is a scenario, and the action's loss under each is finite. -/
def DgtPolicyTable.HasFiniteLosses (t : DgtPolicyTable F) (a : UInt32) :
    Prop :=
  0 < t.scenarioCount.toNat
    ∧ ∀ s < t.scenarioCount.toNat, isFinite (t.loss a.toNat s) = true

-- ============================================================== fallback

section Fallback

variable {t : DgtPolicyTable F} {elig : DgtEligibility} {baseline : UInt32}

theorem selectBaseline_of_not_finite (h : ¬ t.HasFiniteLosses baseline) :
    (selectBaseline t elig baseline).1 = .errDgtNoEligibleAction := by
  rw [selectBaseline]
  split
  · rfl
  · split
    · rfl
    next loss hloss =>
      exact (h (worstCaseLoss_ok_iff.mp ⟨loss, hloss⟩).2).elim

section Eligible

variable (hlt : baseline < t.actionCount)
  (helig : elig.eligible baseline = true)
include hlt helig

theorem selectBaseline_of_finite (h : t.HasFiniteLosses baseline) :
    ∃ loss, selectBaseline t elig baseline
      = (.ok, t.selected baseline loss 1 true false) := by
  obtain ⟨loss, hloss⟩ := worstCaseLoss_ok_iff.mpr ⟨hlt, h⟩
  refine ⟨loss, ?_⟩
  rw [selectBaseline, if_neg, hloss]
  rw [Bool.or_eq_true, decide_eq_true_eq, helig]
  rintro (hle | hno)
  · exact UInt32.not_le.mpr hlt hle
  · cases hno

end Eligible

/-- The fallback of a refused table works exactly when the baseline, where
it is eligible, has a finite loss under every scenario. -/
theorem fallback_works_iff (hinvalid : obicallDgtValidateTable t ≠ .ok ())
    (hin : Option (DgtHysteresisState F)) (margin : F) :
    FallbackWorks t elig hin margin baseline
      ↔ (baseline < t.actionCount → elig.eligible baseline = true →
        t.HasFiniteLosses baseline) := by
  have hselect : obicallDgtSelectAction t elig hin margin baseline
      = selectBaseline t elig baseline := by
    cases hvalid : obicallDgtValidateTable t with
    | ok u => exact (hinvalid hvalid).elim
    | error issue => rw [obicallDgtSelectAction, hvalid]
  constructor
  · intro h hlt helig
    by_contra hno
    refine h.refuses ?_ ⟨hlt, helig⟩
    rw [hselect]
    exact selectBaseline_of_not_finite hno
  · intro h
    constructor
    · intro hlt helig
      obtain ⟨loss, hok⟩ := selectBaseline_of_finite hlt helig (h hlt helig)
      rw [hselect, hok]
      exact ⟨rfl, rfl, rfl⟩
    · rintro hrefused ⟨hlt, helig⟩
      obtain ⟨loss, hok⟩ := selectBaseline_of_finite hlt helig (h hlt helig)
      rw [hselect, hok] at hrefused
      cases hrefused

end Fallback

-- =============================================================== defects

theorem fields_of_finite_term {w c x : Binary64}
    (h : (w * (c / x)).isFinite = true) :
    w.isFinite = true ∧ (x.isNan = false ∧ x.isZero = false)
      ∧ c.isFinite = true := by
  obtain ⟨hw, hquot⟩ := Binary64.isFinite_of_mul h
  obtain ⟨hc, hx⟩ := Binary64.isFinite_of_div hquot
  exact ⟨hw, hx, hc⟩

/-- The defects that a loss does not survive, in doubles: where the losses
are finite, so are the weights and the costs they are made of, and no
scale is zero. -/
theorem fields_of_finiteLosses {t : DgtPolicyTable Binary64} {a : UInt32}
    (h : t.HasFiniteLosses a) :
    (∀ w ∈ t.weights.toList, w.isFinite = true)
      ∧ (∀ x ∈ t.scales, x.isNan = false ∧ x.isZero = false)
      ∧ ∀ s < t.scenarioCount.toNat, ∀ c ∈ (t.costAt a.toNat s).toList,
        c.isFinite = true := by
  have hfields : ∀ s < t.scenarioCount.toNat,
      (∀ w ∈ t.weights.toList, w.isFinite = true)
      ∧ (∀ x ∈ t.scales, x.isNan = false ∧ x.isZero = false)
      ∧ ∀ c ∈ (t.costAt a.toNat s).toList, c.isFinite = true := by
    intro s hs
    obtain ⟨h, h₄⟩ := Binary64.isFinite_of_add (h.2 s hs)
    obtain ⟨h, h₃⟩ := Binary64.isFinite_of_add h
    obtain ⟨h₁, h₂⟩ := Binary64.isFinite_of_add h
    have t₁ := fields_of_finite_term h₁
    have t₂ := fields_of_finite_term h₂
    have t₃ := fields_of_finite_term h₃
    have t₄ := fields_of_finite_term h₄
    simp only [DgtWeights.toList, DgtPolicyTable.scales,
      DgtCostComponents.toList, List.forall_mem_cons, List.not_mem_nil,
      false_imp_iff, implies_true, and_true]
    exact ⟨⟨t₁.1, t₂.1, t₃.1, t₄.1⟩,
      ⟨t₁.2.1, t₂.2.1, t₃.2.1, t₄.2.1⟩, t₁.2.2, t₂.2.2, t₃.2.2, t₄.2.2⟩
  obtain ⟨hweights, hscales, -⟩ := hfields 0 h.1
  exact ⟨hweights, hscales, fun s hs => (hfields s hs).2.2⟩

-- ================================================================ samples

/-- The fixture with a negative weight falls back to its second action. -/
theorem fallback_works_negative_weight :
    FallbackWorks
      { makeFixtureTable with weights := ⟨-1.0, 0.0, 0.0, 0.0⟩ }
      (Vector.replicate _ true) none 0.05 1 :=
  (fallback_works_iff (by decide +kernel) none 0.05).mpr fun _ _ =>
    ⟨by decide +kernel, by decide +kernel⟩

/-- A zero scale fails the check and the fallback with it, whatever the
weight that goes with it. -/
theorem zero_scale_no_fallback :
    let t := { makeFixtureTable with scaleDelay := 0.0 }
    obicallDgtValidateTable t = .error (.errDgtInvalidScore,
        "normalization scale must be finite and positive")
      ∧ ¬ FallbackWorks t (Vector.replicate _ true) none 0.05 1 := by
  refine ⟨by decide +kernel, fun h => h.refuses ?_ ?_⟩
  · decide +kernel
  · decide +kernel

end Obicall
