/-
What the selector selects, in exact arithmetic: the eligible action whose
worst case is best, unless the one selected before is still eligible and
not clearly worse (`select_minimax`).

# The worst case

Without rounding every loss is finite, so each of the two loops becomes
what it is meant for: the scenario loop finds the greatest of the losses
(`WorstCase`), and the action loop the least of these, the lower
`action_id` on a tie (`Best`).
-/
import Mathlib.Order.Bounds.Basic
import Obicall.Core.Dgt
import Obicall.Core.Exact

namespace Obicall

variable {K : Type} [Field K] [LinearOrder K] [SquareRoot K]

-- ============================================================= statement

/-- `w` is the action's loss under its worst scenario. -/
def DgtPolicyTable.WorstCase (t : DgtPolicyTable K) (a : UInt32) (w : K) :
    Prop :=
  IsGreatest (Set.image (t.loss a.toNat) (Set.Iio t.scenarioCount.toNat)) w

/-- The action is one of the table's, and eligible. -/
def DgtPolicyTable.Eligible {F : Type} (t : DgtPolicyTable F)
    (elig : DgtEligibility) (a : UInt32) : Prop :=
  a < t.actionCount ∧ elig.eligible a = true

/-- As good as another: a smaller loss, or the same and no higher id. -/
def AtLeast (w : K) (i : UInt32) (v : K) (j : UInt32) : Prop :=
  w < v ∨ w = v ∧ i ≤ j

/-- No eligible action has a better worst case, and none as good a lower
id. -/
def DgtPolicyTable.Best (t : DgtPolicyTable K) (elig : DgtEligibility)
    (a : UInt32) (w : K) : Prop :=
  t.Eligible elig a ∧ t.WorstCase a w
    ∧ ∀ b v, t.Eligible elig b → t.WorstCase b v →
      AtLeast w (t.action a).actionId v (t.action b).actionId

/-- The action selected before stays: it is eligible, and the best one is
not better by the margin. -/
def DgtPolicyTable.Held (t : DgtPolicyTable K) (elig : DgtEligibility)
    (hin : Option (DgtHysteresisState K)) (margin best : K) (a : UInt32)
    (w : K) : Prop :=
  ∃ h, hin = some h ∧ h.hasPrevious = true ∧ h.previousActionIndex = a
    ∧ t.Eligible elig a ∧ t.WorstCase a w ∧ ¬ best < (1 - margin) * w

/-- The decision the selector is meant to take. -/
structure DgtPolicyTable.Minimax (t : DgtPolicyTable K)
    (elig : DgtEligibility) (hin : Option (DgtHysteresisState K)) (margin : K)
    (d : DgtDecision K) : Prop where
  eligible : t.Eligible elig d.selectedActionIndex
  choice : ∃ best w, t.Best elig best w
    ∧ ((∃ v, t.Held elig hin margin w d.selectedActionIndex v)
      ∨ (∀ a v, ¬ t.Held elig hin margin w a v)
        ∧ d.selectedActionIndex = best)
  id : d.selectedActionId = (t.action d.selectedActionIndex).actionId
  loss : t.WorstCase d.selectedActionIndex d.worstCaseLoss
  count : d.eligibleCount.toNat = ((List.range t.actionCount.toNat).map
    UInt32.ofNat).countP elig.eligible

-- ================================================================= losses

theorem worse_some (t : DgtPolicyTable K) (a : Nat) (w : K) (s : Nat) :
    t.worse a (some w) s = .ok (some (max w (t.loss a s))) := by
  rw [DgtPolicyTable.worse, exact_isFinite, exact_lt, max_def_lt]
  by_cases h : w < t.loss a s
  · simp [h]
  · simp [h]

omit [Field K] [SquareRoot K] in
/-- The greater of two, and what is above the rest, is greatest. -/
theorem isGreatest_max {f : Nat → K} {w w' : K} {s : Nat} {ss : List Nat}
    (h : IsGreatest {x | x = max w (f s) ∨ ∃ s' ∈ ss, x = f s'} w') :
    IsGreatest {x | x = w ∨ ∃ s' ∈ s :: ss, x = f s'} w' := by
  obtain ⟨hmem, hupper⟩ := h
  have hmax := hupper (.inl rfl)
  constructor
  · rcases hmem with heq | ⟨s', hs', heq⟩
    · rcases max_choice w (f s) with hw | hs
      · exact .inl (heq.trans hw)
      · exact .inr ⟨s, List.mem_cons_self, heq.trans hs⟩
    · exact .inr ⟨s', List.mem_cons_of_mem _ hs', heq⟩
  · rintro x (rfl | ⟨s', hs', rfl⟩)
    · exact (le_max_left ..).trans hmax
    · rcases List.mem_cons.mp hs' with rfl | hs'
      · exact (le_max_right ..).trans hmax
      · exact hupper (.inr ⟨s', hs', rfl⟩)

theorem worse_foldlM (t : DgtPolicyTable K) (a : Nat) (ss : List Nat)
    (w : K) :
    ∃ w', ss.foldlM (t.worse a) (some w) = .ok (some w')
      ∧ IsGreatest {x | x = w ∨ ∃ s ∈ ss, x = t.loss a s} w' := by
  induction ss generalizing w with
  | nil =>
      refine ⟨w, rfl, .inl rfl, ?_⟩
      rintro x (rfl | ⟨s, hs, -⟩)
      · exact le_rfl
      · cases hs
  | cons s ss ih =>
      obtain ⟨w', hfold, hgreatest⟩ := ih (max w (t.loss a s))
      refine ⟨w', ?_, isGreatest_max hgreatest⟩
      rw [List.foldlM_cons, worse_some]
      exact hfold

/-- The scenario loop finds the worst case. -/
theorem actionWorstCaseLoss_exact {t : DgtPolicyTable K}
    (hscen : 0 < t.scenarioCount.toNat) {a : UInt32}
    (ha : a < t.actionCount) :
    ∃ w, obicallDgtActionWorstCaseLoss t a = .ok w ∧ t.WorstCase a w := by
  obtain ⟨n, hn⟩ := Nat.exists_eq_succ_of_ne_zero hscen.ne'
  have hfirst : t.worse a.toNat none 0 = .ok (some (t.loss a.toNat 0)) := by
    rw [DgtPolicyTable.worse, exact_isFinite]
    rfl
  obtain ⟨w, hfold, hgreatest⟩ := worse_foldlM t a.toNat
    ((List.range n).map Nat.succ) (t.loss a.toNat 0)
  refine ⟨w, ?_, ?_⟩
  · have hscan : (List.range t.scenarioCount.toNat).foldlM (t.worse a.toNat)
        none = .ok (some w) := by
      rw [hn, List.range_succ_eq_map, List.foldlM_cons, hfirst]
      exact hfold
    rw [obicallDgtActionWorstCaseLoss, if_neg (UInt32.not_le.mpr ha), hscan]
  · have hset : Set.image (t.loss a.toNat) (Set.Iio t.scenarioCount.toNat)
        = {x | x = t.loss a.toNat 0
          ∨ ∃ s ∈ (List.range n).map Nat.succ, x = t.loss a.toNat s} := by
      ext x
      simp only [hn, Set.mem_image, Set.mem_Iio, List.mem_map, List.mem_range,
        Set.mem_ofPred_eq]
      constructor
      · rintro ⟨s, hs, rfl⟩
        cases s with
        | zero => exact .inl rfl
        | succ s =>
            exact .inr ⟨s + 1, ⟨s, Nat.lt_of_succ_lt_succ hs, rfl⟩, rfl⟩
      · rintro (rfl | ⟨_, ⟨s, hs, rfl⟩, rfl⟩)
        · exact ⟨0, Nat.succ_pos n, rfl⟩
        · exact ⟨s + 1, Nat.succ_lt_succ hs, rfl⟩
    rw [DgtPolicyTable.WorstCase, hset]
    exact hgreatest

-- ============================================================== selection

omit [Field K] [SquareRoot K] in
theorem atLeast_refl (w : K) (i : UInt32) : AtLeast w i w i :=
  .inr ⟨rfl, UInt32.le_refl i⟩

omit [Field K] [SquareRoot K] in
theorem AtLeast.trans {u v w : K} {i j k : UInt32} (h : AtLeast u i v j)
    (h' : AtLeast v j w k) : AtLeast u i w k := by
  rcases h with hlt | ⟨rfl, hid⟩
  · rcases h' with hlt' | ⟨rfl, -⟩
    · exact .inl (hlt.trans hlt')
    · exact .inl hlt
  · rcases h' with hlt' | ⟨rfl, hid'⟩
    · exact .inl hlt'
    · exact .inr ⟨rfl, UInt32.le_trans hid hid'⟩

/-- The test of the loop: the new action replaces the best one exactly
when that one is not as good. -/
theorem replaces_iff {v w : K} {i j : UInt32} :
    (DoubleArith.lt v w || (DoubleArith.eq v w && decide (j < i))) = true
      ↔ ¬ AtLeast w i v j := by
  rw [exact_lt, exact_eq, Bool.or_eq_true, Bool.and_eq_true,
    decide_eq_true_eq, decide_eq_true_eq, decide_eq_true_eq, AtLeast, not_or,
    not_and, not_lt, UInt32.not_le]
  constructor
  · rintro (hlt | ⟨rfl, hid⟩)
    · exact ⟨hlt.le, fun heq => absurd hlt (heq ▸ lt_irrefl _)⟩
    · exact ⟨le_rfl, fun _ => hid⟩
  · rintro ⟨hle, hid⟩
    rcases hle.lt_or_eq with hlt | heq
    · exact .inl hlt
    · exact .inr ⟨heq, hid heq.symm⟩

omit [Field K] [SquareRoot K] in
theorem atLeast_of_not {v w : K} {i j : UInt32} (h : ¬ AtLeast w i v j) :
    AtLeast v j w i := by
  rw [AtLeast, not_or, not_lt, not_and, UInt32.not_le] at h
  rcases h.1.lt_or_eq with hlt | heq
  · exact .inl hlt
  · exact .inr ⟨heq, (UInt32.le_of_lt (h.2 heq.symm))⟩

/-- What the action loop knows after some of the actions. -/
structure BestSoFar (t : DgtPolicyTable K) (elig : DgtEligibility)
    (as : List UInt32) (b : DgtBest K) : Prop where
  count : b.eligibleCount.toNat = as.countP elig.eligible
  none : b.best = none → ∀ a ∈ as, elig.eligible a = false
  least : ∀ i w, b.best = some (i, w) →
    t.Candidate elig (i, w) ∧ ∀ a ∈ as, elig.eligible a = true →
      ∀ v, obicallDgtActionWorstCaseLoss t a = .ok v →
        AtLeast w (t.action i).actionId v (t.action a).actionId

theorem bestSoFar_skip {t : DgtPolicyTable K} {elig : DgtEligibility}
    {as : List UInt32} {b : DgtBest K} {a : UInt32}
    (h : BestSoFar t elig as b) (helig : elig.eligible a = false) :
    BestSoFar t elig (as ++ [a]) b := by
  refine ⟨?_, fun hnone => ?_, fun i w hbest => ?_⟩
  · simp [helig, h.count]
  · rw [List.forall_mem_append, List.forall_mem_singleton]
    exact ⟨h.none hnone, helig⟩
  · obtain ⟨hcand, hleast⟩ := h.least i w hbest
    rw [List.forall_mem_append, List.forall_mem_singleton]
    refine ⟨hcand, hleast, fun helig' => ?_⟩
    rw [helig] at helig'
    cases helig'

/-- One more eligible action, and the best of them all. -/
theorem bestSoFar_take {t : DgtPolicyTable K} {elig : DgtEligibility}
    {as : List UInt32} {b : DgtBest K} {a : UInt32}
    (h : BestSoFar t elig as b) (hlen : as.length < dgtMaxActions)
    (helig : elig.eligible a = true) {i : UInt32} {w : K}
    (hcand : t.Candidate elig (i, w))
    (hleast : ∀ a' ∈ as, elig.eligible a' = true →
      ∀ v, obicallDgtActionWorstCaseLoss t a' = .ok v →
        AtLeast w (t.action i).actionId v (t.action a').actionId)
    (hlast : ∀ v, obicallDgtActionWorstCaseLoss t a = .ok v →
      AtLeast w (t.action i).actionId v (t.action a).actionId) :
    BestSoFar t elig (as ++ [a]) ⟨b.eligibleCount + 1, some (i, w)⟩ := by
  refine ⟨?_, fun hnone => ?_, fun i' w' hbest => ?_⟩
  · have hle : as.countP elig.eligible ≤ as.length := List.countP_le_length
    have hcount := h.count
    have hone : [a].countP elig.eligible = 1 := by simp [helig]
    have hnum : (1 : UInt32).toNat = 1 := rfl
    rw [List.countP_append, hone, ← hcount, UInt32.toNat_add, hnum]
    have hmax : dgtMaxActions = 16 := rfl
    exact Nat.mod_eq_of_lt (by omega)
  · cases hnone
  · cases hbest
    rw [List.forall_mem_append, List.forall_mem_singleton]
    exact ⟨hcand, hleast, fun _ => hlast⟩

theorem bestSoFar_consider {t : DgtPolicyTable K} {elig : DgtEligibility}
    (hscen : 0 < t.scenarioCount.toNat) {as : List UInt32} {b : DgtBest K}
    (hlen : as.length < dgtMaxActions) {a : UInt32} (ha : a < t.actionCount)
    (h : BestSoFar t elig as b) :
    BestSoFar t elig (as ++ [a]) (t.consider elig b a) := by
  rw [DgtPolicyTable.consider]
  cases helig : elig.eligible a with
  | false => exact bestSoFar_skip h helig
  | true =>
      obtain ⟨v, hv, -⟩ := actionWorstCaseLoss_exact hscen ha
      have hnew : t.Candidate elig (a, v) := ⟨ha, helig, hv⟩
      have hsame : ∀ v', obicallDgtActionWorstCaseLoss t a = .ok v' → v = v' :=
        fun v' hv' => Except.ok.inj (hv.symm.trans hv')
      have hself : ∀ v', obicallDgtActionWorstCaseLoss t a = .ok v' →
          AtLeast v (t.action a).actionId v' (t.action a).actionId :=
        fun v' hv' => hsame v' hv' ▸ atLeast_refl v _
      rw [hv, Bool.not_true, if_neg Bool.false_ne_true]
      -- the new action is judged against the best of the others
      cases hold : b.best with
      | none =>
          refine bestSoFar_take h hlen helig hnew (fun a' ha' helig' => ?_)
            hself
          rw [h.none hold a' ha'] at helig'
          cases helig'
      | some best =>
          obtain ⟨i₀, w₀⟩ := best
          obtain ⟨hcand, hleast⟩ := h.least i₀ w₀ hold
          dsimp only
          split
          next hreplace =>
            have hbetter := atLeast_of_not (replaces_iff.mp hreplace)
            exact bestSoFar_take h hlen helig hnew
              (fun a' ha' helig' v' hv' =>
                hbetter.trans (hleast a' ha' helig' v' hv')) hself
          next hstays =>
            rw [replaces_iff, not_not] at hstays
            exact bestSoFar_take h hlen helig hcand hleast
              fun v' hv' => hsame v' hv' ▸ hstays

theorem bestSoFar_foldl {t : DgtPolicyTable K} {elig : DgtEligibility}
    (hscen : 0 < t.scenarioCount.toNat) {as' : List UInt32}
    (has' : ∀ a ∈ as', a < t.actionCount) {as : List UInt32} {b : DgtBest K}
    (hlen : (as ++ as').length ≤ dgtMaxActions) (h : BestSoFar t elig as b) :
    BestSoFar t elig (as ++ as') (as'.foldl (t.consider elig) b) := by
  induction as' generalizing as b with
  | nil =>
      rw [List.append_nil]
      exact h
  | cons a as' ih =>
      obtain ⟨ha, has'⟩ := List.forall_mem_cons.mp has'
      have hroom : as.length < dgtMaxActions := by
        rw [List.length_append, List.length_cons] at hlen
        omega
      rw [List.append_cons] at hlen ⊢
      exact ih has' hlen (bestSoFar_consider hscen hroom ha h)

/-- The action loop over a table that passes its check. -/
theorem bestSoFar_bestOf {t : DgtPolicyTable K}
    (hvalid : obicallDgtValidateTable t = .ok ()) (elig : DgtEligibility) :
    BestSoFar t elig
      ((List.range t.actionCount.toNat).map UInt32.ofNat) (t.bestOf elig) := by
  obtain ⟨hcount, hscen, -⟩ := bounds_of_valid hvalid
  have hstart : BestSoFar t elig [] ⟨0, none⟩ := by
    refine ⟨rfl, fun _ a ha => ?_, fun i w h => ?_⟩
    · cases ha
    · cases h
  refine bestSoFar_foldl hscen (fun a => mem_actions_iff.mp) ?_ hstart
  rw [List.nil_append, List.length_map, List.length_range]
  exact hcount

-- ================================================================ decision

theorem worstCase_of_ok {t : DgtPolicyTable K}
    (hscen : 0 < t.scenarioCount.toNat) {a : UInt32} {w : K}
    (ha : a < t.actionCount)
    (h : obicallDgtActionWorstCaseLoss t a = .ok w) : t.WorstCase a w := by
  obtain ⟨w', hw', hworst⟩ := actionWorstCaseLoss_exact hscen ha
  rw [h] at hw'
  exact Except.ok.inj hw' ▸ hworst

theorem ok_of_worstCase {t : DgtPolicyTable K}
    (hscen : 0 < t.scenarioCount.toNat) {a : UInt32} {w : K}
    (ha : a < t.actionCount) (h : t.WorstCase a w) :
    obicallDgtActionWorstCaseLoss t a = .ok w := by
  obtain ⟨w', hw', hworst⟩ := actionWorstCaseLoss_exact hscen ha
  rw [hw', hworst.unique h]

/-- The loop finds the best action, if there is an eligible one. -/
theorem best_of_eligible {t : DgtPolicyTable K}
    (hvalid : obicallDgtValidateTable t = .ok ()) {elig : DgtEligibility}
    (hsome : ∃ a, t.Eligible elig a) :
    ∃ a w, (t.bestOf elig).best = some (a, w) ∧ t.Best elig a w := by
  have hscen := (bounds_of_valid hvalid).2.1
  have hbest := bestSoFar_bestOf hvalid elig
  cases h : (t.bestOf elig).best with
  | none =>
      obtain ⟨a, ha, helig⟩ := hsome
      rw [hbest.none h a (mem_actions_iff.mpr ha)] at helig
      cases helig
  | some p =>
      obtain ⟨a, w⟩ := p
      obtain ⟨⟨ha, helig, hloss⟩, hleast⟩ := hbest.least a w h
      refine ⟨a, w, rfl, ⟨ha, helig⟩, worstCase_of_ok hscen ha hloss, ?_⟩
      rintro b v ⟨hb, hbelig⟩ hv
      exact hleast b (mem_actions_iff.mpr hb) hbelig v
        (ok_of_worstCase hscen hb hv)

theorem held_iff {t : DgtPolicyTable K} {elig : DgtEligibility}
    (hscen : 0 < t.scenarioCount.toNat)
    {hin : Option (DgtHysteresisState K)} {margin best : K} {a : UInt32}
    {w : K} :
    t.Held elig hin margin best a w
      ↔ t.heldLoss elig hin = some (a, w) ∧ ¬ best < (1 - margin) * w := by
  rw [heldLoss_eq_some_iff]
  constructor
  · rintro ⟨h, rfl, hprev, rfl, ⟨hlt, helig⟩, hworst, hbest⟩
    exact ⟨⟨h, rfl, hprev, rfl, hlt, helig, ok_of_worstCase hscen hlt hworst⟩,
      hbest⟩
  · rintro ⟨⟨h, rfl, hprev, hindex, hlt, helig, hloss⟩, hbest⟩
    exact ⟨h, rfl, hprev, hindex, ⟨hlt, helig⟩,
      worstCase_of_ok hscen hlt hloss, hbest⟩

variable [IsStrictOrderedRing K]

theorem settle_some (margin : K) (best : UInt32 × K) (a : UInt32) (v : K) :
    DgtPolicyTable.settle margin best (some (a, v))
      = if best.2 < (1 - margin) * v then best else (a, v) := by
  rw [DgtPolicyTable.settle, exact_lt, exact_one, mul_comm]
  simp only [decide_eq_true_eq]

/-- In exact arithmetic, from a table that passes its check and with an
eligible action, the selector takes the best action or the one it
holds. -/
theorem select_minimax {t : DgtPolicyTable K}
    (hvalid : obicallDgtValidateTable t = .ok ()) {elig : DgtEligibility}
    (hsome : ∃ a, t.Eligible elig a)
    (hin : Option (DgtHysteresisState K)) (margin : K) (baseline : UInt32) :
    let out := obicallDgtSelectAction t elig hin margin baseline
    out.1 = .ok ∧ t.Minimax elig hin margin out.2.1 := by
  have hscen := (bounds_of_valid hvalid).2.1
  obtain ⟨best, w, hbest, hleast⟩ := best_of_eligible hvalid hsome
  obtain ⟨hold, hselect⟩ :=
    obicallDgtSelectAction_settle hvalid hbest hin margin baseline
  have hcount := (bestSoFar_bestOf hvalid elig).count
  intro out
  have hout : out = _ := hselect
  rw [hout]
  refine ⟨rfl, ?_⟩
  cases hheld : t.heldLoss elig hin with
  | none =>
      have hnone : ∀ a v, ¬ t.Held elig hin margin w a v := by
        intro a v h
        rw [held_iff hscen, hheld] at h
        cases h.1
      exact ⟨hleast.1, ⟨best, w, hleast, .inr ⟨hnone, rfl⟩⟩, rfl, hleast.2.1,
        hcount⟩
  | some prev =>
      obtain ⟨a, v⟩ := prev
      rw [settle_some]
      by_cases hlt : w < (1 - margin) * v
      · have hnone : ∀ a' v', ¬ t.Held elig hin margin w a' v' := by
          intro a' v' h
          rw [held_iff hscen, hheld] at h
          cases h.1
          exact h.2 hlt
        rw [if_pos hlt]
        exact ⟨hleast.1, ⟨best, w, hleast, .inr ⟨hnone, rfl⟩⟩, rfl,
          hleast.2.1, hcount⟩
      · have hkept : t.Held elig hin margin w a v :=
          (held_iff hscen).mpr ⟨hheld, hlt⟩
        obtain ⟨-, -, -, -, helig, hworst, -⟩ := id hkept
        rw [if_neg hlt]
        exact ⟨helig, ⟨best, w, hleast, .inl ⟨v, hkept⟩⟩, rfl, hworst,
          hcount⟩

/-- Two actions and one scenario, of losses 2 and 1. -/
def twoActions : DgtPolicyTable ℚ where
  structSize := sizeofDgtPolicyTable
  schemaVersion := dgtPolicySchemaVersion
  actionCount := 2
  actions := Vector.ofFn fun a => ⟨UInt32.ofNat a.val, 1⟩
  scenarioCount := 1
  weights := ⟨1, 0, 0, 0⟩
  cost := Vector.ofFn fun a => Vector.replicate _
    ⟨if a.val = 0 then 2 else 1, 0, 0, 0⟩
  scaleEstimationError := 1
  scaleDelay := 1
  scaleCoverageLoss := 1
  scaleResourceCost := 1

def allEligible : DgtEligibility := Vector.replicate _ true

/-- The first action was selected before, and the other one is not
better by the margin. -/
theorem select_minimax_held :
    let out := obicallDgtSelectAction twoActions allEligible
      (some ⟨true, 0, 2⟩) (3 / 4) 0
    out.2.1.selectedActionIndex = 0 ∧ out.1 = .ok
      ∧ twoActions.Minimax allEligible (some ⟨true, 0, 2⟩) (3 / 4) out.2.1 :=
  ⟨by decide +kernel, select_minimax (by decide +kernel)
    ⟨0, by decide, by decide⟩ (some ⟨true, 0, 2⟩) (3 / 4) 0⟩

end Obicall
