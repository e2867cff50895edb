/-
What the broker does when the policy has no action for it.

The default table passes its check and every loss in it is finite, so its
selection fails exactly when no action is eligible, which takes two
configured sensors that are both lost (`selection_fails_iff`). The broker
then goes on with all configured sensors, as if it had no policy: it
offers the filter what it would be offered without one, and its result is
invalid only as long as there is no filter (`refuses_iff`).
-/
import Obicall.Broker.Proofs.Eligibility

namespace Obicall

open Lib.Run

-- ============================================================= statement

section Statement

variable {F : Type} [DoubleArith F]

/-- The policy is asked at this entry and has no action. -/
def BrokerCtx.NoAction (g : BrokerCtx F) (e : QueueEntry F) (now : Int64) :
    Prop :=
  let g := g.touch e now
  g.policyOn = true ∧ (g.selection (g.eligibility now)).1 ≠ .ok

/-- The entry is kept from the estimator, and its window has no valid
result. -/
def BrokerCtx.Refuses [DoubleBits F] (g : BrokerCtx F) (e : QueueEntry F)
    (i : LocalInput) : Prop :=
  let g' := g.touch e i.now
  let (g', _, selectedMask) := g'.applyPolicy (g'.eligibility i.now)
  g'.feeds e selectedMask = false
    ∧ (g.processEntry e i.now i.epochBelief).2.status = resultInvalid

/-- The sensors of the default table are configured, and the broker finds
neither of them observable at this entry. -/
def BrokerCtx.LostBoth (g : BrokerCtx F) (e : QueueEntry F) (now : Int64) :
    Prop :=
  2 ≤ g.sensorNames.val.length
    ∧ ∀ name ∈ g.sensorNames.val.take 2,
      (g.touch e now).observable now name = false

end Statement

-- ================================================================= table

theorem eligible_ofNat (elig : DgtEligibility) (a : Fin dgtMaxActions) :
    elig.eligible (UInt32.ofNat a.val) = elig.get a := by
  have hsize : a.val < UInt32.size := a.isLt.trans (by decide)
  rw [DgtEligibility.eligible, UInt32.toNat_ofNat_of_lt' hsize]
  simp [Vector.getD, a.isLt]
  rfl

/-- The default table passes its own check. -/
theorem validate_default :
    obicallDgtValidateTable (initDefaultDgtTable Binary64) = .ok () := by
  decide +kernel

/-- Its losses are finite. -/
theorem loss_default : ∀ a : Fin 3,
    ∃ w, obicallDgtActionWorstCaseLoss (initDefaultDgtTable Binary64)
      (UInt32.ofNat a) = .ok w := by
  intro a
  rw [worstCaseLoss_ok_iff]
  revert a
  decide +kernel

/-- Of the default table every action that may be chosen can be. -/
theorem no_candidate_default_iff (elig : DgtEligibility) :
    (∀ p, ¬ (initDefaultDgtTable Binary64).Candidate elig p)
      ↔ ∀ a : Fin dgtMaxActions,
        a.val < (initDefaultDgtTable Binary64).actionCount.toNat →
        elig.get a = false := by
  constructor
  · intro h a ha
    obtain ⟨w, hw⟩ := loss_default ⟨a.val, ha⟩
    refine Bool.eq_false_iff.mpr fun helig => h (UInt32.ofNat a.val, w) ?_
    refine ⟨(worstCaseLoss_ok_iff.mp ⟨w, hw⟩).1, ?_, hw⟩
    exact (eligible_ofNat elig a).trans helig
  · rintro h ⟨a, w⟩ ⟨ha, helig, -⟩
    have hlt : a.toNat < 3 := UInt32.lt_iff_toNat_lt.mp ha
    have hfalse := h ⟨a.toNat, Nat.lt_trans hlt (by decide)⟩ hlt
    rw [← eligible_ofNat, UInt32.ofNat_toNat] at hfalse
    exact Bool.false_ne_true (hfalse.symm.trans helig)

-- ============================================================= selection

section Selection

variable {opts : BrokerOptions Binary64} {g : BrokerCtx Binary64}

/-- No action is eligible exactly when both sensors that the table asks
for are there to be missed, and are. -/
theorem no_eligible_iff (hg : g.Configured opts) (now : Int64) :
    (∀ a : Fin dgtMaxActions, a.val < g.dgt.actionCount.toNat →
      (g.eligibility now).get a = false)
      ↔ 2 ≤ g.sensorNames.val.length
        ∧ ∀ name ∈ g.sensorNames.val.take 2,
          g.observable now name = false := by
  have hlost : ∀ b : Nat,
      (∃ name, g.sensorNames.val[b]? = some name
        ∧ g.observable now name = false)
      ↔ ¬ ∀ name, g.sensorNames.val[b]? = some name →
        g.observable now name = true := by
    intro b
    simp only [not_forall, exists_prop, Bool.not_eq_true]
  rw [forall_actions_iff hg now (Q := fun _ ok => ok = false),
    ← first_two_iff, hlost, hlost, ← actionOk_one_iff, ← actionOk_two_iff,
    ← Bool.not_eq_true, ← Bool.not_eq_true, ← Bool.not_eq_true,
    actionOk_three_iff]
  exact ⟨fun h => ⟨h.1, h.2.1⟩, fun h => ⟨h.1, h.2, fun hno => h.1 hno.1⟩⟩

/-- With the policy on, the broker has no action for an entry exactly when
it has lost both sensors. -/
theorem selection_fails_iff (hg : g.Configured opts)
    (e : QueueEntry Binary64) (now : Int64) :
    g.NoAction e now ↔ opts.dgtEnabled = true ∧ g.LostBoth e now := by
  have hg' := hg.touch e now
  have hnames : (g.touch e now).sensorNames = g.sensorNames :=
    hg'.sensorNames.trans hg.sensorNames.symm
  have hok : ((g.touch e now).selection
      ((g.touch e now).eligibility now)).1 ≠ .ok ↔ g.LostBoth e now := by
    rw [BrokerCtx.selection, hg'.dgt, Ne,
      obicallDgtSelectAction_ok_iff validate_default, not_exists,
      no_candidate_default_iff, ← hg'.dgt, no_eligible_iff hg', hnames]
    rfl
  rw [BrokerCtx.NoAction, hok, BrokerCtx.policyOn, hg'.dgtEnabled, hnames,
    Bool.and_eq_true, decide_eq_true_eq, and_assoc]
  refine and_congr_right fun _ => and_iff_right_of_imp fun hlost => ?_
  exact Nat.lt_of_lt_of_le Nat.two_pos hlost.1

end Selection

-- =============================================================== refusal

section Refusal

variable {F : Type} [DoubleArith F] {g : BrokerCtx F}

/-- Without an action the policy leaves everything as it was set before
it was asked. -/
theorem applyPolicy_of_fails {elig : DgtEligibility}
    (hon : g.policyOn = true) (hfails : (g.selection elig).1 ≠ .ok) :
    ∃ decision, g.applyPolicy elig = (g, decision, g.defaultMask) := by
  rw [BrokerCtx.applyPolicy, if_pos hon]
  exact ⟨_, if_neg hfails⟩

omit [DoubleArith F] in
theorem offer_eq_none_iff (e : QueueEntry F) :
    g.offer e = none ↔ g.feeds e g.defaultMask = false := by
  rw [feeds_defaultMask, BrokerCtx.offer]
  cases e.isPosition && g.knows e.obs.sensorId with
  | true =>
      exact iff_of_false (Option.some_ne_none _) (fun h => by cases h)
  | false => exact iff_of_true rfl rfl

variable [DoubleBits F]

/-- A result is invalid exactly when there is no filter. -/
theorem status_result_iff (e : QueueEntry F) (decision : DgtDecision F)
    (used : Bool) (now : Int64) (epochBelief : UInt64) :
    (g.result e decision used now epochBelief).status = resultInvalid
      ↔ g.kfReady = false := by
  show (if !g.kfReady then resultInvalid
    else if g.degraded decision then resultDegraded else resultValid)
      = resultInvalid ↔ _
  cases g.kfReady with
  | false => exact iff_of_true rfl rfl
  | true =>
      cases g.degraded decision with
      | false => exact iff_of_false (by decide) nofun
      | true => exact iff_of_false (by decide) nofun

/-- An entry without an action is refused exactly when there is no filter
yet and nothing to start one with. -/
theorem refuses_iff {e : QueueEntry F} {i : LocalInput}
    (h : g.NoAction e i.now) :
    g.Refuses e i ↔ g.kfReady = false ∧ g.offer e = none := by
  obtain ⟨sensors, htouch⟩ := touch_frame g e i.now
  have hready : (g.touch e i.now).kfReady = g.kfReady := by rw [htouch]
  have hoffer : (g.touch e i.now).offer = g.offer :=
    offer_congr (by rw [htouch])
  rw [← hready, ← hoffer, BrokerCtx.Refuses, BrokerCtx.processEntry,
    BrokerCtx.conclude]
  obtain ⟨hon, hfails⟩ := h
  generalize g.touch e i.now = g' at hon hfails
  obtain ⟨decision, hpolicy⟩ := applyPolicy_of_fails hon hfails
  rw [hpolicy, offer_eq_none_iff, and_comm (a := g'.kfReady = false)]
  dsimp only
  refine and_congr_right fun hfeeds => ?_
  have hestimate : g'.estimate e g'.defaultMask = (g', false) := by
    rw [BrokerCtx.estimate, hfeeds]
    rfl
  rw [hestimate, status_result_iff]

end Refusal

/-- The broker refuses an entry for which the policy has no action exactly
when it has no filter yet and the entry would not start one, so in every
other state in which it has lost both sensors it goes on without them. -/
theorem no_action_refused_iff (brokerId : UInt32)
    (opts : BrokerOptions Binary64)
    (ts : List (QueueEntry Binary64 × LocalInput))
    (e : QueueEntry Binary64) (i : LocalInput) :
    let g := run BrokerCtx.turn (.start brokerId opts) ts
    (g.NoAction e i.now → g.Refuses e i)
      ↔ (opts.dgtEnabled = true → g.LostBoth e i.now →
        g.kfReady = false ∧ g.offer e = none) := by
  intro g
  have hg : g.Configured opts := configured_run ts
  rw [← and_imp, ← selection_fails_iff hg]
  exact forall_congr' refuses_iff

/-- With `p`, `q` and `r` configured and nothing seen of the first two, an
observation of `r` starts the filter and its result is not invalid. And a
filter that `p` started gives a result that is not invalid two seconds
later, when both are lost. -/
theorem goes_on_without_action :
    let opts := withPolicy [112, 44, 113, 44, 114]
    let g := BrokerCtx.start brokerA opts
    let r := letterTurn 114 1000000000
    let p := letterTurn 112 1000000000
    let refused := { (letterTurn 114 3000000000).1 with admitted := 0 }
    (g.NoAction r.1 r.2.now ∧ ¬ g.Refuses r.1 r.2)
    ∧ (g.turn p).NoAction refused 3000000000
    ∧ ¬ (g.turn p).Refuses refused ⟨3000000000, 0⟩ := by
  intro opts g r p refused
  refine ⟨⟨?_, fun h => ?_⟩, ?_, fun h => ?_⟩
  · exact ⟨by decide +kernel, by decide +kernel⟩
  · refine absurd h.1 ?_
    decide +kernel
  · exact ⟨by decide +kernel, by decide +kernel⟩
  · refine absurd h.2 ?_
    decide +kernel

end Obicall
