/-
What the live estimator does across a gap in its input, the policy off.

The filter is started once. From then on a position is taken exactly
when it is within the gap of the filter's time, and a position that is
not leaves that time where it was: everything later is further away. So
one gap above the limit is the last thing the filter ever notices
(`stuck_of_gap`), and of two consecutive positions the second is absorbed
exactly when both are within the gap of what comes before
(`absorbed_iff`).
-/
import Mathlib.Data.List.Basic
import Obicall.Broker.Live
import Obicall.Core.Observation
import Obicall.Estimator.Proofs.Gap

namespace Obicall

open DoubleArith Lib.Feed Lib.Run

variable {F : Type} [DoubleArith F]

-- ============================================================= statement

/-- A position that journald admitted, from a configured sensor. -/
structure QueueEntry.Usable (e : QueueEntry F) (sensorIds : List UInt8) :
    Prop where
  isPosition : e.isPosition = true
  valid : obicallObservationValidate e.obs = .ok
  configured : ∃ name ∈ (parseSensorIds sensorIds).val,
    strncmpEq name e.obs.sensorId = true

/-- The sample time of a turn's entry. -/
abbrev sampleTime (t : QueueEntry F × LocalInput) : Int64 :=
  t.1.obs.sampleTimeNs

-- ================================================================ offers

omit [DoubleArith F] in
theorem offer_eq_none_or (g : BrokerCtx F) (e : QueueEntry F) :
    g.offer e = none ∨ g.offer e = some e.obs ∧ e.isPosition = true := by
  rw [BrokerCtx.offer]
  split
  next h => exact .inr ⟨rfl, (Bool.and_eq_true_iff.mp h).1⟩
  next => exact .inl rfl

omit [DoubleArith F] in
theorem offer_of_not_isPosition {e : QueueEntry F}
    (h : e.isPosition = false) (g : BrokerCtx F) : g.offer e = none := by
  rw [BrokerCtx.offer, h]
  rfl

theorem offer_of_usable {e : QueueEntry F} {sensorIds : List UInt8}
    (h : e.Usable sensorIds) {g : BrokerCtx F}
    (hg : g.sensorNames = parseSensorIds sensorIds) :
    g.offer e = some e.obs := by
  have hknows : g.knows e.obs.sensorId = true := by
    rw [BrokerCtx.knows, hg]
    exact List.any_eq_true.mpr h.configured
  rw [BrokerCtx.offer, h.isPosition, hknows]
  rfl

-- ============================================================== one offer

variable {params : KalmanParams F}

/-- The numbers of a valid position are finite. -/
theorem isFinite_of_position {obs : Observation F}
    (hshape : obs.payloadShape = shapePosition2d)
    (h : obicallObservationValidate obs = .ok) :
    isFinite obs.zx = true ∧ isFinite obs.zy = true
      ∧ obs.cov.toList.all isFinite = true := by
  obtain ⟨hpayload, hcov⟩ := isFinite_of_valid h
  rw [hshape] at hpayload hcov
  have hget : ∀ {n : Nat} (v : Vector F n) (i : Nat) (hi : i < n),
      v.getD i 0.0 = v[i] := fun v i hi => by simp [Vector.getD, hi]
  have hp0 := hpayload 0 (by decide)
  have hp1 := hpayload 1 (by decide)
  have hc0 := hcov 0 (by decide)
  have hc1 := hcov 1 (by decide)
  have hc2 := hcov 2 (by decide)
  have hc3 := hcov 3 (by decide)
  rw [hget _ _ (by decide)] at hp0 hp1 hc0 hc1 hc2 hc3
  exact ⟨hp0, hp1, by simp [Observation.cov, hc0, hc1, hc2, hc3]⟩

variable [ClockArith F]

/-- Offered a position that is out of the gap, the filter stays. -/
theorem next_of_not_withinGap {s : KalmanState F}
    (hinit : s.initialized = true)
    (hgap : lt 0.0 params.maxPredictionGapS = true) {obs : Observation F}
    (hle : s.lastUpdateTimeNs ≤ obs.sampleTimeNs)
    (h : ¬ params.WithinGap s.lastUpdateTimeNs obs.sampleTimeNs) :
    params.sink.next s obs = s :=
  update_of_not_withinGap hinit hgap hle h

/-- Offered a valid one within it, the filter has its time. -/
theorem next_of_withinGap {s : KalmanState F} (hinit : s.initialized = true)
    (hgap : lt 0.0 params.maxPredictionGapS = true) {e : QueueEntry F}
    {sensorIds : List UInt8} (he : e.Usable sensorIds)
    (hle : s.lastUpdateTimeNs ≤ e.obs.sampleTimeNs)
    (h : params.WithinGap s.lastUpdateTimeNs e.obs.sampleTimeNs) :
    (params.sink.next s e.obs).initialized = true
      ∧ (params.sink.next s e.obs).lastUpdateTimeNs = e.obs.sampleTimeNs := by
  have hshape : e.obs.payloadShape = shapePosition2d :=
    eq_of_beq (Bool.and_eq_true_iff.mp he.isPosition).2
  obtain ⟨hzx, hzy, hcov⟩ := isFinite_of_position hshape he.valid
  exact update_of_withinGap hinit hgap hle hzx hzy hcov h

-- =================================================================== runs

variable [DoubleBits F]

variable {opts : BrokerOptions F}

omit [DoubleArith F] [ClockArith F] [DoubleBits F] in
theorem estimator_of_ready {g : BrokerCtx F} (h : g.kfReady = true) :
    g.estimator = some g.kf := by
  rw [BrokerCtx.estimator, if_pos h]

omit [DoubleArith F] [ClockArith F] [DoubleBits F] in
theorem kf_of_estimator {g : BrokerCtx F} {s : KalmanState F}
    (h : g.estimator = some s) : g.kf = s := by
  rw [BrokerCtx.estimator] at h
  split at h
  · exact Option.some.inj h
  · cases h

omit [ClockArith F] in
theorem turn_of_usable {g : BrokerCtx F} (h : g.Live opts)
    {s : KalmanState F} (hs : g.estimator = some s)
    {t : QueueEntry F × LocalInput} (ht : t.1.Usable opts.sensorIds) :
    (g.turn t).estimator = some (opts.kfParams.sink.next s t.1.obs) := by
  rw [estimator_turn h.policyOff, offer_of_usable ht h.sensorNames, hs,
    h.kfParams]
  rfl

omit [ClockArith F] in
/-- Entries that are no admitted positions leave the estimator alone. -/
theorem idle_run {g : BrokerCtx F} (h : g.Live opts)
    {ts : List (QueueEntry F × LocalInput)}
    (hts : ∀ t ∈ ts, t.1.isPosition = false) :
    (run BrokerCtx.turn g ts).estimator = g.estimator := by
  refine (run_inv_of_mem (P := fun g' : BrokerCtx F =>
    g'.Live opts ∧ g'.estimator = g.estimator)
    (C := fun t : QueueEntry F × LocalInput => t.1.isPosition = false)
    (fun g' t ht hg' => ⟨live_turn hg'.1 t, ?_⟩) ⟨h, rfl⟩ hts).2
  rw [estimator_turn hg'.1.policyOff, offer_of_not_isPosition ht]
  exact hg'.2

/-- Past the gap the filter is stuck: nothing from there on moves it. -/
theorem stuck_of_gap {g : BrokerCtx F} (h : g.Live opts)
    (hgap : lt 0.0 opts.kfParams.maxPredictionGapS = true)
    {s : KalmanState F} (hs : g.estimator = some s) {a : Int64}
    (hle : s.lastUpdateTimeNs ≤ a)
    (hlate : ¬ opts.kfParams.WithinGap s.lastUpdateTimeNs a)
    {ts : List (QueueEntry F × LocalInput)}
    (hts : ∀ t ∈ ts, t.1.isPosition = true → a ≤ sampleTime t) :
    (run BrokerCtx.turn g ts).estimator = some s := by
  have hinit := h.initialized s hs
  refine (run_inv_of_mem (P := fun g' : BrokerCtx F =>
    g'.Live opts ∧ g'.estimator = some s)
    (C := fun t : QueueEntry F × LocalInput =>
      t.1.isPosition = true → a ≤ sampleTime t)
    (fun g' t ht hg' => ⟨live_turn hg'.1 t, ?_⟩) ⟨h, hs⟩ hts).2
  rw [estimator_turn hg'.1.policyOff, hg'.2, hg'.1.kfParams]
  rcases offer_eq_none_or g' t.1 with hoffer | ⟨hoffer, hpos⟩
  · rw [hoffer]
    rfl
  · -- what is too far at `a` is too far at any later time
    have hat := ht hpos
    rw [hoffer]
    exact congrArg some (next_of_not_withinGap hinit hgap
      (Int64.le_trans hle hat) fun hin => hlate (hin.of_le hle hat))

-- =============================================================== absorbed

/-- Of two consecutive positions the second is absorbed exactly when each
is within the gap of what comes before it. When the first is not, the
filter never moves again. -/
theorem absorbed_iff (brokerId : UInt32) (opts : BrokerOptions F)
    (hdgt : opts.dgtEnabled = false)
    (hgap : lt 0.0 opts.kfParams.maxPredictionGapS = true)
    (before between : List (QueueEntry F × LocalInput))
    {t1 t2 : QueueEntry F × LocalInput}
    (h1 : t1.1.Usable opts.sensorIds) (h2 : t2.1.Usable opts.sensorIds)
    (hbetween : ∀ t ∈ between, t.1.isPosition = false) :
    let g := run BrokerCtx.turn (.start brokerId opts) before
    g.kfReady = true → g.kf.lastUpdateTimeNs ≤ sampleTime t1 →
    sampleTime t1 ≤ sampleTime t2 →
    ((run BrokerCtx.turn g (t1 :: between ++ [t2])).kf.lastUpdateTimeNs
        = sampleTime t2
      ↔ opts.kfParams.WithinGap g.kf.lastUpdateTimeNs (sampleTime t1)
        ∧ opts.kfParams.WithinGap (sampleTime t1) (sampleTime t2))
    ∧ (¬ opts.kfParams.WithinGap g.kf.lastUpdateTimeNs (sampleTime t1) →
      ∀ later : List (QueueEntry F × LocalInput),
        (∀ t ∈ later, t.1.isPosition = true → sampleTime t1 ≤ sampleTime t) →
        (run BrokerCtx.turn g (t1 :: later)).kf = g.kf) := by
  intro g hready hlast hle
  have hlive : g.Live opts := live_run (live_start brokerId hdgt) before
  have hs := estimator_of_ready hready
  have hstuck : ¬ opts.kfParams.WithinGap g.kf.lastUpdateTimeNs
      (sampleTime t1) → ∀ later : List (QueueEntry F × LocalInput),
      (∀ t ∈ later, t.1.isPosition = true → sampleTime t1 ≤ sampleTime t) →
      (run BrokerCtx.turn g (t1 :: later)).kf = g.kf := by
    intro hlate later hlater
    refine kf_of_estimator (stuck_of_gap hlive hgap hs hlast hlate ?_)
    exact List.forall_mem_cons.mpr ⟨fun _ => Int64.le_refl _, hlater⟩
  refine ⟨?_, hstuck⟩
  by_cases hin : opts.kfParams.WithinGap g.kf.lastUpdateTimeNs
    (sampleTime t1)
  · obtain ⟨hinit1, (htime1 : _ = sampleTime t1)⟩ :=
      next_of_withinGap (hlive.initialized _ hs) hgap h1 hlast hin
    have hlive2 := live_run (live_turn hlive t1) between
    have hs2 := (idle_run (live_turn hlive t1) hbetween).trans
      (turn_of_usable hlive hs h1)
    have hkf := kf_of_estimator (turn_of_usable hlive2 hs2 h2)
    rw [List.cons_append, run_cons, run_append, run_cons, run_nil, hkf,
      and_iff_right hin]
    rw [← htime1] at hle ⊢
    by_cases hin2 : opts.kfParams.WithinGap
      (opts.kfParams.sink.next g.kf t1.1.obs).lastUpdateTimeNs
      (sampleTime t2)
    · exact iff_of_true (next_of_withinGap hinit1 hgap h2 hle hin2).2 hin2
    · rw [next_of_not_withinGap hinit1 hgap hle hin2]
      refine iff_of_false (fun heq => hin2 ?_) hin2
      rw [heq]
      exact .refl hgap _
  · have hlater : ∀ t ∈ between ++ [t2], t.1.isPosition = true →
        sampleTime t1 ≤ sampleTime t := by
      refine List.forall_mem_append.mpr ⟨fun t ht hpos => ?_,
        List.forall_mem_singleton.mpr fun _ => hle⟩
      rw [hbetween t ht] at hpos
      cases hpos
    rw [List.cons_append, hstuck hin _ hlater]
    refine iff_of_false (fun heq => hin ?_) fun h => hin h.1
    rw [← heq] at hle
    rw [Int64.le_antisymm hlast hle]
    exact .refl hgap _

-- ================================================================ samples

/-- A position from the sensor `cam`, taken at its sample time. -/
def camTurn (seq : UInt64) (sampleNs : Int64) :
    QueueEntry Binary64 × LocalInput :=
  (⟨seq, makeObs [99, 97, 109] 1 seq sampleNs 1.0 2.0, 1⟩, ⟨sampleNs, 0⟩)

/-- The only sensor is `cam`. -/
abbrev camOnly : BrokerOptions Binary64 := policyOff [99, 97, 109]

theorem camTurn_usable (seq : UInt64) (sampleNs : Int64)
    (h : obicallObservationValidate (camTurn seq sampleNs).1.obs = .ok) :
    (camTurn seq sampleNs).1.Usable camOnly.sensorIds where
  isPosition := rfl
  valid := h
  configured := ⟨strncpy31 [99, 97, 109], by decide, beq_self_eq_true _⟩

/-- Positions a second apart are absorbed. -/
theorem absorbed_iff_steady :
    (run BrokerCtx.turn
        (run BrokerCtx.turn (.start brokerA camOnly) [camTurn 1 1000000000])
        [camTurn 2 2000000000, camTurn 3 3000000000]).kf.lastUpdateTimeNs
      = sampleTime (camTurn 3 3000000000) := by
  have hlast : (run BrokerCtx.turn (.start brokerA camOnly)
      [camTurn 1 1000000000]).kf.lastUpdateTimeNs = 1000000000 := by
    decide +kernel
  have h1 := camTurn_usable 2 2000000000 (by decide +kernel)
  have h2 := camTurn_usable 3 3000000000 (by decide +kernel)
  have hbetween : ∀ t ∈ ([] : List (QueueEntry Binary64 × LocalInput)),
      t.1.isPosition = false := fun _ ht => absurd ht List.not_mem_nil
  have h := (absorbed_iff brokerA camOnly rfl (by decide +kernel)
    [camTurn 1 1000000000] [] h1 h2 hbetween (by decide +kernel)
    (by rw [hlast]; decide) (by decide)).1
  rw [hlast, List.cons_append, List.nil_append] at h
  exact h.mpr ⟨⟨by decide, by decide +kernel⟩, ⟨by decide, by decide +kernel⟩⟩

/-- After 31 silent seconds the default filter takes nothing any more: of
two positions a second apart neither is absorbed. -/
theorem gap_not_absorbed :
    let g := run BrokerCtx.turn (.start brokerA camOnly)
      [camTurn 1 1000000000]
    let t1 := camTurn 2 32000000000
    let t2 := camTurn 3 33000000000
    g.kfReady = true ∧ g.kf.lastUpdateTimeNs ≤ sampleTime t1
      ∧ sampleTime t1 ≤ sampleTime t2
      ∧ t1.1.Usable camOnly.sensorIds ∧ t2.1.Usable camOnly.sensorIds
      ∧ (∀ t ∈ [t1, t2],
        t.1.obs.covariance.toList.take 4 = [0.1, 0.0, 0.0, 0.1])
      ∧ camOnly.kfParams.WithinGap (sampleTime t1) (sampleTime t2)
      ∧ (run BrokerCtx.turn g [t1, t2]).kf.lastUpdateTimeNs
        ≠ sampleTime t2 := by
  exact ⟨by decide +kernel, by decide +kernel, by decide,
    camTurn_usable 2 32000000000 (by decide +kernel),
    camTurn_usable 3 33000000000 (by decide +kernel), by decide +kernel,
    ⟨by decide, by decide +kernel⟩, by decide +kernel⟩

end Obicall
