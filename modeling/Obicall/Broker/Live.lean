/-
The broker's estimator while the policy is off.

Every entry then is offered to the Kalman filter or passed over by the
entry itself and the configured sensors (`BrokerCtx.offer`), so the loop
over the queue feeds a sink: `estimator_turn` is one entry, and
`estimator_run` any number of them.
-/
import Mathlib.Data.List.Basic
import Obicall.Broker.Process
import Obicall.Core.Observation
import Obicall.Lib.Feed
import Obicall.Lib.Run

namespace Obicall

open Lib.Feed Lib.Run

variable {F : Type}

-- ============================================================ estimators

/-- The estimator of a broker: none until `kf_ready`. -/
def BrokerCtx.estimator (g : BrokerCtx F) : Option (KalmanState F) :=
  if g.kfReady then some g.kf else none

/-- The sensors `sensor_bit` has a bit for. -/
def BrokerCtx.knows (g : BrokerCtx F) (sensorId : SensorId) : Bool :=
  g.sensorNames.val.any fun name => strncmpEq name sensorId

/-- An admitted position, which is what an estimator is offered. -/
def QueueEntry.isPosition (e : QueueEntry F) : Bool :=
  e.admitted != 0 && e.obs.payloadShape == shapePosition2d

/-- What the loop offers the filter at an entry. -/
def BrokerCtx.offer (g : BrokerCtx F) (e : QueueEntry F) :
    Option (Observation F) :=
  if e.isPosition && g.knows e.obs.sensorId then some e.obs else none

variable [DoubleArith F]

/-- The two calls the loops make of `estimator.c`. -/
def KalmanParams.sink (params : KalmanParams F) :
    Sink (Observation F) (KalmanState F) where
  first obs := obicallKalmanInit params obs.zx obs.zy obs.sampleTimeNs
  next s obs :=
    (obicallKalmanUpdatePosition s params obs.sampleTimeNs obs.zx obs.zy
      obs.cov).2

-- =============================================================== sensors

/-- A bit below the mask's length is in the mask. -/
theorem lowMask_and_bit : ∀ n ≤ maxTrackedSensors, ∀ i < n,
    ((1 <<< UInt32.ofNat n) - 1 : UInt32) &&& (1 <<< UInt32.ofNat i)
      ≠ 0 := by
  decide

omit [DoubleArith F] in
/-- Without a policy the mask passes the sensors that have a bit. With
none configured it is all ones, but then none has. -/
theorem defaultMask_and_sensorBit (g : BrokerCtx F) (sensorId : SensorId) :
    (g.defaultMask &&& sensorBit g.sensorNames sensorId != 0)
      = g.knows sensorId := by
  rw [BrokerCtx.knows, sensorBit, ← List.findIdx?_isSome]
  cases hfind : g.sensorNames.val.findIdx?
      fun name => strncmpEq name sensorId with
  | none => exact bne_eq_false_iff_eq.mpr (UInt32.and_zero ..)
  | some i =>
      have hlt : i < g.sensorNames.val.length :=
        (List.findIdx?_eq_some_iff_getElem.mp hfind).1
      rw [BrokerCtx.defaultMask, if_pos (Nat.zero_lt_of_lt hlt)]
      exact bne_iff_ne.mpr
        (lowMask_and_bit _ g.sensorNames.property i hlt)

omit [DoubleArith F] in
theorem feeds_defaultMask (g : BrokerCtx F) (e : QueueEntry F) :
    g.feeds e g.defaultMask = (e.isPosition && g.knows e.obs.sensorId) := by
  rw [BrokerCtx.feeds, defaultMask_and_sensorBit, QueueEntry.isPosition,
    Bool.and_right_comm]

-- =============================================================== one turn

/-- The estimator's turn is the sink's. -/
theorem estimator_estimate (g : BrokerCtx F) (e : QueueEntry F) :
    (g.estimate e g.defaultMask).1.estimator
      = g.kfParams.sink.feed g.estimator (g.offer e) := by
  rw [BrokerCtx.estimate, BrokerCtx.offer, feeds_defaultMask]
  cases e.isPosition && g.knows e.obs.sensorId with
  | false => rfl
  | true =>
      cases hready : g.kfReady with
      | false =>
          simp [BrokerCtx.estimator, Sink.feed, KalmanParams.sink,
            Observation.zx, Observation.zy, hready]
      | true =>
          simp [BrokerCtx.estimator, Sink.feed, KalmanParams.sink,
            Observation.zx, Observation.zy, Observation.cov, hready]

variable [DoubleBits F]

/-- With the policy off an entry's turn is the sink's. -/
theorem estimator_turn {g : BrokerCtx F} (hoff : g.policyOn = false)
    (t : QueueEntry F × LocalInput) :
    (g.turn t).estimator
      = g.kfParams.sink.feed g.estimator (g.offer t.1) := by
  obtain ⟨sensors, htouch⟩ := touch_frame g t.1 t.2.now
  have hoff' : BrokerCtx.policyOn { g with sensors } = false := hoff
  rw [BrokerCtx.turn, BrokerCtx.processEntry, BrokerCtx.conclude, htouch,
    BrokerCtx.applyPolicy, hoff']
  exact estimator_estimate { g with sensors } t.1

omit [DoubleArith F] [DoubleBits F] in
theorem offer_congr {g g' : BrokerCtx F}
    (h : g.sensorNames = g'.sensorNames) : g.offer = g'.offer := by
  funext e
  rw [BrokerCtx.offer, BrokerCtx.offer, BrokerCtx.knows, BrokerCtx.knows, h]

/-- The configuration that the estimator's turn reads stays. -/
theorem config_turn (g : BrokerCtx F) (t : QueueEntry F × LocalInput) :
    (g.turn t).policyOn = g.policyOn ∧ (g.turn t).kfParams = g.kfParams
      ∧ (g.turn t).sensorNames = g.sensorNames := by
  obtain ⟨_, _, _, _, _, _, h⟩ := processEntry_frame g t.1 t.2.now
    t.2.epochBelief
  rw [BrokerCtx.turn, h]
  exact ⟨rfl, rfl, rfl⟩

/-- A run of turns feeds the sink what it offers. -/
theorem estimator_run {g : BrokerCtx F} (hoff : g.policyOn = false)
    (ts : List (QueueEntry F × LocalInput)) :
    (run BrokerCtx.turn g ts).estimator
      = (ts.map Prod.fst).foldl
          (fun s e => g.kfParams.sink.feed s (g.offer e)) g.estimator := by
  induction ts generalizing g with
  | nil => rfl
  | cons t ts ih =>
      obtain ⟨hpolicy, hparams, hnames⟩ := config_turn g t
      rw [run_cons, ih (hpolicy.trans hoff), estimator_turn hoff, hparams,
        offer_congr hnames]
      rfl

-- ============================================================= invariant

/-- What a broker with the policy off is at any time. -/
structure BrokerCtx.Live (opts : BrokerOptions F) (g : BrokerCtx F) :
    Prop where
  policyOff : g.policyOn = false
  kfParams : g.kfParams = opts.kfParams
  sensorNames : g.sensorNames = parseSensorIds opts.sensorIds
  initialized : ∀ s, g.estimator = some s → s.initialized = true

variable {opts : BrokerOptions F}

theorem live_start (brokerId : UInt32) (hdgt : opts.dgtEnabled = false) :
    (BrokerCtx.start brokerId opts).Live opts where
  policyOff := by
    rw [BrokerCtx.policyOn, show (BrokerCtx.start brokerId opts).dgtEnabled
      = false from hdgt, Bool.false_and]
  kfParams := rfl
  sensorNames := rfl
  initialized s hs := by cases hs

theorem live_turn {g : BrokerCtx F} (h : g.Live opts)
    (t : QueueEntry F × LocalInput) : (g.turn t).Live opts := by
  obtain ⟨hpolicy, hparams, hnames⟩ := config_turn g t
  refine ⟨hpolicy.trans h.policyOff, hparams.trans h.kfParams,
    hnames.trans h.sensorNames, fun s hs => ?_⟩
  rw [estimator_turn h.policyOff] at hs
  cases hoffer : g.offer t.1 with
  | none =>
      rw [hoffer] at hs
      exact h.initialized s hs
  | some obs =>
      rw [hoffer] at hs
      cases hkf : g.estimator with
      | none =>
          rw [hkf] at hs
          cases hs
          rfl
      | some kf =>
          rw [hkf] at hs
          cases hs
          exact initialized_update (h.initialized kf hkf) ..

theorem live_run {g : BrokerCtx F} (h : g.Live opts)
    (ts : List (QueueEntry F × LocalInput)) :
    (run BrokerCtx.turn g ts).Live opts :=
  run_inv (P := BrokerCtx.Live opts) (fun _ t h => live_turn h t) h ts

-- ================================================================ samples

/-- A configuration with the policy off, the rest as it is by default. -/
def policyOff (sensorIds : List UInt8) : BrokerOptions Binary64 where
  pipelineId := [112]
  configDigest := Vector.replicate 32 0
  resultValidityMs := 500
  sensorFreshWindowMs := 1000
  dgtEnabled := false
  dgtHysteresisMargin := 0.05
  kfParams := ⟨0.05, 0.1, 10.0, 10.0, 30.0⟩
  sensorIds := sensorIds

end Obicall
