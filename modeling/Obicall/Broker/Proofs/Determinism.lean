/-
Two brokers on one stream: what the difference of their clocks can do.

Each broker takes the same queue entries, at times of its own and with
an epoch of its own. The clock reaches the estimator and the results by
one path: sensor freshness decides the eligibility of the policy's
actions, and that decides which observations are used.

# The argument

`BrokerCtx.shared` erases what is a broker's own (its letter and when it
last saw each sensor), `Result.shared` the same of a result (letter,
epoch, times). An entry's turn is a function of the shared context, the
entry and the eligibility (`conclude_shared`), and with the policy off
not even of the eligibility (`conclude_policy_off`). So two brokers stay
equal in what they share as long as both find the same of the sensors
the policy needs observable (`sameFreshness`). Where they do not, they
part: `stale_replica_differs`.
-/
import Mathlib.Data.List.Basic
import Obicall.Broker.Process
import Obicall.Core.Observation
import Obicall.Lib.Replica

namespace Obicall

open Lib.Run Lib.Replica

variable {F : Type}

-- ============================================================= statement

/-- A broker and every result it has published. -/
structure Replica (F : Type) where
  ctx : BrokerCtx F
  published : List (Result F)

variable [DoubleBits F] [DoubleArith F]

def Replica.start (opts : BrokerOptions F) (brokerId : UInt32) : Replica F :=
  ⟨.start brokerId opts, []⟩

/-- One entry. -/
def Replica.step (r : Replica F) (e : QueueEntry F) (i : LocalInput) :
    Replica F :=
  let (g, result) := r.ctx.processEntry e i.now i.epochBelief
  ⟨g, r.published ++ [result]⟩

/-- Two brokers of one configuration over a list of entries, each entry
with what it meets at either broker. -/
def replicaRun (opts : BrokerOptions F) (idA idB : UInt32)
    (es : List (QueueEntry F × LocalInput × LocalInput)) :
    Replica F × Replica F :=
  run (both Replica.step) (.start opts idA, .start opts idB) es

omit [DoubleBits F] [DoubleArith F] in
/-- Two results of one window that say the same. -/
structure Result.SameOutput (a b : Result F) : Prop where
  windowSeq : a.windowSeq = b.windowSeq
  status : a.status = b.status
  payload : (a.payloadShape, a.payloadCount, a.payload)
    = (b.payloadShape, b.payloadCount, b.payload)
  covariance : (a.covarianceCount, a.covariance)
    = (b.covarianceCount, b.covariance)
  sources : (a.sourceCount, a.sources) = (b.sourceCount, b.sources)
  dgtActionId : a.dgtActionId = b.dgtActionId

omit [DoubleBits F] [DoubleArith F] in
/-- Equal estimators, and results that say the same window by window. -/
structure Agree (s : Replica F × Replica F) : Prop where
  kf : s.1.ctx.kf = s.2.ctx.kf
  kfReady : s.1.ctx.kfReady = s.2.ctx.kfReady
  published : List.Forall₂ Result.SameOutput s.1.published s.2.published

omit [DoubleBits F] [DoubleArith F] in
/-- The policy is off, or both brokers, once the entry's own sensor is
touched, find the same of the sensors it needs observable. -/
def sameFreshness (s : Replica F × Replica F)
    (e : QueueEntry F × LocalInput × LocalInput) : Bool :=
  let a := s.1.ctx.touch e.1 e.2.1.now
  let b := s.2.ctx.touch e.1 e.2.2.now
  !s.1.ctx.policyOn || s.1.ctx.sensorNames.val.zipIdx.all fun p =>
    !s.1.ctx.dgt.needs p.2
      || a.observable e.2.1.now p.1 == b.observable e.2.2.now p.1

-- ================================================================ sharing

omit [DoubleBits F] [DoubleArith F] in
/-- A context without what is a broker's own. -/
def BrokerCtx.shared (g : BrokerCtx F) : BrokerCtx F :=
  { g with brokerId := 0, sensors := ⟨[], Nat.zero_le _⟩ }

omit [DoubleBits F] [DoubleArith F] in
/-- A result without what is a broker's own. -/
def Result.shared (r : Result F) : Result F :=
  { r with brokerId := 0, epoch := 0, timestampNs := 0, validUntilNs := 0 }

omit [DoubleBits F] [DoubleArith F] in
@[simp] theorem touch_shared (g : BrokerCtx F) (e : QueueEntry F)
    (now : Int64) : (g.touch e now).shared = g.shared := by
  unfold BrokerCtx.touch
  split
  · rfl
  · rfl

omit [DoubleBits F] [DoubleArith F] in
theorem dgt_of_shared {a b : BrokerCtx F} (h : a.shared = b.shared) :
    a.dgt = b.dgt := by
  show a.shared.dgt = b.shared.dgt
  rw [h]

omit [DoubleBits F] [DoubleArith F] in
theorem sensorNames_of_shared {a b : BrokerCtx F}
    (h : a.shared = b.shared) : a.sensorNames = b.sensorNames := by
  show a.shared.sensorNames = b.shared.sensorNames
  rw [h]

omit [DoubleBits F] [DoubleArith F] in
theorem policyOn_of_shared {a b : BrokerCtx F} (h : a.shared = b.shared) :
    a.policyOn = b.policyOn := by
  show a.shared.policyOn = b.shared.policyOn
  rw [h]

omit [DoubleBits F] in
/-- The policy sees the shared context. -/
theorem applyPolicy_shared (g : BrokerCtx F) (elig : DgtEligibility) :
    g.shared.applyPolicy elig
      = ((g.applyPolicy elig).1.shared, (g.applyPolicy elig).2) := by
  unfold BrokerCtx.applyPolicy
  rw [show g.shared.policyOn = g.policyOn from rfl,
    show g.shared.selection elig = g.selection elig from rfl]
  cases g.policyOn with
  | false => rfl
  | true =>
      rw [if_pos rfl, if_pos rfl]
      rcases g.selection elig with ⟨st, decision, hout⟩
      dsimp only
      by_cases hst : st = .ok
      · rw [if_pos hst, if_pos hst]
        rfl
      · rw [if_neg hst, if_neg hst]
        rfl

omit [DoubleBits F] in
/-- So does the estimator. -/
theorem estimate_shared (g : BrokerCtx F) (e : QueueEntry F)
    (selectedMask : UInt32) :
    g.shared.estimate e selectedMask
      = ((g.estimate e selectedMask).1.shared,
        (g.estimate e selectedMask).2) := by
  unfold BrokerCtx.estimate
  rw [show g.shared.feeds e selectedMask = g.feeds e selectedMask from rfl,
    show g.shared.kfReady = g.kfReady from rfl]
  cases g.feeds e selectedMask with
  | false => rfl
  | true =>
      cases g.kfReady with
      | false => rfl
      | true => rfl

/-- And the result is made of it, up to what is a broker's own. -/
theorem result_shared (g : BrokerCtx F) (e : QueueEntry F)
    (decision : DgtDecision F) (used : Bool) (now : Int64)
    (epochBelief : UInt64) :
    (g.result e decision used now epochBelief).shared
      = (g.shared.result e decision used 0 0).shared := by
  rfl

/-- An entry's turn after the eligibility, up to what is a broker's
own. -/
theorem conclude_shared (g : BrokerCtx F) (e : QueueEntry F)
    (elig : DgtEligibility) (now : Int64) (epochBelief : UInt64) :
    (g.conclude e elig now epochBelief).1.shared
        = (g.shared.conclude e elig 0 0).1.shared
      ∧ (g.conclude e elig now epochBelief).2.shared
        = (g.shared.conclude e elig 0 0).2.shared := by
  unfold BrokerCtx.conclude
  rw [applyPolicy_shared]
  dsimp only
  rw [estimate_shared]
  exact ⟨rfl, result_shared ..⟩

/-- With the policy off the eligibility is not looked at. -/
theorem conclude_policy_off {g : BrokerCtx F} (h : g.policyOn = false)
    (e : QueueEntry F) (elig elig' : DgtEligibility) (now : Int64)
    (epochBelief : UInt64) :
    g.conclude e elig now epochBelief = g.conclude e elig' now epochBelief := by
  unfold BrokerCtx.conclude BrokerCtx.applyPolicy
  rw [h]
  rfl

/-- An entry does not turn the policy on or off. -/
theorem policyOn_processEntry (g : BrokerCtx F) (e : QueueEntry F)
    (now : Int64) (epochBelief : UInt64) :
    (g.processEntry e now epochBelief).1.policyOn = g.policyOn := by
  obtain ⟨_, _, _, _, _, _, h⟩ := processEntry_frame g e now epochBelief
  rw [h]
  rfl

-- ============================================================= the clock

omit [DoubleBits F] [DoubleArith F] in
/-- What the clock lets through: the eligibility, when it is looked
at. -/
def Replica.clue (r : Replica F) (e : QueueEntry F) (i : LocalInput) :
    DgtEligibility :=
  if r.ctx.policyOn then (r.ctx.touch e i.now).eligibility i.now
  else Vector.replicate _ false

omit [DoubleBits F] [DoubleArith F] in
/-- What two brokers are compared on. -/
def Replica.view (r : Replica F) : BrokerCtx F × List (Result F) :=
  (r.ctx.shared, r.published.map Result.shared)

/-- An entry in terms of the view and the clue. -/
def nextView (v : BrokerCtx F × List (Result F)) (e : QueueEntry F)
    (elig : DgtEligibility) : BrokerCtx F × List (Result F) :=
  let c := v.1.conclude e elig 0 0
  (c.1.shared, v.2 ++ [c.2.shared])

theorem step_factors :
    Factors Replica.step Replica.view Replica.clue (nextView (F := F)) := by
  intro r e i
  obtain ⟨hctx, hresult⟩ := conclude_shared (r.ctx.touch e i.now) e
    ((r.ctx.touch e i.now).eligibility i.now) i.now i.epochBelief
  rw [touch_shared] at hctx hresult
  have hclue : r.ctx.shared.conclude e
      ((r.ctx.touch e i.now).eligibility i.now) 0 0
      = r.ctx.shared.conclude e (r.clue e i) 0 0 := by
    unfold Replica.clue
    cases hon : r.ctx.policyOn with
    | false =>
        have hoff : r.ctx.shared.policyOn = false := hon
        exact conclude_policy_off hoff ..
    | true => rfl
  rw [hclue] at hctx hresult
  unfold Replica.view Replica.step nextView BrokerCtx.processEntry
  dsimp only
  rw [hctx, List.map_append, List.map_singleton, hresult]

omit [DoubleBits F] [DoubleArith F] in
/-- Brokers that find the same of a mask's sensors observable judge the
action alike. -/
theorem actionOk_congr {a b : BrokerCtx F} {nowA nowB : Int64}
    {mask : UInt64} (hnames : a.sensorNames = b.sensorNames)
    (h : ∀ p ∈ a.sensorNames.val.zipIdx, maskHas mask p.2 = true →
      a.observable nowA p.1 = b.observable nowB p.1) :
    a.actionOk nowA mask = b.actionOk nowB mask := by
  have hall : ∀ p ∈ a.sensorNames.val.zipIdx,
      (!maskHas mask p.2 || a.observable nowA p.1)
        = (!maskHas mask p.2 || b.observable nowB p.1) := by
    intro p hp
    cases hmask : maskHas mask p.2 with
    | false => rw [Bool.not_false, Bool.true_or, Bool.true_or]
    | true => rw [h p hp hmask]
  have hsame : (a.sensorNames.val.zipIdx.all fun p =>
        !maskHas mask p.2 || a.observable nowA p.1)
      = a.sensorNames.val.zipIdx.all fun p =>
        !maskHas mask p.2 || b.observable nowB p.1 := by
    rw [Bool.eq_iff_iff, List.all_eq_true, List.all_eq_true]
    exact forall₂_congr fun p hp => by rw [hall p hp]
  unfold BrokerCtx.actionOk
  rw [hsame, ← hnames]

omit [DoubleBits F] [DoubleArith F] in
/-- Brokers that find the same needed sensors observable have the same
actions to choose from. -/
theorem eligibility_congr {a b : BrokerCtx F} {nowA nowB : Int64}
    (hdgt : a.dgt = b.dgt) (hnames : a.sensorNames = b.sensorNames)
    (h : ∀ p ∈ a.sensorNames.val.zipIdx, a.dgt.needs p.2 = true →
      a.observable nowA p.1 = b.observable nowB p.1) :
    a.eligibility nowA = b.eligibility nowB := by
  unfold BrokerCtx.eligibility
  rw [← hdgt]
  refine congrArg Vector.ofFn (funext fun i => ?_)
  by_cases hi : i.val < a.dgt.actionCount.toNat
  · rw [actionOk_congr hnames]
    intro p hp hmask
    refine h p hp (List.any_eq_true.mpr ⟨i, List.mem_finRange i, ?_⟩)
    rw [hmask, decide_eq_true hi]
    rfl
  · rw [decide_eq_false hi, Bool.false_and, Bool.false_and]

omit [DoubleBits F] [DoubleArith F] in
theorem clue_eq_of_sameFreshness {s : Replica F × Replica F}
    {e : QueueEntry F × LocalInput × LocalInput}
    (hview : s.1.view = s.2.view) (h : sameFreshness s e = true) :
    s.1.clue e.1 e.2.1 = s.2.clue e.1 e.2.2 := by
  have hctx : s.1.ctx.shared = s.2.ctx.shared := congrArg Prod.fst hview
  unfold Replica.clue
  rw [← policyOn_of_shared hctx]
  cases hp : s.1.ctx.policyOn with
  | false => rw [if_neg (by decide), if_neg (by decide)]
  | true =>
      have hA := touch_shared s.1.ctx e.1 e.2.1.now
      have hAB := hA.trans (hctx.trans (touch_shared s.2.ctx e.1 e.2.2.now).symm)
      refine eligibility_congr (dgt_of_shared hAB) (sensorNames_of_shared hAB)
        ?_
      intro p hmem hneeds
      rw [sensorNames_of_shared hA] at hmem
      rw [dgt_of_shared hA] at hneeds
      unfold sameFreshness at h
      rw [hp] at h
      have hall := List.all_eq_true.mp h p hmem
      rw [hneeds] at hall
      exact eq_of_beq hall

-- ============================================================== agreement

omit [DoubleBits F] [DoubleArith F] in
theorem sameOutput_of_shared {a b : Result F} (h : a.shared = b.shared) :
    a.SameOutput b where
  windowSeq := by
    show a.shared.windowSeq = b.shared.windowSeq
    rw [h]
  status := by
    show a.shared.status = b.shared.status
    rw [h]
  payload := by
    show (a.shared.payloadShape, a.shared.payloadCount, a.shared.payload) = _
    rw [h]
    rfl
  covariance := by
    show (a.shared.covarianceCount, a.shared.covariance) = _
    rw [h]
    rfl
  sources := by
    show (a.shared.sourceCount, a.shared.sources) = _
    rw [h]
    rfl
  dgtActionId := by
    show a.shared.dgtActionId = b.shared.dgtActionId
    rw [h]

omit [DoubleBits F] [DoubleArith F] in
theorem agree_of_view_eq {s : Replica F × Replica F}
    (h : s.1.view = s.2.view) : Agree s := by
  have hctx : s.1.ctx.shared = s.2.ctx.shared := congrArg Prod.fst h
  have hresults : s.1.published.map Result.shared
      = s.2.published.map Result.shared := congrArg Prod.snd h
  refine ⟨?_, ?_, ?_⟩
  · show s.1.ctx.shared.kf = s.2.ctx.shared.kf
    rw [hctx]
  · show s.1.ctx.shared.kfReady = s.2.ctx.shared.kfReady
    rw [hctx]
  · rw [← List.forall₂_eq_eq_eq, List.forall₂_map_left_iff,
      List.forall₂_map_right_iff] at hresults
    exact hresults.imp fun _ _ => sameOutput_of_shared

/-- Brokers that start alike and always find the same needed sensors
observable share everything but what is their own. -/
theorem view_eq_of_sameFreshness {s : Replica F × Replica F}
    (hs : s.1.view = s.2.view)
    {es : List (QueueEntry F × LocalInput × LocalInput)}
    (hes : Meets (both Replica.step) (fun s e => sameFreshness s e = true) s
      es) :
    (run (both Replica.step) s es).1.view
      = (run (both Replica.step) s es).2.view :=
  run_view_eq step_factors (fun _ _ => clue_eq_of_sameFreshness) hs hes

/-- In every run in which the two brokers find the same needed sensors
observable at every entry, their estimators and what their results say
stay equal. -/
theorem replicas_agree (opts : BrokerOptions F) (idA idB : UInt32)
    {es : List (QueueEntry F × LocalInput × LocalInput)}
    (h : Meets (both Replica.step) (fun s e => sameFreshness s e = true)
      (.start opts idA, .start opts idB) es) :
    Agree (replicaRun opts idA idB es) :=
  agree_of_view_eq (view_eq_of_sameFreshness rfl h)

/-- Three sensors `p`, `q` and `r`, the default policy with its default
margin. -/
def threeSensors : BrokerOptions Binary64 where
  pipelineId := [112]
  configDigest := Vector.replicate 32 0
  resultValidityMs := 500
  sensorFreshWindowMs := 1000
  dgtEnabled := true
  dgtHysteresisMargin := 0.05
  kfParams := ⟨0.05, 0.1, 10.0, 10.0, 30.0⟩
  sensorIds := [112, 44, 113, 44, 114]

/-- A one-dimensional position from `p`, which both brokers process at
once, and then a position from `r`. -/
def twoEntries (nowA nowB : Int64) :
    List (QueueEntry Binary64 × LocalInput × LocalInput) :=
  let first := { makeObs [112] 1 1 1000000000 1.0 0.0 with
    payloadShape := shapePosition1d, payloadCount := 1, covarianceCount := 1 }
  let second := makeObs [114] 1 1 1000000000 1.0 2.0
  [(⟨1, first, 1⟩, ⟨1000000000, 0⟩, ⟨1000000000, 0⟩),
    (⟨2, second, 1⟩, ⟨nowA, 0⟩, ⟨nowB, 0⟩)]

/-- Both take the second entry while `p` is fresh, at different times. -/
theorem replicas_agree_threeSensors :
    Meets (both Replica.step) (fun s e => sameFreshness s e = true)
      (.start threeSensors brokerA, .start threeSensors brokerB)
      (twoEntries 1100000000 1900000000)
    ∧ Agree (replicaRun threeSensors brokerA brokerB
      (twoEntries 1100000000 1900000000)) := by
  have hfresh : Meets (both Replica.step)
      (fun s e => sameFreshness s e = true)
      (.start threeSensors brokerA, .start threeSensors brokerB)
      (twoEntries 1100000000 1900000000) := by
    decide +kernel
  exact ⟨hfresh, replicas_agree threeSensors brokerA brokerB hfresh⟩

/-- When the second broker takes it two seconds later, `p` is stale
there: it has no eligible action, uses every sensor and starts its
filter, which the first broker does not. -/
theorem stale_replica_differs :
    ¬ Agree (replicaRun threeSensors brokerA brokerB
      (twoEntries 1000000000 3000000000)) := by
  intro h
  have hA : (replicaRun threeSensors brokerA brokerB
      (twoEntries 1000000000 3000000000)).1.ctx.kfReady = false := by
    decide +kernel
  have hB : (replicaRun threeSensors brokerA brokerB
      (twoEntries 1000000000 3000000000)).2.ctx.kfReady = true := by
    decide +kernel
  have hready := h.kfReady
  rw [hA, hB] at hready
  cases hready

/-- With the policy off, or no sensors configured, they agree whatever
their clocks say. -/
theorem replicas_agree_policy_off {opts : BrokerOptions F}
    (h : opts.dgtEnabled = false ∨ (parseSensorIds opts.sensorIds).val = [])
    (idA idB : UInt32)
    (es : List (QueueEntry F × LocalInput × LocalInput)) :
    Agree (replicaRun opts idA idB es) := by
  have hstart : (BrokerCtx.start idA opts).policyOn = false := by
    show (opts.dgtEnabled
      && decide (0 < (parseSensorIds opts.sensorIds).val.length)) = false
    rcases h with h | h
    · rw [h, Bool.false_and]
    · rw [h]
      exact Bool.and_false _
  have hmeets : Meets (both Replica.step)
      (fun s e => sameFreshness s e = true)
      (Replica.start opts idA, Replica.start opts idB) es := by
    refine meets_of_inv (P := fun s => s.1.ctx.policyOn = false) ?_ ?_
      hstart es
    · intro s e hoff
      exact (policyOn_processEntry s.1.ctx e.1 e.2.1.now
        e.2.1.epochBelief).trans hoff
    · intro s e hoff
      unfold sameFreshness
      rw [hoff]
      rfl
  exact agree_of_view_eq (view_eq_of_sameFreshness rfl hmeets)

end Obicall
