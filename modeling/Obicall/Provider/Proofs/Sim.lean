/-
The readings of the simulated sensor, over everything that can happen to
it: polls, control observations, and restarts in which a new instance is
restored from a checkpoint of the last one.

What one poll can do is said once (`polled`). Its readings then carry the
sequence numbers 1, 2, 3 and so on without a gap, also across restarts; no
two of them are closer together than the update period; and the random
number generator never comes to zero, where it would stay
(`sim_readings`).
-/
import Obicall.Lib.Xorshift
import Obicall.Provider.Sim

namespace Obicall

open DoubleArith Lib.Overlay Lib.Codec

variable {F : Type} [DoubleArith F] [DoubleBits F]

-- =============================================================== generator

theorem toBitVec_xorshift32 (x : UInt32) :
    (xorshift32 x).toBitVec = Lib.Xorshift.shl 5
      (Lib.Xorshift.shr 17 (Lib.Xorshift.shl 13 x.toBitVec)) := by
  unfold xorshift32
  simp only [UInt32.toBitVec_xor, UInt32.toBitVec_shiftLeft,
    UInt32.toBitVec_shiftRight]
  rfl

theorem xorshift32_ne_zero {x : UInt32} (h : x ≠ 0) : xorshift32 x ≠ 0 := by
  intro hzero
  have hx : x.toBitVec ≠ 0#32 := fun heq => h (UInt32.toBitVec_inj.mp heq)
  have hne := Lib.Xorshift.shl_ne_zero (k := 5) (by decide)
    (Lib.Xorshift.shr_ne_zero (k := 17) (by decide)
      (Lib.Xorshift.shl_ne_zero (k := 13) (by decide) hx))
  apply hne
  rw [← toBitVec_xorshift32, hzero]
  rfl

omit [DoubleBits F] in
theorem gaussian_ne_zero (libm : Libm F) {x : UInt32} (h : x ≠ 0)
    (mean stddev : F) : (gaussian libm x mean stddev).2 ≠ 0 := by
  unfold gaussian
  exact xorshift32_ne_zero (xorshift32_ne_zero h)

-- ================================================================ readings

/-- A reading is what it becomes on the wire. -/
theorem canonical_simReading (p : SimProvider F) (now : Int64) (zx zy : F) :
    (simReading p now zx zy).Canonical := by
  have hkeep : ∀ {m : Nat} (count : UInt32) (xs : List F),
      xs.length = count.toNat →
      keepFirst (zeroDouble F) count
          (place 0 xs (Vector.replicate m (zeroDouble F)))
        = place 0 xs (Vector.replicate m (zeroDouble F)) := by
    intro m count xs hlen
    apply Vector.ext
    intro i hi
    rw [getElem_keepFirst]
    split
    · rfl
    next hge =>
      have hget := get_place_zero xs
        (Vector.replicate m (zeroDouble F)) ⟨i, hi⟩
      rw [List.getElem?_eq_none (by rw [hlen]; exact not_lt.mp hge),
        Option.getD_none, get_replicate] at hget
      exact hget.symm
  have hpayload : (simReading p now zx zy).payloadCount.toNat = 2 := rfl
  have hcovariance : (simReading p now zx zy).covarianceCount.toNat = 4 := rfl
  constructor
  · constructor
    · rw [hpayload]
      decide
    · rw [hcovariance]
      decide
  · unfold Observation.normalize
    have hp := hkeep (m := maxPayloadDoubles) 2 [zx, zy] rfl
    have hc := hkeep (m := maxCovDoubles) 4
      [p.noiseStd * p.noiseStd, 0.0, 0.0, p.noiseStd * p.noiseStd] rfl
    unfold simReading
    dsimp only [Observation.zero] at hp hc ⊢
    rw [hp, hc]

-- ================================================================ one poll

variable {libm : Libm F} {p : SimProvider F} {now : Int64}

/-- The poll comes late enough after the last one that was. -/
def SimProvider.Due (p : SimProvider F) (now : Int64) : Prop :=
  ¬ (p.lastEmitTimeNs ≠ 0 ∧ now - p.lastEmitTimeNs < p.updatePeriodNs)

/-- What a poll can do: nothing, as it comes too early; take its turn
without a reading; or deliver one. -/
inductive Polled (p : SimProvider F) (now : Int64) :
    (Status × Option ProviderEvent) × SimProvider F → Prop where
  | waits : ¬ p.Due now → Polled p now ((.ok, none), p)
  | drops (rng : UInt32) : p.Due now → (p.rngState ≠ 0 → rng ≠ 0) →
      Polled p now ((.ok, none),
        { p with lastEmitTimeNs := now, rngState := rng })
  | emits (zx zy : F) (rng : UInt32) : p.Due now →
      (p.rngState ≠ 0 → rng ≠ 0) →
      Polled p now
        ((.ok, some ⟨cSimEventObservation, now,
          (simReading p now zx zy).bytes⟩),
        { p with
          lastEmitTimeNs := now
          nextSequence := p.nextSequence + 1
          rngState := rng })

/-- From any state of the generator, a reading is delivered. -/
theorem simEmit_eq (libm : Libm F) (p : SimProvider F) (now : Int64) :
    ∃ zx zy rng, (p.rngState ≠ 0 → rng ≠ 0)
      ∧ simEmit libm p now
        = ((.ok, some ⟨cSimEventObservation, now,
            (simReading p now zx zy).bytes⟩),
          { p with nextSequence := p.nextSequence + 1, rngState := rng }) := by
  have henc : ∀ zx zy, obicallWireEncodeObservation
      (simReading p now zx zy) 1024
        = .ok (simReading p now zx zy).bytes := by
    intro zx zy
    have hlen := (simReading p now zx zy).length_bytes_le
    rw [obicallWireEncodeObservation_eq
      (canonical_simReading p now zx zy).encodable, if_pos (by omega)]
  unfold simEmit
  simp only [henc]
  exact ⟨_, _, _, fun h => gaussian_ne_zero _ (gaussian_ne_zero _ h _ _) _ _,
    rfl⟩

theorem polled (libm : Libm F) (p : SimProvider F) (now : Int64) :
    Polled p now (simPollEvents libm p now) := by
  unfold simPollEvents
  split
  next hwait => exact .waits (not_not.mpr hwait)
  next hdue =>
    dsimp only
    split
    · split
      · exact .drops _ hdue xorshift32_ne_zero
      · obtain ⟨zx, zy, rng, hrng, hemit⟩ := simEmit_eq libm
          { p with
            lastEmitTimeNs := now
            rngState := (uniform01 p.rngState : F × UInt32).2 } now
        rw [hemit]
        exact .emits zx zy rng hdue fun h => hrng (xorshift32_ne_zero h)
    · obtain ⟨zx, zy, rng, hrng, hemit⟩ := simEmit_eq libm
        { p with lastEmitTimeNs := now } now
      rw [hemit]
      exact .emits zx zy rng hdue hrng

-- ============================================================= checkpoints

theorem reads_rcSimCheckpointBlob (b : SimCheckpointBlob) :
    ReadsBack rcSimCheckpointBlob b.bytes (.ok, b) :=
  .bind (reads_rcU32 _) <| .bind (reads_rcU64 _) <| .bind (reads_rcU32 _) <|
  .last (reads_rcI64 _) <| .test reads_rcOk (Reads.pure _)

theorem SimCheckpointBlob.length_bytes (b : SimCheckpointBlob) :
    b.bytes.length = sizeofSimCheckpointBlob := by
  unfold SimCheckpointBlob.bytes
  simp only [List.length_append, length_u32Bytes, length_u64Bytes]
  rfl

omit [DoubleArith F] [DoubleBits F] in
/-- A restored provider goes on where the checkpoint was taken. -/
theorem simRestore_simCheckpoint (p q : SimProvider F) :
    simRestore q (simCheckpoint p)
      = (.ok,
        { q with
          nextSequence := p.nextSequence
          rngState := p.rngState
          lastEmitTimeNs := p.lastEmitTimeNs }) := by
  unfold simRestore simCheckpoint
  rw [if_neg (not_not.mpr (SimCheckpointBlob.length_bytes _))]
  dsimp only
  rw [(reads_rcSimCheckpointBlob _).run]
  exact if_neg (not_not.mpr rfl)

-- ==================================================================== runs

variable [DoubleText F]

/-- `update_period_ns` as a configuration has it. -/
def simPeriod (F : Type) [DoubleArith F] [DoubleBits F] [DoubleText F]
    (configJson : List UInt8) : Int64 :=
  (simCreate configJson 0 0 0 : SimProvider F).updatePeriodNs

/-- The event of a reading. -/
def Observation.event (obs : Observation F) : ProviderEvent :=
  ⟨cSimEventObservation, obs.arrivalTimeNs, obs.bytes⟩

/-- A reading comes at least a period after another. -/
def Spaced (period : Int64) (obs obs' : Observation F) : Prop :=
  period.toInt ≤ obs'.arrivalTimeNs.toInt - obs.arrivalTimeNs.toInt

/-- What is true of a sensor after the events `es`, with the readings it
has delivered. -/
structure SimLife.Regular (configJson : List UInt8) (es : List (SimEvent F))
    (s : SimLife F) (readings : List (Observation F)) : Prop where
  delivered : s.delivered = readings.map Observation.event
  canonical : ∀ obs ∈ readings, obs.Canonical
  numbered : readings.map (fun obs => obs.sequence)
    = (List.range readings.length).map fun i => UInt64.ofNat (i + 1)
  next : s.provider.nextSequence = UInt64.ofNat (readings.length + 1)
  spaced : readings.Pairwise (Spaced (simPeriod F configJson))
  before : ∀ obs ∈ readings,
    obs.arrivalTimeNs ≤ s.provider.lastEmitTimeNs
  quiet : s.provider.lastEmitTimeNs = 0 → readings = []
  turned : s.provider.lastEmitTimeNs ≠ 0 →
    ∃ e ∈ es, e.clock = some s.provider.lastEmitTimeNs
  period : s.provider.updatePeriodNs = simPeriod F configJson
  generator : s.provider.rngState ≠ 0

variable {configJson : List UInt8} {es : List (SimEvent F)} {s : SimLife F}
  {readings : List (Observation F)}

theorem regular_create (configJson : List UInt8) (seed : UInt64)
    (bootClock startClock : Int64) :
    SimLife.Regular (F := F) configJson []
      ⟨simCreate configJson seed bootClock startClock, []⟩ [] where
  delivered := rfl
  canonical _ hobs := absurd hobs List.not_mem_nil
  numbered := rfl
  next := rfl
  spaced := List.Pairwise.nil
  before _ hobs := absurd hobs List.not_mem_nil
  quiet _ := rfl
  turned h := absurd rfl h
  period := rfl
  generator := by
    show (if seed.toUInt32 = 0 then (0x9E3779B9 : UInt32)
      else seed.toUInt32) ≠ 0
    split
    · decide
    next hne => exact hne

omit [DoubleBits F] in
/-- A control observation changes what faults are simulated, no more. -/
theorem simSubmit_keeps (p : SimProvider F) (obs : Observation F) :
    (simSubmit p obs).nextSequence = p.nextSequence
      ∧ (simSubmit p obs).lastEmitTimeNs = p.lastEmitTimeNs
      ∧ (simSubmit p obs).updatePeriodNs = p.updatePeriodNs
      ∧ (simSubmit p obs).rngState = p.rngState := by
  unfold simSubmit
  split
  · exact ⟨rfl, rfl, rfl, rfl⟩
  · exact ⟨rfl, rfl, rfl, rfl⟩

/-- What keeps the counter, the time of the last turn and the period, and
a generator that is not zero, keeps the sensor regular. -/
theorem SimLife.Regular.kept (h : s.Regular configJson es readings)
    {p : SimProvider F} (hnext : p.nextSequence = s.provider.nextSequence)
    (hlast : p.lastEmitTimeNs = s.provider.lastEmitTimeNs)
    (hperiod : p.updatePeriodNs = simPeriod F configJson)
    (hrng : p.rngState ≠ 0) (e : SimEvent F) :
    SimLife.Regular configJson (es ++ [e]) ⟨p, s.delivered⟩ readings where
  delivered := h.delivered
  canonical := h.canonical
  numbered := h.numbered
  next := hnext.trans h.next
  spaced := h.spaced
  before := by
    show ∀ obs ∈ readings, obs.arrivalTimeNs ≤ p.lastEmitTimeNs
    rw [hlast]
    exact h.before
  quiet h0 := h.quiet (hlast ▸ h0)
  turned h0 := by
    obtain ⟨d, hd, hclock⟩ := h.turned (hlast ▸ h0)
    refine ⟨d, List.mem_append_left [e] hd, ?_⟩
    rw [hclock, hlast]
  period := hperiod
  generator := hrng

/-- When the next turn is due, the period is over for every reading. -/
theorem SimLife.Regular.spaced_due (h : s.Regular configJson es readings)
    {now : Int64} (hdue : s.provider.Due now)
    (hlast : s.provider.lastEmitTimeNs ≤ now)
    (hpos : s.provider.lastEmitTimeNs ≠ 0 →
      0 < s.provider.lastEmitTimeNs)
    {obs : Observation F} (hobs : obs ∈ readings) :
    (simPeriod F configJson).toInt
      ≤ now.toInt - obs.arrivalTimeNs.toInt := by
  have hne : s.provider.lastEmitTimeNs ≠ 0 := by
    intro h0
    rw [h.quiet h0] at hobs
    cases hobs
  have hlate : ¬ now - s.provider.lastEmitTimeNs
      < s.provider.updatePeriodNs := fun hlt => hdue ⟨hne, hlt⟩
  have hbefore := h.before obs hobs
  have hzero := hpos hne
  rw [h.period] at hlate
  rw [Int64.lt_iff_toInt_lt] at hlate hzero
  rw [Int64.le_iff_toInt_le] at hbefore hlast
  -- both clocks are positive, so their difference is exact
  have hsub : (now - s.provider.lastEmitTimeNs).toInt
      = now.toInt - s.provider.lastEmitTimeNs.toInt := by
    have hup := now.toInt_lt
    have hzero' : (0 : Int64).toInt = 0 := rfl
    rw [Int64.toInt_sub]
    apply Int.bmod_eq_of_le
    · omega
    · omega
  omega

/-- A poll keeps the sensor regular, with the reading it may deliver. -/
theorem SimLife.Regular.poll (libm : Libm F)
    (h : s.Regular configJson es readings) {now : Int64} (hnow : 0 < now)
    (hes : ∀ d ∈ es, ∀ t, d.clock = some t → 0 < t ∧ t ≤ now) :
    ∃ readings', SimLife.Regular configJson (es ++ [.poll now])
      (s.step libm configJson (.poll now)) readings' := by
  have hlast : s.provider.lastEmitTimeNs ≠ 0 →
      0 < s.provider.lastEmitTimeNs ∧ s.provider.lastEmitTimeNs ≤ now := by
    intro h0
    obtain ⟨d, hd, hclock⟩ := h.turned h0
    exact hes d hd _ hclock
  have hle : s.provider.lastEmitTimeNs ≤ now := by
    by_cases h0 : s.provider.lastEmitTimeNs = 0
    · rw [h0]
      exact Int64.le_of_lt hnow
    · exact (hlast h0).2
  have hne : now ≠ 0 := by
    intro h0
    rw [h0] at hnow
    exact absurd hnow (by decide)
  have hbefore : ∀ obs ∈ readings, obs.arrivalTimeNs ≤ now := fun obs hobs =>
    Int64.le_trans (h.before obs hobs) hle
  have hpoll := polled libm s.provider now
  unfold SimLife.step
  dsimp only
  generalize simPollEvents libm s.provider now = out at hpoll ⊢
  cases hpoll with
  | waits _ =>
      refine ⟨readings, ?_⟩
      have hkept := h.kept rfl rfl h.period h.generator (.poll now)
      rw [← List.append_nil s.delivered] at hkept
      exact hkept
  | drops rng hdue hrng =>
      refine ⟨readings, ?_⟩
      exact {
        delivered := (List.append_nil _).trans h.delivered
        canonical := h.canonical
        numbered := h.numbered
        next := h.next
        spaced := h.spaced
        before := hbefore
        quiet := fun h0 => absurd h0 hne
        turned := fun _ => ⟨.poll now, by simp, rfl⟩
        period := h.period
        generator := hrng h.generator }
  | emits zx zy rng hdue hrng =>
      refine ⟨readings ++ [simReading s.provider now zx zy], ?_⟩
      exact {
        delivered := by
          show s.delivered ++ [_] = _
          rw [h.delivered, List.map_append]
          rfl
        canonical := by
          rw [List.forall_mem_append, List.forall_mem_singleton]
          exact ⟨h.canonical, canonical_simReading _ _ _ _⟩
        numbered := by
          rw [List.map_append, h.numbered, List.length_append,
            List.length_singleton, List.range_succ, List.map_append]
          exact congrArg (_ ++ [·]) h.next
        next := by
          show s.provider.nextSequence + 1 = _
          rw [h.next, List.length_append, List.length_singleton]
          exact (UInt64.ofNat_add _ 1).symm
        spaced := by
          apply List.pairwise_append.mpr
          refine ⟨h.spaced, List.pairwise_singleton _ _, ?_⟩
          intro obs hobs obs' hobs'
          rw [List.mem_singleton.mp hobs']
          exact h.spaced_due hdue hle (fun h0 => (hlast h0).1) hobs
        before := by
          rw [List.forall_mem_append, List.forall_mem_singleton]
          exact ⟨hbefore, Int64.le_refl now⟩
        quiet := fun h0 => absurd h0 hne
        turned := fun _ => ⟨.poll now, by simp, rfl⟩
        period := h.period
        generator := hrng h.generator }

/-- In every run of a sensor, also over restarts from checkpoints, its
readings are numbered 1, 2, 3 and so on, every two of them are at least an
update period apart, and the random number generator is not stuck. -/
theorem sim_readings (libm : Libm F) (configJson : List UInt8)
    (seed : UInt64) (bootClock startClock : Int64) {es : List (SimEvent F)}
    (hclock : (es.filterMap SimEvent.clock).Pairwise (· ≤ ·))
    (hpos : ∀ t ∈ es.filterMap SimEvent.clock, 0 < t) :
    let s := simRun libm configJson seed bootClock startClock es
    ∃ readings : List (Observation F),
      s.delivered.map (fun ev => (ev.eventType,
          obicallWireDecodeObservation (F := F) ev.payload))
        = readings.map (fun obs => (cSimEventObservation, .ok, obs))
      ∧ readings.map (fun obs => obs.sequence)
        = (List.range readings.length).map (fun i => UInt64.ofNat (i + 1))
      ∧ readings.Pairwise (Spaced (simPeriod F configJson))
      ∧ s.provider.rngState ≠ 0 := by
  intro s
  have hend : ∃ readings, SimLife.Regular configJson ([] ++ es) s readings := by
    refine Lib.Run.run_trace_of_pairwise
      (P := fun es s => (∀ e ∈ es, ∀ t, e.clock = some t → 0 < t)
        ∧ ∃ readings, SimLife.Regular configJson es s readings)
      (C := fun e => ∀ t, e.clock = some t → 0 < t)
      (R := fun d e => ∀ t, d.clock = some t → ∀ t', e.clock = some t' →
        t ≤ t') ?_ ⟨by simp, [], regular_create ..⟩ ?_ ?_ |>.2
    · rintro es s e he hbefore ⟨hes, readings, h⟩
      rw [List.forall_mem_append, List.forall_mem_singleton]
      refine ⟨⟨hes, he⟩, ?_⟩
      cases e with
      | poll now =>
          exact h.poll libm (he now rfl) fun d hd t ht =>
            ⟨hes d hd t ht, hbefore d hd t ht now rfl⟩
      | submit obs =>
          refine ⟨readings, ?_⟩
          obtain ⟨hnext, hlast, hperiod, hrng⟩ :=
            simSubmit_keeps s.provider obs
          exact h.kept hnext hlast (hperiod.trans h.period)
            (hrng ▸ h.generator) _
      | restart seed bootClock startClock =>
          refine ⟨readings, ?_⟩
          have hrestore := simRestore_simCheckpoint s.provider
            (simCreate configJson seed bootClock startClock)
          unfold SimLife.step
          dsimp only
          rw [hrestore]
          apply h.kept
          · rfl
          · rfl
          · rfl
          · exact h.generator
    · intro e he t ht
      exact hpos t (List.mem_filterMap.mpr ⟨e, he, ht⟩)
    · exact List.pairwise_filterMap.mp hclock
  obtain ⟨readings, h⟩ := hend
  refine ⟨readings, ?_, h.numbered, h.spaced, h.generator⟩
  rw [h.delivered, List.map_map]
  apply List.map_congr_left
  intro obs hobs
  show (cSimEventObservation, obicallWireDecodeObservation obs.bytes) = _
  rw [obicallWireDecodeObservation_bytes (h.canonical obs hobs).encodable,
    (h.canonical obs hobs).normal]

/-- `log` and `cos` of the C library, at what an instance with the seed 42
asks of them for its first two readings. -/
def seed42Libm : Libm Binary64 where
  log x :=
    if x = ⟨0x3F65A8A000000000⟩ then ⟨0xC017BDF56C01B791⟩
    else if x = ⟨0x3FBC67AF00000000⟩ then ⟨0xC00196C1C3C0BD47⟩
    else if x = ⟨0x3FEC039960000000⟩ then ⟨0xBFC1071B90C5441F⟩
    else ⟨0xBFC29F06C2400ED7⟩
  cos x :=
    if x = ⟨0x4010986F5959598C⟩ then ⟨0xBFE117ED9BD4A9E7⟩
    else if x = ⟨0x401558E00D45193D⟩ then ⟨0x3FE2B526BA7B1C27⟩
    else if x = ⟨0x4000DEA11009BD4E⟩ then ⟨0xBFE0651A5B34EAF9⟩
    else ⟨0xBFED464EA8CD1DB9⟩

/-- Three polls, of which the second comes too early and the third is
answered by another instance. -/
def restartedSensor : List (SimEvent Binary64) :=
  [.poll 500000000, .poll 550000000, .restart 7 580000000 580000000,
    .poll 600000000]

theorem sim_readings_restarted :
    ∃ readings : List (Observation Binary64),
      (simRun seed42Libm [] 42 400000000 400000000
        restartedSensor).delivered.map (fun ev => (ev.eventType,
          obicallWireDecodeObservation (F := Binary64) ev.payload))
        = readings.map (fun obs => (cSimEventObservation, .ok, obs))
      ∧ readings.map (fun obs => obs.sequence) = [1, 2] := by
  have hclock : (restartedSensor.filterMap SimEvent.clock).Pairwise
      (· ≤ ·) := by decide
  have hpos : (restartedSensor.filterMap SimEvent.clock).all
      fun t => 0 < t := by decide
  obtain ⟨readings, hdelivered, hnumbered, -⟩ := sim_readings seed42Libm []
    42 400000000 400000000 hclock
    (fun t ht => of_decide_eq_true (List.all_eq_true.mp hpos t ht))
  refine ⟨readings, hdelivered, ?_⟩
  have htwo : (simRun seed42Libm [] 42 400000000 400000000
      restartedSensor).delivered.length = 2 := by decide +kernel
  have hlen := congrArg List.length hdelivered
  rw [List.length_map, List.length_map, htwo] at hlen
  rw [hnumbered, ← hlen]
  rfl

end Obicall
