/-
The admissions of one sensor: runs of `obicall_journal_admit` on a track
that starts empty.

# Order

Within one boot of the source the sequence numbers admitted climb, the
watermark is the latest sample time admitted, and nothing is admitted that
trails it by more than `max_lateness_ns` (`admissions_in_order`), as long
as the difference the code compares with does not overflow.

# The lateness test

It can: sample times come from the workers and nothing bounds them. A
source that starts at the least time there is makes the difference wrap to
a time far ahead, and what follows is turned away as late
(`least_time_all_late`). The test is the exact one in every state of a run
exactly when every observation that sets the watermark is
`max_lateness_ns` or more away from the end of the range
(`latenessExact_iff`).
-/
import Mathlib.Order.Bounds.Basic
import Obicall.Core.Journal
import Obicall.Lib.Elapsed
import Obicall.Lib.Run

namespace Obicall

open Lib.Run

variable {F : Type} [DoubleArith F]

-- ================================================================== runs

/-- A call of `obicall_journal_admit` on the track. -/
structure AdmitCall (F : Type) where
  obs : Observation F
  pending : UInt32

/-- The track, and (ghost) what was admitted, oldest first. -/
structure Admissions (F : Type) where
  track : SensorTrack
  admitted : List (Observation F)

def Admissions.step (cfg : JournalConfig) (s : Admissions F)
    (c : AdmitCall F) : Admissions F :=
  let (reason, track) := obicallJournalAdmit cfg s.track c.obs c.pending
  { track
    admitted := if reason = .admitOk then s.admitted ++ [c.obs]
      else s.admitted }

/-- The calls, on a track nothing was admitted to. -/
def admissionRun (cfg : JournalConfig) (track : SensorTrack)
    (calls : List (AdmitCall F)) : Admissions F :=
  run (Admissions.step cfg) ⟨track, []⟩ calls

/-- A call admits its observation, or changes nothing. -/
theorem Admissions.step_cases (cfg : JournalConfig) (s : Admissions F)
    (c : AdmitCall F) :
    let d := obicallJournalAdmit cfg s.track c.obs c.pending
    (d.1 = .admitOk
      ∧ s.step cfg c = ⟨s.track.admitted c.obs, s.admitted ++ [c.obs]⟩)
    ∨ (d.1 ≠ .admitOk ∧ s.step cfg c = s) := by
  intro d
  obtain ⟨⟨reason, track⟩, hd⟩ : ∃ r, d = r := ⟨d, rfl⟩
  have hstep : s.step cfg c = ⟨track, if reason = .admitOk
      then s.admitted ++ [c.obs] else s.admitted⟩ := by
    rw [Admissions.step, show obicallJournalAdmit .. = _ from hd]
  rw [hstep, hd]
  by_cases h : reason = .admitOk
  · obtain ⟨-, -, -, htrack⟩ := admit_ok (h ▸ hd)
    exact .inl ⟨h, by rw [if_pos h, htrack]⟩
  · have htrack : track = s.track := admit_rejected hd h
    exact .inr ⟨h, by rw [if_neg h, htrack]⟩

-- ============================================================== lateness

/-- What an `int64_t` holds. -/
def InInt64 (n : Int) : Prop :=
  Int64.minValue.toInt ≤ n ∧ n ≤ Int64.maxValue.toInt

instance (n : Int) : Decidable (InInt64 n) :=
  inferInstanceAs (Decidable (_ ∧ _))

theorem toInt_sub_of_inInt64 {a b : Int64}
    (h : InInt64 (a.toInt - b.toInt)) : (a - b).toInt = a.toInt - b.toInt := by
  obtain ⟨hlo, hhi⟩ := h
  rw [Int64.toInt_minValue] at hlo
  rw [Int64.toInt_maxValue] at hhi
  exact Lib.Elapsed.toInt_sub_of_fits hlo (by omega)

/-- `watermark_sample_time_ns - max_lateness_ns`, as integers. -/
def SensorTrack.lateBefore (t : SensorTrack) (cfg : JournalConfig) : Int :=
  t.watermarkSampleTimeNs.toInt - cfg.maxLatenessNs.toInt

/-- The comparison of the code is that of the integers, when the
difference is in range. -/
theorem lt_sub_iff {t : SensorTrack} {cfg : JournalConfig}
    (h : InInt64 (t.lateBefore cfg)) (sampleTimeNs : Int64) :
    sampleTimeNs < t.watermarkSampleTimeNs - cfg.maxLatenessNs
      ↔ sampleTimeNs.toInt < t.lateBefore cfg := by
  rw [Int64.lt_iff_toInt_lt, toInt_sub_of_inInt64 h]
  rfl

/-- The call compares with the difference: it is valid, in session and
above every sequence seen. -/
def Compares (s : Admissions F) (c : AdmitCall F) : Prop :=
  obicallObservationValidate c.obs = .ok
    ∧ s.track.isNewSession c.obs = false
    ∧ s.track.highestSequenceSeen < c.obs.sequence

instance (s : Admissions F) (c : AdmitCall F) : Decidable (Compares s c) :=
  inferInstanceAs (Decidable (_ ∧ _))

-- ================================================================= order

/-- What the track says about the admissions of one boot. -/
structure Admissions.InOrder (boot : UInt64) (s : Admissions F) : Prop where
  started : s.admitted ≠ [] ↔ s.track.hasData = true
  boot : s.admitted ≠ [] → s.track.sourceBootId = boot
  climbing : s.admitted.Pairwise fun a b => a.sequence < b.sequence
  highest : ∀ o ∈ s.admitted, o.sequence ≤ s.track.highestSequenceSeen
  latest : s.admitted ≠ [] →
    IsGreatest {t | ∃ o ∈ s.admitted, o.sampleTimeNs = t}
      s.track.watermarkSampleTimeNs

omit [DoubleArith F] in
theorem inOrder_empty {track : SensorTrack} (h : track.hasData = false)
    (boot : UInt64) : Admissions.InOrder (F := F) boot ⟨track, []⟩ where
  started := iff_of_false (fun hno => hno rfl) (by rw [h]; decide)
  boot hno := absurd rfl hno
  climbing := .nil
  highest _ ho := absurd ho List.not_mem_nil
  latest hno := absurd rfl hno

omit [DoubleArith F] in
/-- Once something is admitted, the boot's calls are in the session. -/
theorem Admissions.InOrder.inSession {boot : UInt64} {s : Admissions F}
    (h : s.InOrder boot) {obs : Observation F}
    (hboot : obs.sourceBootId = boot) :
    s.track.isNewSession obs = false ↔ s.admitted ≠ [] := by
  rw [SensorTrack.isNewSession]
  constructor
  · intro hold
    rw [h.started]
    simp only [Bool.or_eq_false_iff, Bool.not_eq_false'] at hold
    exact hold.1
  · intro hne
    rw [h.started.mp hne, h.boot hne, hboot]
    simp

omit [DoubleArith F] in
/-- An admission keeps the order. -/
theorem Admissions.InOrder.admit {boot : UInt64} {s : Admissions F}
    (h : s.InOrder boot) {obs : Observation F}
    (hboot : obs.sourceBootId = boot)
    (hseq : s.admitted ≠ [] →
      s.track.highestSequenceSeen < obs.sequence) :
    Admissions.InOrder boot
      ⟨s.track.admitted obs, s.admitted ++ [obs]⟩ where
  started := iff_of_true (by simp) rfl
  boot _ := hboot
  climbing := by
    refine List.pairwise_append.mpr
      ⟨h.climbing, List.pairwise_singleton .., fun o ho o' ho' => ?_⟩
    rw [List.mem_singleton.mp ho']
    have hlt := hseq (List.ne_nil_of_mem ho)
    exact UInt64.lt_of_le_of_lt (h.highest o ho) hlt
  highest o ho := by
    rcases List.mem_append.mp ho with ho | ho
    · have hlt := hseq (List.ne_nil_of_mem ho)
      exact UInt64.le_of_lt (UInt64.lt_of_le_of_lt (h.highest o ho) hlt)
    · rw [List.mem_singleton.mp ho]
      exact UInt64.le_refl _
  latest _ := by
    have hsession := h.inSession hboot
    show IsGreatest _ (if s.track.isNewSession obs
      || s.track.watermarkSampleTimeNs < obs.sampleTimeNs then _ else _)
    split
    next hset =>
      refine ⟨⟨obs, by simp, rfl⟩, ?_⟩
      rintro t ⟨o, ho, rfl⟩
      rcases List.mem_append.mp ho with ho | ho
      · have hne := List.ne_nil_of_mem ho
        have hle := (h.latest hne).2 ⟨o, ho, rfl⟩
        rw [hsession.mpr hne, Bool.false_or, decide_eq_true_eq] at hset
        exact Int64.le_trans hle (Int64.le_of_lt hset)
      · rw [List.mem_singleton.mp ho]
        exact Int64.le_refl _
    next hkeep =>
      rw [Bool.or_eq_true, not_or, Bool.not_eq_true, decide_eq_true_eq,
        Int64.not_lt] at hkeep
      obtain ⟨⟨o, ho, heq⟩, hub⟩ := h.latest (hsession.mp hkeep.1)
      refine ⟨⟨o, List.mem_append_left _ ho, heq⟩, ?_⟩
      rintro t ⟨o', ho', rfl⟩
      rcases List.mem_append.mp ho' with ho' | ho'
      · exact hub ⟨o', ho', rfl⟩
      · rw [List.mem_singleton.mp ho']
        exact hkeep.2

/-- One call of the boot keeps the order. -/
theorem Admissions.InOrder.step {boot : UInt64} {s : Admissions F}
    (h : s.InOrder boot) (cfg : JournalConfig) {c : AdmitCall F}
    (hboot : c.obs.sourceBootId = boot) : (s.step cfg c).InOrder boot := by
  rcases s.step_cases cfg c with ⟨hok, hstep⟩ | ⟨-, hstep⟩
  · rw [hstep]
    refine h.admit hboot fun hne => ?_
    obtain ⟨-, hsession, -, -⟩ := admit_fst_ok hok
    exact (hsession ((h.inSession hboot).mpr hne)).1
  · rw [hstep]
    exact h

/-- The calls of one boot, on a track that starts empty. At every call of
the run: the sequence numbers admitted so far climb; the watermark is the
greatest sample time admitted; when the call admits its observation, that
trails none of them by more than `max_lateness_ns`, unless the difference
overflows; and when it does not, the track stays as it is. -/
theorem admissions_in_order (cfg : JournalConfig) {track : SensorTrack}
    (hempty : track.hasData = false) (boot : UInt64)
    {calls : List (AdmitCall F)}
    (hboot : ∀ c ∈ calls, c.obs.sourceBootId = boot) :
    let s := admissionRun cfg track calls
    s.admitted.Pairwise (fun a b => a.sequence < b.sequence)
      ∧ (s.admitted ≠ [] →
        IsGreatest {t | ∃ o ∈ s.admitted, o.sampleTimeNs = t}
          s.track.watermarkSampleTimeNs)
      ∧ ∀ c : AdmitCall F, c.obs.sourceBootId = boot →
        let d := obicallJournalAdmit cfg s.track c.obs c.pending
        (d.1 = .admitOk → (Compares s c → InInt64 (s.track.lateBefore cfg)) →
          ∀ o ∈ s.admitted, o.sampleTimeNs.toInt - cfg.maxLatenessNs.toInt
            ≤ c.obs.sampleTimeNs.toInt)
        ∧ (d.1 ≠ .admitOk → d.2 = s.track) := by
  intro s
  have horder : s.InOrder boot :=
    run_inv_of_mem (fun _ _ hc hs => hs.step cfg hc) (inOrder_empty hempty boot)
      hboot
  refine ⟨horder.climbing, horder.latest, fun c hc => ⟨?_, ?_⟩⟩
  · intro hok hrange o ho
    obtain ⟨hvalid, hsession, -, -⟩ := admit_fst_ok hok
    have hne : s.admitted ≠ [] := List.ne_nil_of_mem ho
    have hold := (horder.inSession hc).mpr hne
    obtain ⟨hseq, hlate⟩ := hsession hold
    rw [lt_sub_iff (hrange ⟨hvalid, hold, hseq⟩), Int.not_lt] at hlate
    have hle : o.sampleTimeNs ≤ s.track.watermarkSampleTimeNs :=
      (horder.latest hne).2 ⟨o, ho, rfl⟩
    rw [Int64.le_iff_toInt_le] at hle
    rw [SensorTrack.lateBefore] at hlate
    omega
  · exact fun hno => admit_rejected Prod.mk.eta.symm hno

/-- A track after `memset(.., 0, ..)`. -/
def emptyTrack : SensorTrack := ⟨Vector.replicate 32 0, 0, false, 0, 0⟩

/-- Two observations of one boot, the second again. -/
theorem admissions_in_order_three :
    (admissionRun defaultCfg emptyTrack
      [⟨makeObs [99, 97, 109] 1 1 5 1.0 2.0, 0⟩,
       ⟨makeObs [99, 97, 109] 1 2 3 1.0 2.0, 1⟩,
       ⟨makeObs [99, 97, 109] 1 2 3 1.0 2.0, 2⟩]).admitted.Pairwise
      fun a b => a.sequence < b.sequence :=
  (admissions_in_order defaultCfg rfl 1 (by decide)).1

-- ===================================================== the lateness test

/-- Once there is a watermark, the difference is in range. -/
def SensorTrack.InRange (t : SensorTrack) (cfg : JournalConfig) : Prop :=
  t.hasData = true → InInt64 (t.lateBefore cfg)

/-- The lateness test does what it is meant to: the difference is in
range, and an observation in session and above every sequence seen is late
exactly when, as integers, it is below it. -/
structure LatenessExact (F : Type) [DoubleArith F] (cfg : JournalConfig)
    (t : SensorTrack) : Prop where
  inRange : t.InRange cfg
  late : ∀ (obs : Observation F) (pending : UInt32),
    obicallObservationValidate obs = .ok → t.isNewSession obs = false →
    t.highestSequenceSeen < obs.sequence →
    ((obicallJournalAdmit cfg t obs pending).1 = .rejectLate
      ↔ obs.sampleTimeNs.toInt < t.lateBefore cfg)

omit [DoubleArith F] in
theorem hasData_of_inSession {t : SensorTrack} {obs : Observation F}
    (h : t.isNewSession obs = false) : t.hasData = true := by
  rw [SensorTrack.isNewSession, Bool.or_eq_false_iff] at h
  simpa using h.1

/-- The second half is a consequence of the first. -/
theorem latenessExact_of_inRange {cfg : JournalConfig} {t : SensorTrack}
    (h : t.InRange cfg) : LatenessExact F cfg t where
  inRange := h
  late obs pending hvalid hold hseq := by
    have hiff := lt_sub_iff (h (hasData_of_inSession hold)) obs.sampleTimeNs
    rw [admit_inSession hvalid hold hseq, ← hiff]
    by_cases hlate : obs.sampleTimeNs
        < t.watermarkSampleTimeNs - cfg.maxLatenessNs
    · rw [if_pos hlate]
      exact iff_of_true rfl hlate
    · rw [if_neg hlate]
      refine iff_of_false ?_ hlate
      split
      · exact fun h => by cases h
      · exact fun h => by cases h

/-- The call is one that sets the watermark: valid, with room in the
backlog, and in a new session, or in session above every sequence and time
seen and, as integers, not late. -/
def SetsWatermark (cfg : JournalConfig) (s : Admissions F)
    (c : AdmitCall F) : Prop :=
  obicallObservationValidate c.obs = .ok
    ∧ c.pending < cfg.maxPendingPerPipeline
    ∧ (s.track.isNewSession c.obs = true
      ∨ s.track.highestSequenceSeen < c.obs.sequence
        ∧ s.track.watermarkSampleTimeNs < c.obs.sampleTimeNs
        ∧ s.track.lateBefore cfg ≤ c.obs.sampleTimeNs.toInt)

/-- A call that sets the watermark is `max_lateness_ns` away from the end
of the range. -/
def StaysInRange (cfg : JournalConfig) (s : Admissions F)
    (c : AdmitCall F) : Prop :=
  SetsWatermark cfg s c →
    InInt64 (c.obs.sampleTimeNs.toInt - cfg.maxLatenessNs.toInt)

/-- A call that sets the watermark is admitted, and the watermark is its
time. -/
theorem SetsWatermark.admitted {cfg : JournalConfig} {s : Admissions F}
    {c : AdmitCall F} (h : SetsWatermark cfg s c)
    (hs : s.track.InRange cfg) :
    (obicallJournalAdmit cfg s.track c.obs c.pending).1 = .admitOk := by
  obtain ⟨hvalid, hroom, hnew | ⟨hseq, htime, hlate⟩⟩ := h
  · rw [admit_newSession hvalid hnew, if_neg (UInt32.not_le.mpr hroom)]
  · by_cases hnew : s.track.isNewSession c.obs = true
    · rw [admit_newSession hvalid hnew, if_neg (UInt32.not_le.mpr hroom)]
    · have hold := Bool.not_eq_true _ ▸ hnew
      have hexact := lt_sub_iff (hs (hasData_of_inSession hold))
        c.obs.sampleTimeNs
      rw [admit_inSession hvalid hold hseq,
        if_neg fun hlt => Int.not_lt.mpr hlate (hexact.mp hlt),
        if_neg (UInt32.not_le.mpr hroom)]

/-- One call, from a track whose difference is in range: it stays so
exactly when the call meets the condition. -/
theorem inRange_step {cfg : JournalConfig} {s : Admissions F}
    (c : AdmitCall F) (hs : s.track.InRange cfg) :
    (s.step cfg c).track.InRange cfg ↔ StaysInRange cfg s c := by
  rcases s.step_cases cfg c with ⟨hok, hstep⟩ | ⟨hno, hstep⟩
  · obtain ⟨hvalid, hsession, hroom, -⟩ := admit_fst_ok hok
    rw [hstep]
    by_cases hset : (s.track.isNewSession c.obs
        || s.track.watermarkSampleTimeNs < c.obs.sampleTimeNs) = true
    · -- the watermark is now the observation's time
      have hmark : (s.track.admitted c.obs).lateBefore cfg
          = c.obs.sampleTimeNs.toInt - cfg.maxLatenessNs.toInt := by
        rw [SensorTrack.lateBefore, SensorTrack.admitted, if_pos hset]
      have hsets : SetsWatermark cfg s c := by
        refine ⟨hvalid, hroom, ?_⟩
        cases hnew : s.track.isNewSession c.obs with
        | true => exact .inl rfl
        | false =>
            obtain ⟨hseq, hlate⟩ := hsession hnew
            rw [hnew, Bool.false_or, decide_eq_true_eq] at hset
            rw [lt_sub_iff (hs (hasData_of_inSession hnew)), Int.not_lt]
              at hlate
            exact .inr ⟨hseq, hset, hlate⟩
      rw [SensorTrack.InRange, hmark]
      exact ⟨fun h _ => h rfl, fun h _ => h hsets⟩
    · -- the watermark is the old one
      have hmark : (s.track.admitted c.obs).lateBefore cfg
          = s.track.lateBefore cfg := by
        rw [SensorTrack.lateBefore, SensorTrack.admitted, if_neg hset]
        rfl
      rw [Bool.or_eq_true, not_or, Bool.not_eq_true, decide_eq_true_eq]
        at hset
      obtain ⟨hold, htime⟩ := hset
      refine iff_of_true ?_ ?_
      · rw [SensorTrack.InRange, hmark]
        exact fun _ => hs (hasData_of_inSession hold)
      · rintro ⟨-, -, hnew | ⟨-, hlater, -⟩⟩
        · rw [hold] at hnew
          cases hnew
        · exact absurd hlater htime
  · rw [hstep]
    exact iff_of_true hs fun hsets => absurd (hsets.admitted hs) hno

/-- The lateness test is exact in every state of a run exactly when every
call that sets the watermark stays `max_lateness_ns` away from the end of
the range. -/
theorem latenessExact_iff (cfg : JournalConfig) {track : SensorTrack}
    (hempty : track.hasData = false) (calls : List (AdmitCall F)) :
    (∀ n, LatenessExact F cfg (admissionRun cfg track (calls.take n)).track)
      ↔ Meets (Admissions.step cfg) (StaysInRange cfg) ⟨track, []⟩ calls := by
  have hstart : track.InRange cfg := by
    rw [SensorTrack.InRange, hempty]
    exact fun h => by cases h
  have halways : (∀ n,
      (admissionRun cfg track (calls.take n)).track.InRange cfg)
      ↔ Meets (Admissions.step cfg) (StaysInRange cfg) ⟨track, []⟩ calls :=
    always_iff_meets (P := fun s : Admissions F => s.track.InRange cfg)
      (fun _ c hs => inRange_step c hs) hstart calls
  rw [← halways]
  exact forall_congr' fun n =>
    ⟨fun h => h.inRange, fun h => latenessExact_of_inRange h⟩

/-- One observation, to the default journal. -/
def oneCall : List (AdmitCall Binary64) :=
  [⟨makeObs [99, 97, 109] 1 1 5 1.0 2.0, 0⟩]

theorem latenessExact_oneCall :
    (∀ n, LatenessExact Binary64 defaultCfg
      (admissionRun defaultCfg emptyTrack (oneCall.take n)).track)
    ↔ Meets (Admissions.step defaultCfg) (StaysInRange defaultCfg)
        ⟨emptyTrack, []⟩ oneCall :=
  latenessExact_iff defaultCfg rfl oneCall

/-- A source at the least time there is: the difference of the default
journal is out of range, and its next observation, one nanosecond later,
is turned away as late. -/
theorem least_time_all_late :
    let first : AdmitCall Binary64 :=
      ⟨makeObs [99, 97, 109] 1 1 Int64.minValue 1.0 2.0, 0⟩
    let next := makeObs [99, 97, 109] 1 2 (Int64.minValue + 1) 1.0 2.0
    let track := (admissionRun defaultCfg emptyTrack [first]).track
    obicallObservationValidate first.obs = .ok
      ∧ ¬ InInt64 (track.lateBefore defaultCfg)
      ∧ (obicallJournalAdmit defaultCfg track next 0).1 = .rejectLate
      ∧ ¬ next.sampleTimeNs.toInt < track.lateBefore defaultCfg
      ∧ ¬ LatenessExact Binary64 defaultCfg track := by
  intro first next track
  have hrange : ¬ InInt64 (track.lateBefore defaultCfg) := by
    decide +kernel
  exact ⟨by decide +kernel, hrange, by decide +kernel, by decide +kernel,
    fun h => hrange (h.inRange (by decide +kernel))⟩

end Obicall
