/-
Offline replay against the live broker, the policy off.

Both loops offer their filter admitted positions, the replay all of
them and the broker those whose sensor has a bit (`replayOffer`,
`BrokerCtx.offer`). So they agree, whatever the filter computes, exactly
when every admitted position comes from a sensor the broker keeps of its
list: the first eight names of it (`replay_agrees_iff`).

An empty list leaves no such sensor. Its mask is all ones, as if every
sensor were meant, but `sensor_bit` has no bit for any: the broker's
filter never starts (`replay_parts_unlisted`).
-/
import Mathlib.Data.List.Basic
import Obicall.Cli.Replay

namespace Obicall

open Lib.Feed Lib.Run

variable {F : Type}

-- ============================================================= statement

/-- The queue entry of a recorded window. -/
def recordEntry (rec : SegmentRecord F) : QueueEntry F where
  windowSeq := rec.1.windowSeq
  obs := rec.2
  admitted :=
    if rec.1.admissionReason = AdmissionReason.admitOk.code then 1 else 0

/-- Every admitted position comes from a sensor that the broker keeps of
its list. -/
def PositionsListed (sensorIds : List UInt8)
    (recs : List (SegmentRecord F)) : Prop :=
  ∀ rec ∈ recs, rec.1.admissionReason = AdmissionReason.admitOk.code →
    rec.2.payloadShape = shapePosition2d →
    ∃ name ∈ (parseSensorIds sensorIds).val,
      strncmpEq name rec.2.sensorId = true

-- ================================================================ offers

/-- At a record the broker offers what the replay does, or nothing. -/
theorem offer_recordEntry (g : BrokerCtx F) (rec : SegmentRecord F) :
    g.offer (recordEntry rec)
      = if g.knows rec.2.sensorId then replayOffer rec else none := by
  rw [BrokerCtx.offer, QueueEntry.isPosition, recordEntry, replayOffer]
  by_cases hreason :
      rec.1.admissionReason = AdmissionReason.admitOk.code
  · by_cases hshape : rec.2.payloadShape = shapePosition2d
    · simp [hreason, hshape]
    · simp [hshape]
  · simp [hreason]

theorem replayOffer_ne_none_iff (rec : SegmentRecord F) :
    replayOffer rec ≠ none
      ↔ rec.1.admissionReason = AdmissionReason.admitOk.code
        ∧ rec.2.payloadShape = shapePosition2d := by
  rw [replayOffer]
  split
  next h => exact iff_of_true (Option.some_ne_none _) h
  next h => exact iff_of_false (fun hne => hne rfl) h

/-- The broker offers what the replay does at every record exactly when
it knows the sensor of every admitted position. -/
theorem offers_agree_iff (g : BrokerCtx F)
    (recs : List (SegmentRecord F)) :
    (∀ rec ∈ recs, g.offer (recordEntry rec) = replayOffer rec)
      ↔ ∀ rec ∈ recs, replayOffer rec ≠ none → g.knows rec.2.sensorId := by
  refine forall₂_congr fun rec _ => ?_
  rw [offer_recordEntry]
  cases g.knows rec.2.sensorId with
  | true => simp
  | false => simp [eq_comm]

variable [DoubleArith F] [DoubleBits F]

theorem positionsListed_iff (brokerId : UInt32) (opts : BrokerOptions F)
    (recs : List (SegmentRecord F)) :
    PositionsListed opts.sensorIds recs
      ↔ ∀ rec ∈ recs, replayOffer rec ≠ none →
        (BrokerCtx.start brokerId opts).knows rec.2.sensorId := by
  refine forall₂_congr fun rec _ => ?_
  rw [replayOffer_ne_none_iff, and_imp, BrokerCtx.knows, List.any_eq_true]
  rfl

-- ================================================================= loops

/-- The live loop over recorded windows, as a sink that is fed. -/
theorem estimator_live (brokerId : UInt32) {opts : BrokerOptions F}
    (hdgt : opts.dgtEnabled = false) {recs : List (SegmentRecord F)}
    {turns : List (QueueEntry F × LocalInput)}
    (hturns : turns.map Prod.fst = recs.map recordEntry) :
    (run BrokerCtx.turn (.start brokerId opts) turns).estimator
      = opts.kfParams.sink.fed
          (fun rec => (BrokerCtx.start brokerId opts).offer
            (recordEntry rec)) recs := by
  rw [estimator_run (live_start brokerId hdgt).policyOff, hturns,
    List.foldl_map]
  rfl

/-- For every filter the two loops agree exactly when every admitted
position comes from a listed sensor. Without a sensor in the list that
is also exactly when the Kalman filters agree. -/
theorem replay_agrees_iff (brokerId : UInt32) (opts : BrokerOptions F)
    (hdgt : opts.dgtEnabled = false) (f : List UInt8)
    {turns : List (QueueEntry F × LocalInput)}
    (hturns : turns.map Prod.fst = (readRecords f).map recordEntry) :
    let recs : List (SegmentRecord F) := readRecords f
    let start := BrokerCtx.start brokerId opts
    let liveOffer := fun rec => start.offer (recordEntry rec)
    let replayed := (cmdReplay opts.kfParams f).kf
    let live := (run BrokerCtx.turn start turns).estimator
    replayed = opts.kfParams.sink.fed replayOffer recs
      ∧ live = opts.kfParams.sink.fed liveOffer recs
      ∧ ((∀ (S : Type) (k : Sink (Observation F) S),
          k.fed replayOffer recs = k.fed liveOffer recs)
        ↔ PositionsListed opts.sensorIds recs)
      ∧ ((parseSensorIds opts.sensorIds).val = [] →
        (replayed = live ↔ PositionsListed opts.sensorIds recs)) := by
  intro recs start liveOffer replayed live
  have hreplayed : replayed = opts.kfParams.sink.fed replayOffer recs :=
    kf_cmdReplay ..
  have hlive : live = opts.kfParams.sink.fed liveOffer recs :=
    estimator_live brokerId hdgt hturns
  have hlisted : PositionsListed opts.sensorIds recs
      ↔ ∀ rec ∈ recs, liveOffer rec = replayOffer rec :=
    (positionsListed_iff brokerId opts recs).trans
      (offers_agree_iff start recs).symm
  refine ⟨hreplayed, hlive, ?_, fun hnone => ?_⟩
  · rw [fed_agree_iff, hlisted]
    refine filterMap_eq_iff_of_skips (fun rec => ?_) recs
    rw [show liveOffer rec = _ from offer_recordEntry start rec]
    split
    · exact .inr rfl
    · exact .inl rfl
  · -- the broker knows no sensor, so its filter never starts
    have hskip : ∀ rec, liveOffer rec = none := by
      intro rec
      have hknows : start.knows rec.2.sensorId = false := by
        rw [BrokerCtx.knows, show start.sensorNames.val = [] from hnone]
        rfl
      rw [show liveOffer rec = _ from offer_recordEntry start rec, hknows]
      rfl
    have hlive' : live = none :=
      hlive.trans ((Sink.fed_eq_none_iff _ _).mpr fun rec _ => hskip rec)
    rw [hlive', hreplayed, Sink.fed_eq_none_iff, hlisted]
    exact forall₂_congr fun rec _ => by rw [hskip, eq_comm]

-- ================================================================ samples

/-- A position from the sensor `cam`. -/
def camFix : Observation Binary64 :=
  makeObs [99, 97, 109] 1 1 1000000000 1.0 2.0

/-- The file of one window that admitted it. -/
def camSegment : List UInt8 :=
  (recordHeader 1 1000000000 .admitOk camFix.bytes).bytes ++ camFix.bytes

/-- The windows of a file, as a broker meets them. -/
def liveTurns (f : List UInt8) : List (QueueEntry Binary64 × LocalInput) :=
  (readRecords f).map fun rec => (recordEntry rec, ⟨1000000000, 0⟩)

theorem map_fst_liveTurns (f : List UInt8) :
    (liveTurns f).map Prod.fst = (readRecords f).map recordEntry := by
  rw [liveTurns, List.map_map]
  rfl

theorem readRecords_camSegment :
    readRecords camSegment
      = [(recordHeader 1 1000000000 .admitOk camFix.bytes,
          camFix.normalize)] := by
  have henc : camFix.Encodable := ⟨by decide, by decide⟩
  have hread : obicallJournalReadRecord (camSegment ++ [])
      = .ok ((recordHeader 1 1000000000 .admitOk camFix.bytes,
          camFix.normalize), []) :=
    readRecord_record_append henc 1 1000000000 .admitOk []
  rw [List.append_nil] at hread
  rw [readRecords_of_ok hread, readRecords_of_error rfl]

/-- With `cam` listed, replay and broker agree on its file. -/
theorem replay_agrees_listed :
    (cmdReplay (policyOff [99, 97, 109]).kfParams camSegment).kf
      = (run BrokerCtx.turn (.start brokerA (policyOff [99, 97, 109]))
          (liveTurns camSegment)).estimator := by
  obtain ⟨hreplay, hlive, hiff, -⟩ := replay_agrees_iff brokerA
    (policyOff [99, 97, 109]) rfl camSegment (map_fst_liveTurns camSegment)
  have hlisted : PositionsListed [99, 97, 109]
      (readRecords (F := Binary64) camSegment) := by
    rw [readRecords_camSegment]
    intro rec hrec _ _
    rw [List.mem_singleton.mp hrec]
    exact ⟨strncpy31 [99, 97, 109], by decide, by decide⟩
  rw [hreplay, hlive]
  exact hiff.mpr hlisted _ _

/-- With no sensor listed the broker does not start its filter, which the
replay of the same file does. -/
theorem replay_parts_unlisted :
    (cmdReplay (policyOff []).kfParams camSegment).kf
      ≠ (run BrokerCtx.turn (.start brokerA (policyOff []))
          (liveTurns camSegment)).estimator := by
  have hreplay :
      (cmdReplay (policyOff []).kfParams camSegment).kf.isSome = true := by
    rw [cmdReplay, readRecords_camSegment]
    rfl
  have hlive : (run BrokerCtx.turn (.start brokerA (policyOff []))
      (liveTurns camSegment)).estimator = none := by
    rw [liveTurns, readRecords_camSegment]
    rfl
  intro h
  rw [h, hlive] at hreplay
  cases hreplay

end Obicall
