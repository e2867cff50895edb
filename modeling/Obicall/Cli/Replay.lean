/-
`cmd_replay` (`main.c` of the CLI): a segment file read offline, with a
Kalman filter of its own over the admitted positions.

`readRecords` is the loop's reading: it ends at the end of the file or
at the first record that does not read, which the command reports. The
counters are what it prints.
-/
import Mathlib.Data.List.Basic
import Obicall.Broker.Live
import Obicall.Core.Journal

namespace Obicall

open Lib.Feed

variable {F : Type}

/-- The locals of `cmd_replay`. The filter is there once `kf_ready` is
set; until then its variable has no value. -/
structure Replay (F : Type) where
  kf : Option (KalmanState F)
  total : UInt64
  admitted : UInt64
  rejected : UInt64
  finalWindowSeq : UInt64

def Replay.start (F : Type) : Replay F := ⟨none, 0, 0, 0, 0⟩

variable [DoubleArith F]

/-- One turn of the loop. -/
def Replay.record (params : KalmanParams F) (r : Replay F)
    (rec : SegmentRecord F) : Replay F :=
  let (hdr, obs) := rec
  let r := { r with total := r.total + 1, finalWindowSeq := hdr.windowSeq }
  if hdr.admissionReason ≠ AdmissionReason.admitOk.code then
    { r with rejected := r.rejected + 1 }
  else
    let r := { r with admitted := r.admitted + 1 }
    if obs.payloadShape ≠ shapePosition2d then r
    else
      match r.kf with
      | none =>
          { r with kf := some (obicallKalmanInit params obs.zx obs.zy
            obs.sampleTimeNs) }
      | some kf =>
          { r with kf := some (obicallKalmanUpdatePosition kf params
            obs.sampleTimeNs obs.zx obs.zy obs.cov).2 }

variable [DoubleBits F]

/-- `cmd_replay`, up to what it prints. -/
def cmdReplay (params : KalmanParams F) (f : List UInt8) : Replay F :=
  (readRecords f).foldl (Replay.record params) (.start F)

-- ============================================================ estimator

/-- What the loop offers its filter at a record. -/
def replayOffer (rec : SegmentRecord F) : Option (Observation F) :=
  if rec.1.admissionReason = AdmissionReason.admitOk.code
      ∧ rec.2.payloadShape = shapePosition2d then some rec.2
  else none

omit [DoubleBits F] in
theorem kf_record (params : KalmanParams F) (r : Replay F)
    (rec : SegmentRecord F) :
    (r.record params rec).kf = params.sink.feed r.kf (replayOffer rec) := by
  obtain ⟨hdr, obs⟩ := rec
  rw [Replay.record, replayOffer]
  by_cases hreason : hdr.admissionReason = AdmissionReason.admitOk.code
  · rw [if_neg (not_not.mpr hreason)]
    dsimp only
    by_cases hshape : obs.payloadShape = shapePosition2d
    · rw [if_neg (not_not.mpr hshape), if_pos ⟨hreason, hshape⟩]
      cases r.kf with
      | none => rfl
      | some kf => rfl
    · rw [if_pos hshape, if_neg fun h => hshape h.2]
      rfl
  · rw [if_pos hreason, if_neg fun h => hreason h.1]
    rfl

/-- The filter of the command, as a sink that is fed. -/
theorem kf_cmdReplay (params : KalmanParams F) (f : List UInt8) :
    (cmdReplay params f).kf
      = params.sink.fed replayOffer (readRecords f) := by
  have hfold : ∀ (recs : List (SegmentRecord F)) (r : Replay F),
      (recs.foldl (Replay.record params) r).kf
        = recs.foldl (fun s rec => params.sink.feed s (replayOffer rec))
            r.kf := by
    intro recs
    induction recs with
    | nil => exact fun _ => rfl
    | cons rec recs ih =>
        intro r
        rw [List.foldl_cons, List.foldl_cons, ih, kf_record]
  exact hfold _ _

end Obicall
