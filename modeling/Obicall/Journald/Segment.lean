/-
The life of one segment file: the records journald appends to it, the
appends that stop part way, and the reopening of the file by the next
process.

# What stays readable

`obicall_journal_append_record` leaves whatever it managed to write in
the file and `main` reopens the file with "ab", so the bytes of an
append that stopped part way stay where they are and the next record is
written after them. The reader stops at the first bad record. So the
acknowledged records can be read back as long as none of them was
written behind such a torn prefix (`readable_of_whole`), and a single
torn byte hides every later one (`tornByte_not_readable`).

A failed append that wrote nothing, or everything and then failed to
flush, does no harm.
-/
import Mathlib.Data.List.Sublists
import Obicall.Core.Journal
import Obicall.Lib.Run

namespace Obicall

open Lib.Run

variable {F : Type} [DoubleBits F]

-- ================================================================= model

/-- How far an append gets: to the end, or to a failure or a crash with
the first `n` bytes of the record in the file. -/
inductive Written where
  | all
  | cut (n : Nat)
  deriving DecidableEq

/-- `obicall_journal_append_record` on the bytes of a file: the status it
returns, and the file. -/
def obicallJournalAppendRecord (file : List UInt8) (windowSeq : UInt64)
    (admittedAtNs : Int64) (reason : AdmissionReason) (obs : Observation F)
    (written : Written) : Status × List UInt8 :=
  match obicallJournalRecord windowSeq admittedAtNs reason obs with
  | .error st => (st, file)
  | .ok bytes =>
      match written with
      | .all => (.ok, file ++ bytes)
      | .cut n => (.errIo, file ++ bytes.take n)

/-- The append leaves a proper, non-empty prefix of its record. -/
def leavesTorn (windowSeq : UInt64) (admittedAtNs : Int64)
    (reason : AdmissionReason) (obs : Observation F) : Written → Bool
  | .all => false
  | .cut n =>
      match obicallJournalRecord windowSeq admittedAtNs reason obs with
      | .error _ => false
      | .ok bytes => 0 < n && n < bytes.length

/-- The file, the records whose append returned `OBICALL_OK`, oldest
first, and whether some append left a torn prefix. -/
structure Segment (F : Type) where
  file : List UInt8
  acked : List (SegmentRecord F)
  torn : Bool

inductive SegmentEvent (F : Type) where
  | append (windowSeq : UInt64) (admittedAtNs : Int64)
      (reason : AdmissionReason) (obs : Observation F) (written : Written)
  | reopen

/-- One event. Reopening for append leaves the bytes as they are. -/
def Segment.step (s : Segment F) : SegmentEvent F → Segment F
  | .append windowSeq admittedAtNs reason obs written =>
      let (st, file) := obicallJournalAppendRecord s.file windowSeq
        admittedAtNs reason obs written
      { file
        acked := if st = .ok then
            s.acked ++ [(recordHeader windowSeq admittedAtNs reason obs.bytes,
              obs)]
          else s.acked
        torn := s.torn
          || leavesTorn windowSeq admittedAtNs reason obs written }
  | .reopen => s

/-- The history of a segment file that starts empty. -/
def segmentRun (es : List (SegmentEvent F)) : Segment F :=
  run Segment.step ⟨[], [], false⟩ es

/-- A record as a reader can return it: its observation is what the
encoding keeps of it. -/
def SegmentRecord.stored (r : SegmentRecord F) : SegmentRecord F :=
  (r.1, r.2.normalize)

/-- Every acknowledged record is read back, in append order. -/
def Segment.Readable (s : Segment F) : Prop :=
  (s.acked.map SegmentRecord.stored).Sublist (readRecords s.file)

/-- An append that returns `OBICALL_OK`, of an observation that the encoder
takes, finds no torn prefix in the file. -/
def afterWhole (s : Segment F) : SegmentEvent F → Prop
  | .append _ _ _ obs .all => obs.Encodable → s.torn = false
  | _ => True

instance (s : Segment F) (e : SegmentEvent F) : Decidable (afterWhole s e) :=
  match e with
  | .append _ _ _ obs .all =>
      inferInstanceAs (Decidable (obs.Encodable → s.torn = false))
  | .append _ _ _ _ (.cut _) => inferInstanceAs (Decidable True)
  | .reopen => inferInstanceAs (Decidable True)

-- ================================================================= bytes

/-- The bytes of a record in the file. -/
def SegmentRecord.bytes (r : SegmentRecord F) : List UInt8 :=
  r.1.bytes ++ r.2.bytes

/-- A record that an append wrote in full. -/
def SegmentRecord.Appended (r : SegmentRecord F) : Prop :=
  r.2.Encodable ∧ ∃ windowSeq admittedAtNs reason,
    r.1 = recordHeader windowSeq admittedAtNs reason r.2.bytes

/-- Reading gets through the whole records at the front of a file. -/
theorem readRecords_flatMap_append :
    ∀ (rs : List (SegmentRecord F)) (tail : List UInt8),
      (∀ r ∈ rs, r.Appended) →
      readRecords (rs.flatMap SegmentRecord.bytes ++ tail)
        = rs.map SegmentRecord.stored ++ readRecords tail := by
  intro rs tail
  induction rs with
  | nil => exact fun _ => rfl
  | cons r rs ih =>
      intro h
      obtain ⟨henc, windowSeq, admittedAtNs, reason, hhdr⟩ :=
        h r List.mem_cons_self
      have hread := readRecord_record_append henc windowSeq admittedAtNs
        reason (rs.flatMap SegmentRecord.bytes ++ tail)
      simp only [← hhdr] at hread
      rw [List.flatMap_cons, List.append_assoc, SegmentRecord.bytes,
        readRecords_of_ok hread,
        ih fun r' hr' => h r' (List.mem_cons_of_mem _ hr')]
      rfl

-- ============================================================== invariant

/-- The file is whole records and a tail; the tail is empty until an
append is torn, and the acknowledged records are among the whole ones,
in their order. -/
def Segment.Inv (s : Segment F) : Prop :=
  ∃ (rs : List (SegmentRecord F)) (tail : List UInt8),
    s.file = rs.flatMap SegmentRecord.bytes ++ tail
    ∧ (∀ r ∈ rs, r.Appended)
    ∧ s.acked.Sublist rs
    ∧ (s.torn = false → tail = [])

/-- What is appended to a file without a torn prefix starts at a record
boundary. -/
theorem Segment.Inv.snoc {s : Segment F} (h : s.Inv) (hs : s.torn = false)
    {r : SegmentRecord F} (hr : r.Appended) {acked : List (SegmentRecord F)}
    (hacked : acked.Sublist (s.acked ++ [r])) :
    Segment.Inv ⟨s.file ++ r.bytes, acked, false⟩ := by
  obtain ⟨rs, tail, hfile, happ, hsub, htail⟩ := h
  refine ⟨rs ++ [r], [], ?_, ?_, ?_, fun _ => rfl⟩
  · rw [hfile, htail hs, List.flatMap_append]
    simp
  · intro r' hr'
    rcases List.mem_append.mp hr' with hr' | hr'
    · exact happ r' hr'
    · exact List.mem_singleton.mp hr' ▸ hr
  · exact hacked.trans (hsub.append (List.Sublist.refl [r]))

/-- Bytes that come to lie behind the whole records. -/
theorem Segment.Inv.extend {s : Segment F} (h : s.Inv) (bytes : List UInt8)
    {torn : Bool} (htorn : torn = false → s.torn = false ∧ bytes = []) :
    Segment.Inv ⟨s.file ++ bytes, s.acked, torn⟩ := by
  obtain ⟨rs, tail, hfile, happ, hsub, htail⟩ := h
  refine ⟨rs, tail ++ bytes, ?_, happ, hsub, fun ht => ?_⟩
  · show s.file ++ bytes = _
    rw [hfile, List.append_assoc]
  · obtain ⟨hs, hbytes⟩ := htorn ht
    rw [htail hs, hbytes, List.append_nil]

/-- An append that stops part way: harmless when it wrote nothing or
everything, a torn tail otherwise. -/
theorem Segment.Inv.cut {s : Segment F} (h : s.Inv) {r : SegmentRecord F}
    (hr : r.Appended) (n : Nat) :
    Segment.Inv ⟨s.file ++ r.bytes.take n, s.acked,
      s.torn || (0 < n && n < r.bytes.length)⟩ := by
  cases htorn : s.torn with
  | true => exact h.extend _ fun hno => (nomatch hno)
  | false =>
      by_cases hall : r.bytes.length ≤ n
      · have hflag : (false || (decide (0 < n)
            && decide (n < r.bytes.length))) = false := by
          simp only [Bool.false_or, Bool.and_eq_false_iff,
            decide_eq_false_iff_not]
          omega
        rw [hflag, List.take_of_length_le hall]
        exact h.snoc htorn hr (List.sublist_append_left ..)
      · refine h.extend _ fun hno => ⟨htorn, ?_⟩
        have hzero : n = 0 := by
          simp only [Bool.false_or, Bool.and_eq_false_iff,
            decide_eq_false_iff_not] at hno
          omega
        rw [hzero, List.take_zero]

/-- One event keeps the invariant, when a completed append finds the
file whole. -/
theorem Segment.Inv.step {s : Segment F} (h : s.Inv) {e : SegmentEvent F}
    (he : afterWhole s e) : (s.step e).Inv := by
  cases e with
  | reopen => exact h
  | append windowSeq admittedAtNs reason obs written =>
      by_cases henc : obs.Encodable
      · have hrec := obicallJournalRecord_eq henc windowSeq admittedAtNs reason
        have happ : SegmentRecord.Appended
            (recordHeader windowSeq admittedAtNs reason obs.bytes, obs) :=
          ⟨henc, _, _, _, rfl⟩
        cases written with
        | all =>
            have htorn : s.torn = false := he henc
            simp only [Segment.step, obicallJournalAppendRecord, hrec,
              if_true, leavesTorn, htorn, Bool.or_false]
            exact h.snoc htorn happ (List.Sublist.refl _)
        | cut n =>
            simp only [Segment.step, obicallJournalAppendRecord, hrec,
              leavesTorn]
            rw [if_neg (by decide)]
            exact h.cut happ n
      · -- the encoder refuses the observation: nothing is written
        have hrec := obicallJournalRecord_of_not_encodable henc windowSeq
          admittedAtNs reason
        have hflag : leavesTorn windowSeq admittedAtNs reason obs written
            = false := by
          cases written with
          | all => rfl
          | cut n => simp only [leavesTorn, hrec]
        simp only [Segment.step, obicallJournalAppendRecord, hrec, hflag,
          Bool.or_false]
        rw [if_neg (by decide)]
        exact h

theorem Segment.Inv.readable {s : Segment F} (h : s.Inv) : s.Readable := by
  obtain ⟨rs, tail, hfile, happ, hsub, _⟩ := h
  unfold Segment.Readable
  rw [hfile, readRecords_flatMap_append rs tail happ]
  exact (hsub.map _).trans (List.sublist_append_left ..)

/-- While no append completes behind a torn prefix, every acknowledged
record can be read back, in order. -/
theorem readable_of_whole (es : List (SegmentEvent F))
    (h : Meets Segment.step afterWhole ⟨[], [], false⟩ es) :
    (segmentRun es).Readable := by
  have hinit : Segment.Inv (F := F) ⟨[], [], false⟩ :=
    ⟨[], [], rfl, fun _ hr => (nomatch hr), List.Sublist.refl _,
      fun _ => rfl⟩
  have hrun : (segmentRun es).Inv :=
    run_inv_of_meets (fun _ _ hs he => hs.step he) hinit h
  exact hrun.readable

/-- A record acknowledged, and a later append that fails half way. -/
theorem readable_of_whole_lastCut :
    (segmentRun [
      .append 1 0 .admitOk (makeObs [99, 97, 109] 1 1 1 1.0 2.0) .all,
      .append 2 0 .admitOk (makeObs [99, 97, 109] 1 2 2 1.0 2.0) (.cut 50),
      .reopen]).Readable :=
  readable_of_whole _ (by decide +kernel)

-- ======================================================== counterexample

/-- Two appends, the first torn after one byte of its record. -/
def tornByteHistory : List (SegmentEvent Binary64) :=
  [.append 1 0 .admitOk (makeObs [99, 97, 109] 1 1 1 1.0 2.0) (.cut 1),
   .append 2 0 .admitOk (makeObs [99, 97, 109] 1 2 2 1.0 2.0) .all]

/-- The second append returned `OBICALL_OK`, yet the reader stops before
it: the first four bytes of the file are not the magic. -/
theorem tornByte_not_readable :
    ¬ (segmentRun tornByteHistory).Readable := by
  intro h
  have hread : readRecords (F := Binary64)
      (segmentRun tornByteHistory).file = [] := by
    have hbad : obicallJournalReadRecord (F := Binary64)
        (segmentRun tornByteHistory).file = .error .errWireMalformed := by
      decide +kernel
    exact readRecords_of_error hbad
  have hacked : (segmentRun tornByteHistory).acked.length = 1 := by
    decide +kernel
  unfold Segment.Readable at h
  rw [hread, List.sublist_nil, List.map_eq_nil_iff] at h
  rw [h] at hacked
  cases hacked

end Obicall
