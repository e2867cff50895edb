/-
A segment file that was cut anywhere, read record by record.

`obicallJournalReadRecordAt` is `obicall_journal_read_record` with its
calls on the file: where it starts, what it takes, and the seek back on
every error. It does on the unread bytes what `obicallJournalReadRecord`
says (`readRecordAt_ok`, `readRecordAt_error`), so what remains to be seen
is what the bytes of a cut file are: the whole records before the cut, and
a piece of the next one unless the cut is where a record ends. A piece is
`OBICALL_ERR_WIRE_MALFORMED` wherever it ends, in the header, at its end
or in the observation (`readRecord_torn`).
-/
import Obicall.Journald.Segment
import Obicall.Lib.File

namespace Obicall

open Lib.File

variable {F : Type} [DoubleBits F]

-- =============================================================== reading

/-- `obicall_journal_read_record` on an open file. -/
def obicallJournalReadRecordAt (f : OpenFile) :
    Except Status (SegmentRecord F) × OpenFile :=
  let startPos := f.ftell
  let (hdrBuf, f) := f.fread journalRecordHeaderLen
  if hdrBuf.length = 0 && f.feof then (.error .errNotFound, f)
  else if hdrBuf.length ≠ journalRecordHeaderLen then
    (.error .errWireMalformed, f.fseek startPos)
  else
    let (st, hdr) := obicallJournalDecodeRecordHeader hdrBuf
    if st ≠ .ok || hdr.magic ≠ journalRecordMagic then
      (.error .errWireMalformed, f.fseek startPos)
    else if hdr.observationLen.toNat > journalMaxRecordObsLen
        || hdr.recordLen
          ≠ UInt32.ofNat journalRecordHeaderLen + hdr.observationLen then
      (.error .errWireTooLarge, f.fseek startPos)
    else
      let (obsBuf, f) := f.fread hdr.observationLen.toNat
      if obsBuf.length ≠ hdr.observationLen.toNat then
        (.error .errWireMalformed, f.fseek startPos)
      else if obicallCrc32 obsBuf ≠ hdr.crc32 then
        (.error .errWireChecksum, f.fseek startPos)
      else match obicallWireDecodeObservation obsBuf with
        | (.ok, obs) => (.ok (hdr, obs), f)
        | (st, _) => (.error st, f.fseek startPos)

/-- What one call makes of the file, in terms of the unread bytes: a
record moves the position behind it, an error leaves it where it was. -/
structure ReadsAs (f f' : OpenFile)
    (result : Except Status (SegmentRecord F)) : Prop where
  bytes : f'.bytes = f.bytes
  moved : match obicallJournalReadRecord (F := F) f.unread with
    | .ok (r, rest) => result = .ok r ∧ f'.unread = rest
      ∧ f'.pos + rest.length = f.pos + f.unread.length
    | .error st => result = .error st ∧ f'.pos = f.pos

theorem ReadsAs.error {f f' : OpenFile} {st : Status}
    (h : obicallJournalReadRecord (F := F) f.unread = .error st)
    (hbytes : f'.bytes = f.bytes) (hpos : f'.pos = f.pos) :
    ReadsAs (F := F) f f' (.error st) := by
  refine ⟨hbytes, ?_⟩
  rw [h]
  exact ⟨rfl, hpos⟩

/-- What is got of the header is everything, when that is less. -/
theorem length_header_buf (f : OpenFile) :
    (f.fread journalRecordHeaderLen).1.length
      = min journalRecordHeaderLen f.unread.length := List.length_take ..

theorem readRecordAt_readsAs (f : OpenFile) :
    ReadsAs f (obicallJournalReadRecordAt (F := F) f).2
      (obicallJournalReadRecordAt (F := F) f).1 := by
  have hbuf := length_header_buf f
  unfold obicallJournalReadRecordAt
  dsimp only
  split
  next hend =>
    have hnone : (f.fread journalRecordHeaderLen).1.length = 0 :=
      of_decide_eq_true (Bool.and_eq_true_iff.mp hend).1
    have hempty : f.unread.length = 0 := by
      simp only [journalRecordHeaderLen] at hbuf hnone
      omega
    refine .error (if_pos hempty) rfl ?_
    show f.pos + (f.fread journalRecordHeaderLen).1.length = f.pos
    rw [hnone, Nat.add_zero]
  next hmore =>
  have hempty : ¬ f.unread.length = 0 := by
    intro hzero
    refine hmore (Bool.and_eq_true_iff.mpr ⟨decide_eq_true ?_, ?_⟩)
    · rw [hbuf, hzero, Nat.min_zero]
    · have hfeof : (f.fread journalRecordHeaderLen).2.feof
          = (f.eof || decide ((f.fread journalRecordHeaderLen).1.length
            < journalRecordHeaderLen)) := rfl
      rw [hfeof, hbuf, hzero]
      exact Bool.or_true _
  split
  next hcut =>
    have hshort : f.unread.length < journalRecordHeaderLen := by omega
    exact .error ((if_neg hempty).trans (if_pos hshort)) rfl rfl
  next hwhole =>
  have hshort : ¬ f.unread.length < journalRecordHeaderLen := by omega
  have hread : obicallJournalReadRecord (F := F) f.unread = _ :=
    (if_neg hempty).trans (if_neg hshort)
  -- from here on both go by the same tests, on the same bytes
  split
  next hmagic => exact .error (hread.trans (if_pos hmagic)) rfl rfl
  next hmagic =>
  replace hread := hread.trans (if_neg hmagic)
  split
  next hlarge => exact .error (hread.trans (if_pos hlarge)) rfl rfl
  next hlarge =>
  replace hread := hread.trans (if_neg hlarge)
  rw [OpenFile.fread_fst, OpenFile.unread_fread]
  split
  next htorn => exact .error (hread.trans (if_pos htorn)) rfl rfl
  next htorn =>
  replace hread := hread.trans (if_neg htorn)
  split
  next hcrc => exact .error (hread.trans (if_pos hcrc)) rfl rfl
  next hcrc =>
  replace hread := hread.trans (if_neg hcrc)
  split
  next obs hdec =>
    rw [OpenFile.fread_fst] at hdec htorn ⊢
    rw [hdec] at hread
    refine ⟨rfl, ?_⟩
    rw [hread]
    refine ⟨rfl, ?_, ?_⟩
    · rw [OpenFile.unread_fread, OpenFile.unread_fread]
    · rw [OpenFile.pos_fread, OpenFile.pos_fread, OpenFile.unread_fread,
        not_not.mp htorn, List.length_drop, List.length_drop]
      have hgot := not_not.mp htorn
      rw [List.length_take, List.length_drop] at hgot
      rw [List.length_take]
      omega
  next st obs hbad hdec =>
    rw [OpenFile.fread_fst] at hdec
    refine .error ?_ rfl rfl
    rw [hread, hdec]
    split
    next heq => cases heq; exact (hbad rfl).elim
    next heq => cases heq; rfl

/-- A record is read: the position is behind it. -/
theorem readRecordAt_ok {f : OpenFile} {r : SegmentRecord F}
    {rest : List UInt8}
    (h : obicallJournalReadRecord f.unread = .ok (r, rest)) :
    ∃ f', obicallJournalReadRecordAt f = (.ok r, f') ∧ f'.unread = rest
      ∧ f'.pos + rest.length = f.pos + f.unread.length := by
  have hmoved := (readRecordAt_readsAs (F := F) f).moved
  rw [h] at hmoved
  obtain ⟨hresult, hunread, hpos⟩ := hmoved
  exact ⟨_, Prod.ext hresult rfl, hunread, hpos⟩

/-- An error leaves the position where it was. -/
theorem readRecordAt_error {f : OpenFile} {st : Status}
    (h : obicallJournalReadRecord (F := F) f.unread = .error st) :
    (obicallJournalReadRecordAt (F := F) f).1 = .error st
      ∧ (obicallJournalReadRecordAt (F := F) f).2.pos = f.pos := by
  have hmoved := (readRecordAt_readsAs (F := F) f).moved
  rw [h] at hmoved
  exact hmoved

-- ================================================================ pieces

/-- A record cut short: malformed, wherever it is cut. -/
theorem readRecord_torn {r : SegmentRecord F} (h : r.Appended) {n : Nat}
    (hpos : 0 < n) (hlt : n < r.bytes.length) :
    obicallJournalReadRecord (F := F) (r.bytes.take n)
      = .error .errWireMalformed := by
  obtain ⟨henc, windowSeq, admittedAtNs, reason, hhdr⟩ := h
  have hlen : (r.bytes.take n).length = n := by
    rw [List.length_take]
    omega
  by_cases hhead : n < journalRecordHeaderLen
  · -- inside the header
    have hempty : ¬ (r.bytes.take n).length = 0 := by omega
    have hshort : (r.bytes.take n).length < journalRecordHeaderLen := by
      rw [hlen]
      exact hhead
    exact (if_neg hempty).trans (if_pos hshort)
  · -- at the end of the header, or behind it
    have hhdrlen := r.1.length_bytes
    rw [SegmentRecord.bytes, List.length_append, hhdrlen] at hlt
    have htake : r.bytes.take n
        = r.1.bytes ++ r.2.bytes.take (n - journalRecordHeaderLen) := by
      rw [SegmentRecord.bytes, List.take_append, hhdrlen,
        List.take_of_length_le (by omega)]
    have hbody : ((r.2.bytes.take (n - journalRecordHeaderLen)).take
        r.2.bytes.length).length ≠ r.2.bytes.length := by
      rw [List.length_take, List.length_take]
      omega
    rw [htake, hhdr,
      readRecord_recordHeader_append r.2.length_bytes_le_record,
      if_pos hbody]

theorem readRecord_nil :
    obicallJournalReadRecord (F := F) [] = .error .errNotFound := rfl

-- ================================================================== calls

/-- `k` calls, one after the other: what each returned, and the file. -/
def readCalls : Nat → OpenFile →
    List (Except Status (SegmentRecord F)) × OpenFile
  | 0, f => ([], f)
  | k + 1, f =>
      let (result, f) := obicallJournalReadRecordAt f
      let (results, f) := readCalls k f
      (result :: results, f)

/-- As many calls as there are whole records read these, and stop behind
them. -/
theorem readCalls_whole (rs : List (SegmentRecord F)) (tail : List UInt8) :
    ∀ f : OpenFile, (∀ r ∈ rs, r.Appended) →
      f.unread = (rs.map SegmentRecord.bytes).flatten ++ tail →
      (readCalls rs.length f).1 = rs.map (fun r => .ok r.stored)
      ∧ (readCalls (F := F) rs.length f).2.unread = tail
      ∧ (readCalls (F := F) rs.length f).2.pos
        = f.pos + (rs.map SegmentRecord.bytes).flatten.length := by
  induction rs with
  | nil => exact fun f _ hf => ⟨rfl, hf, rfl⟩
  | cons r rs ih =>
      intro f h hf
      obtain ⟨hr, hrs⟩ := List.forall_mem_cons.mp h
      obtain ⟨henc, windowSeq, admittedAtNs, reason, hhdr⟩ := hr
      rw [List.map_cons, List.flatten_cons, List.append_assoc] at hf
      have hread := readRecord_record_append henc windowSeq admittedAtNs
        reason ((rs.map SegmentRecord.bytes).flatten ++ tail)
      simp only [← hhdr] at hread
      have hunread : obicallJournalReadRecord f.unread = _ :=
        (congrArg _ hf).trans hread
      obtain ⟨f', hcall, hf', hpos⟩ := readRecordAt_ok hunread
      obtain ⟨hresults, hrest, hend⟩ := ih f' hrs hf'
      simp only [hf, List.length_append] at hpos
      rw [List.length_cons, readCalls, hcall]
      refine ⟨?_, hrest, ?_⟩
      · exact congrArg _ hresults
      · rw [hend, List.map_cons, List.flatten_cons, List.length_append]
        omega

-- =============================================================== appends

/-- The arguments of one `obicall_journal_append_record`. -/
structure AppendArgs (F : Type) where
  windowSeq : UInt64
  admittedAtNs : Int64
  reason : AdmissionReason
  obs : Observation F

/-- The file after appends that all went through, on an empty one. -/
def appendAll (as : List (AppendArgs F)) : List UInt8 :=
  as.foldl (fun file a => (obicallJournalAppendRecord file a.windowSeq
    a.admittedAtNs a.reason a.obs .all).2) []

/-- The record an append writes. -/
def AppendArgs.record (a : AppendArgs F) : SegmentRecord F :=
  (recordHeader a.windowSeq a.admittedAtNs a.reason a.obs.bytes, a.obs)

/-- The file is its records, one after the other. -/
theorem appendAll_eq {as : List (AppendArgs F)}
    (h : ∀ a ∈ as, a.obs.Encodable) :
    appendAll as = (as.map fun a => a.record.bytes).flatten := by
  have hfrom : ∀ (file : List UInt8), (∀ a ∈ as, a.obs.Encodable) →
      as.foldl (fun file a => (obicallJournalAppendRecord file a.windowSeq
          a.admittedAtNs a.reason a.obs .all).2) file
        = file ++ (as.map fun a => a.record.bytes).flatten := by
    clear h
    induction as with
    | nil => exact fun file _ => (List.append_nil file).symm
    | cons a as ih =>
        intro file h
        obtain ⟨ha, has⟩ := List.forall_mem_cons.mp h
        have hstep : (obicallJournalAppendRecord file a.windowSeq
            a.admittedAtNs a.reason a.obs .all).2
            = file ++ a.record.bytes := by
          rw [obicallJournalAppendRecord, obicallJournalRecord_eq ha]
          rfl
        rw [List.foldl_cons, hstep, ih _ has, List.map_cons,
          List.flatten_cons, List.append_assoc]
  exact hfrom [] h

/-- Its first records are its bytes up to the end of the last of them. -/
theorem appendAll_take {as : List (AppendArgs F)}
    (h : ∀ a ∈ as, a.obs.Encodable) (i : Nat) :
    appendAll (as.take i)
      = ((as.map fun a => a.record.bytes).take i).flatten := by
  rw [appendAll_eq fun a ha => h a (List.mem_of_mem_take ha), List.map_take]

theorem appended_record {a : AppendArgs F} (h : a.obs.Encodable) :
    a.record.Appended :=
  ⟨h, a.windowSeq, a.admittedAtNs, a.reason, rfl⟩

/-- The call at what is left of a cut file: the end of the file, or a
malformed record. -/
theorem readRecordAt_rest {as : List (AppendArgs F)}
    (henc : ∀ a ∈ as, a.obs.Encodable) {k : Nat} {f : OpenFile}
    (h : f.unread = [] ∨ Torn (as.map fun a => a.record.bytes) k f.unread) :
    let next := obicallJournalReadRecordAt (F := F) f
    next.1 = .error (if f.unread = [] then .errNotFound
      else .errWireMalformed) ∧ next.2.pos = f.pos := by
  rcases h with hnil | ⟨p, i, hp, hpos, hlt, hrest⟩
  · rw [if_pos hnil]
    exact readRecordAt_error (hnil ▸ readRecord_nil)
  · rw [List.getElem?_map] at hp
    obtain ⟨a, ha, rfl⟩ := Option.map_eq_some_iff.mp hp
    have happ := appended_record (henc a (List.mem_of_getElem? ha))
    have hne : f.unread ≠ [] := by
      rw [hrest]
      intro hnil
      have hlen := congrArg List.length hnil
      rw [List.length_take, List.length_nil] at hlen
      omega
    rw [if_neg hne]
    exact readRecordAt_error (hrest ▸ readRecord_torn happ hpos hlt)

/-- A segment file cut anywhere. Reading it gives the records that end
within the cut, in order; then the end of the file, when the cut is where
a record ends, or else a malformed record, with the position where that
record starts. -/
theorem read_back_cut (as : List (AppendArgs F))
    (henc : ∀ a ∈ as, a.obs.Encodable) (n : Nat) :
    let cut := (appendAll as).take n
    ∃ k ≤ as.length,
      (∀ j < as.length,
        j < k ↔ (appendAll (as.take (j + 1))).length ≤ cut.length)
      ∧ (readCalls k (OpenFile.opened cut)).1
        = (as.take k).map (fun a => .ok a.record.stored)
      ∧ let next := obicallJournalReadRecordAt (F := F)
          (readCalls (F := F) k (OpenFile.opened cut)).2
        ((∃ j ≤ as.length, (appendAll (as.take j)).length = cut.length) →
          next.1 = .error .errNotFound)
        ∧ ((∀ j ≤ as.length, (appendAll (as.take j)).length ≠ cut.length) →
          next.1 = .error .errWireMalformed
          ∧ next.2.pos = (appendAll (as.take k)).length) := by
  intro cut
  let ps := as.map fun a => a.record.bytes
  obtain ⟨rest, hcut, hrest⟩ := take_flatten ps n
  have hk : whole ps n ≤ as.length :=
    (whole_le ps n).trans (List.length_map _).le
  have hfile : appendAll as = ps.flatten := appendAll_eq henc
  have hcut' : cut = (ps.take (whole ps n)).flatten ++ rest :=
    (congrArg (List.take n) hfile).trans hcut
  -- the calls for the whole records
  let rs := (as.take (whole ps n)).map AppendArgs.record
  have hrs : rs.length = whole ps n := by
    rw [List.length_map, List.length_take, Nat.min_eq_left hk]
  have hbytes : rs.map SegmentRecord.bytes = ps.take (whole ps n) := by
    rw [List.map_map, List.map_take]
    rfl
  have happ : ∀ r ∈ rs, r.Appended := by
    intro r hr
    obtain ⟨a, ha, rfl⟩ := List.mem_map.mp hr
    exact appended_record (henc a (List.mem_of_mem_take ha))
  obtain ⟨hresults, hleft, hpos⟩ := readCalls_whole rs rest
    (OpenFile.opened cut) happ (by rw [OpenFile.unread_opened, hbytes, hcut'])
  rw [hrs] at hresults hleft hpos
  rw [hbytes, ← appendAll_take henc] at hpos
  refine ⟨whole ps n, hk, fun j hj => ?_, ?_, ?_⟩
  · have hj' : j < ps.length := by rw [List.length_map]; exact hj
    have hall := length_flatten_take_mono ps (Nat.succ_le_of_lt hj')
    have hcutlen : cut.length = min n ps.flatten.length := by
      rw [← hfile]
      exact List.length_take ..
    rw [List.take_length] at hall
    rw [lt_whole_iff hj', appendAll_take henc, hcutlen, Nat.le_min]
    exact (and_iff_left hall).symm
  · rw [hresults, List.map_map]
    rfl
  · -- the call behind them
    rw [← hleft] at hrest
    obtain ⟨hnext, hstay⟩ := readRecordAt_rest henc hrest
    have hcutlen : cut.length
        = (appendAll (as.take (whole ps n))).length + rest.length := by
      rw [hcut', List.length_append, appendAll_take henc]
    refine ⟨fun ⟨j, _, hj⟩ => ?_, fun hno => ?_⟩
    · rw [hnext]
      rcases hrest with hnil | htorn
      · rw [if_pos hnil]
      · have hne := htorn.ne_boundary j
        rw [hleft, ← appendAll_take henc, ← appendAll_take henc] at hne
        exact absurd (hcutlen.symm.trans hj.symm) hne
    · have hne : rest ≠ [] := by
        intro hnil
        rw [hnil, List.length_nil, Nat.add_zero] at hcutlen
        exact hno _ hk hcutlen.symm
      rw [hnext, hstay, hpos, if_neg (hleft ▸ hne)]
      exact ⟨rfl, Nat.zero_add _⟩

/-- Two appends. -/
def twoAppends : List (AppendArgs Binary64) :=
  [⟨1, 10, .admitOk, makeObs [99, 97, 109] 1 1 1 1.0 2.0⟩,
   ⟨2, 11, .rejectLate, makeObs [99, 97, 109] 1 2 2 1.0 2.0⟩]

/-- Cut in the header of the second: the first is read, the position is
where the second starts. -/
theorem read_back_cut_header :
    let cut := (appendAll twoAppends).take 200
    ∃ k ≤ twoAppends.length,
      (∀ j < twoAppends.length,
        j < k ↔ (appendAll (twoAppends.take (j + 1))).length ≤ cut.length)
      ∧ (readCalls k (OpenFile.opened cut)).1
        = (twoAppends.take k).map (fun a => .ok a.record.stored)
      ∧ let next := obicallJournalReadRecordAt (F := Binary64)
          (readCalls (F := Binary64) k (OpenFile.opened cut)).2
        ((∃ j ≤ twoAppends.length,
            (appendAll (twoAppends.take j)).length = cut.length) →
          next.1 = .error .errNotFound)
        ∧ ((∀ j ≤ twoAppends.length,
            (appendAll (twoAppends.take j)).length ≠ cut.length) →
          next.1 = .error .errWireMalformed
          ∧ next.2.pos = (appendAll (twoAppends.take k)).length) :=
  read_back_cut twoAppends (by
    intro a ha
    rcases List.mem_pair.mp ha with rfl | rfl
    · exact ⟨by decide, by decide⟩
    · exact ⟨by decide, by decide⟩) 200

end Obicall
