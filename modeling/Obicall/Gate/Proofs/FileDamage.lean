/-
Damage to the gate's state file: a truncated file never loads, and a
file altered inside a window of four bytes either does not load or loads
the state that was persisted.

# The cases

A file is magic, length, checksum, a reserved word and the payload. A
window of four bytes cannot reach both the length and the payload, nor
both the checksum and the payload, so an altered file that loads falls
under one of three cases. A changed length is shorter, and the payload
cut to it is a strict prefix of an encoded state, which the decoder
refuses. A changed payload is a burst of at most 32 bits, which CRC-32
detects. Otherwise payload and length are intact, and whatever else
changed is the reserved word, which nothing reads.
-/
import Mathlib.Data.List.Basic
import Obicall.Gate.Proofs.StateFile

namespace Obicall

open Lib.Codec Lib.Crc

-- ============================================================ the decoder

theorem takes_rcGatePipeline :
    TakesBack rcGatePipeline fun p bs => bs = p.bytes :=
  .bind (takes_rcBytes _) fun _ => .bind takes_rcU32 fun _ =>
  .bind takes_rcU64 fun _ => (takes_rcBytes _).map
    fun _ _ h₄ _ h₃ _ h₂ _ h₁ => by rw [h₁, h₂, h₃, h₄]; rfl

/-- The decoder says OK to nothing but an encoded state in range. -/
theorem parses_rcGateState :
    Parses rcGateState fun s bs => s.pipelineCount.toNat ≤ maxPipelines ∧
      ∃ n, bs = { s with structSize := n : GateState }.bytes := by
  refine .read takes_rcU32 fun structSize => .read takes_rcU32 fun _ =>
    .read takes_rcU64 fun _ => .read takes_rcU32 fun _ =>
    .read takes_rcU32 fun pipelineCount =>
    accepts_guard (by nofun) fun hcount => ?_
  refine .readP (takes_rcRepeat takes_rcGatePipeline _) fun slots =>
    accepts_verdict fun hlen => ⟨hcount, structSize, ?_⟩
  have hle : slots.length ≤ maxPipelines := hlen ▸ hcount
  simp only [GateState.bytes, ← hlen, take_fillVector _ hle,
    List.append_nil]

/-- The state decoder and the encoded states. -/
theorem gateStateLayout :
    Layout (fun r => r.1 = .ok) obicallGateDecodeState
      (fun s => s.pipelineCount.toNat ≤ maxPipelines) GateState.bytes
      (fun s => (.ok, s.normalize)) where
  reads s tl hs := (reads_rcGateState hs).run_append tl
  accepts b hb := by
    obtain ⟨bs, tl, hcut, hrange, n, hbs⟩ := parses_rcGateState.run
      (Prod.ext hb rfl : obicallGateDecodeState b = (.ok, _))
    exact ⟨{ (obicallGateDecodeState b).2 with structSize := n }, tl,
      hrange, hbs ▸ hcut⟩
  length s s' he := by
    have hcount : s.pipelineCount = s'.pipelineCount :=
      congrArg (fun r : Status × GateState => r.2.pipelineCount) he
    rw [GateState.length_bytes, GateState.length_bytes, hcount]

-- =============================================================== the file

theorem u32Bytes_injective {v v' : UInt32} (h : u32Bytes v = u32Bytes v') :
    v = v' := by
  have hv := (reads_rcU32 v).run
  rw [h, (reads_rcU32 v').run] at hv
  exact hv.symm

/-- Four bytes are a word. -/
theorem exists_u32Bytes {l : List UInt8} (h : 4 ≤ l.length) :
    ∃ v tl, l = u32Bytes v ++ tl := by
  have hread : ((rcU32 : StateM RCursor UInt32) (RCursor.start l)).2.ok
      = true := by
    show ((rcBytes 4 : StateM RCursor _) (RCursor.start l)).2.ok = true
    simp [rcBytes, RCursor.bytes, RCursor.start, h]
  obtain ⟨-, bs, hl, rfl⟩ := takes_rcU32 (RCursor.start l) hread
  exact ⟨_, _, hl⟩

/-- What a file of at least a header's length begins with. -/
def gateFile (magic payloadLen crc reserved : UInt32)
    (rest : List UInt8) : List UInt8 :=
  u32Bytes magic ++ (u32Bytes payloadLen ++ (u32Bytes crc ++
    (u32Bytes reserved ++ rest)))

theorem exists_gateFile {file : List UInt8}
    (h : gatePersistHeaderLen ≤ file.length) :
    ∃ magic payloadLen crc reserved rest,
      file = gateFile magic payloadLen crc reserved rest := by
  simp only [gatePersistHeaderLen] at h
  obtain ⟨magic, tl, rfl⟩ := exists_u32Bytes (l := file) (by omega)
  rw [List.length_append, length_u32Bytes] at h
  obtain ⟨payloadLen, tl, rfl⟩ := exists_u32Bytes (l := tl) (by omega)
  rw [List.length_append, length_u32Bytes] at h
  obtain ⟨crc, tl, rfl⟩ := exists_u32Bytes (l := tl) (by omega)
  rw [List.length_append, length_u32Bytes] at h
  obtain ⟨reserved, rest, rfl⟩ := exists_u32Bytes (l := tl) (by omega)
  exact ⟨magic, payloadLen, crc, reserved, rest, rfl⟩

theorem gateFile_drop (magic payloadLen crc reserved : UInt32)
    (rest : List UInt8) :
    (gateFile magic payloadLen crc reserved rest).drop gatePersistHeaderLen
      = rest := by
  rw [gateFile, ← List.append_assoc, ← List.append_assoc,
    ← List.append_assoc]
  exact List.drop_left' (by simp [gatePersistHeaderLen])

/-- Loading a file of at least a header's length. -/
theorem obicallGateLoadState_gateFile (magic payloadLen crc reserved : UInt32)
    (rest : List UInt8) (out : GateState) :
    obicallGateLoadState (gateFile magic payloadLen crc reserved rest) out
      = if magic ≠ gatePersistMagic
          ∨ payloadLen.toNat > gatePersistMaxPayload
          ∨ rest.length < payloadLen.toNat then (.errWireMalformed, out)
        else if obicallCrc32 (rest.take payloadLen.toNat) ≠ crc then
          (.errWireChecksum, out)
        else obicallGateDecodeState (rest.take payloadLen.toNat) := by
  have hsplit : gateFile magic payloadLen crc reserved rest
      = (u32Bytes magic ++ (u32Bytes payloadLen ++ (u32Bytes crc ++
        u32Bytes reserved))) ++ rest := by
    simp only [gateFile, List.append_assoc]
  have hhdr : (gateFile magic payloadLen crc reserved rest).take
      gatePersistHeaderLen
        = u32Bytes magic ++ (u32Bytes payloadLen ++ (u32Bytes crc ++
          u32Bytes reserved)) := by
    rw [hsplit]
    exact List.take_left' (by simp [gatePersistHeaderLen])
  have hlong : ¬ (gateFile magic payloadLen crc reserved rest).length
      < gatePersistHeaderLen := by
    simp only [gateFile, List.length_append, length_u32Bytes,
      gatePersistHeaderLen]
    omega
  have hrest := gateFile_drop magic payloadLen crc reserved rest
  have hread : ReadsBack rcGatePersistHeader
      (u32Bytes magic ++ (u32Bytes payloadLen ++ (u32Bytes crc ++
        u32Bytes reserved))) (true, magic, payloadLen, crc) :=
    .bind (reads_rcU32 _) <| .bind (reads_rcU32 _) <|
    .bind (reads_rcU32 _) <| .last (reads_rcU32 _) <|
    .test reads_rcOk (Reads.pure _)
  rw [obicallGateLoadState, if_neg hlong]
  simp only [hhdr, hread.run, hrest, Bool.not_true, Bool.false_or,
    Bool.or_eq_true, decide_eq_true_eq, List.length_take]
  by_cases hmagic : magic ≠ gatePersistMagic
      ∨ payloadLen.toNat > gatePersistMaxPayload
  · rw [if_pos hmagic, if_pos (hmagic.imp_right .inl)]
  · obtain ⟨hsame, hmax⟩ := not_or.mp hmagic
    rw [if_neg hmagic]
    by_cases hroom : rest.length < payloadLen.toNat
    · rw [if_pos (by omega), if_pos (.inr (.inr hroom))]
    · have hgood : ¬ (magic ≠ gatePersistMagic
          ∨ payloadLen.toNat > gatePersistMaxPayload
          ∨ rest.length < payloadLen.toNat) :=
        not_or.mpr ⟨hsame, not_or.mpr ⟨hmax, hroom⟩⟩
      rw [if_neg hgood, if_neg (by omega)]

/-- When a file loads: magic, room, length and checksum are right, and
the payload decodes. -/
theorem obicallGateLoadState_ok {magic payloadLen crc reserved : UInt32}
    {rest : List UInt8} {out s : GateState}
    (h : obicallGateLoadState
      (gateFile magic payloadLen crc reserved rest) out = (.ok, s)) :
    payloadLen.toNat ≤ rest.length
      ∧ obicallCrc32 (rest.take payloadLen.toNat) = crc
      ∧ obicallGateDecodeState (rest.take payloadLen.toNat) = (.ok, s) := by
  rw [obicallGateLoadState_gateFile] at h
  split at h
  · cases h
  next hheader =>
    split at h
    · cases h
    next hcrc =>
      obtain ⟨-, -, hroom⟩ := not_or.mp hheader |>.imp_right not_or.mp
      exact ⟨Nat.le_of_not_lt hroom, not_not.mp hcrc, h⟩

-- =============================================================== damage

theorem gateFile_take_eight (magic payloadLen crc reserved : UInt32)
    (rest : List UInt8) :
    (gateFile magic payloadLen crc reserved rest).take 8
      = u32Bytes magic ++ u32Bytes payloadLen := by
  rw [gateFile, ← List.append_assoc]
  exact List.take_left' (by simp)

theorem gateFile_take_twelve (magic payloadLen crc reserved : UInt32)
    (rest : List UInt8) :
    (gateFile magic payloadLen crc reserved rest).take 12
      = (u32Bytes magic ++ u32Bytes payloadLen) ++ u32Bytes crc := by
  rw [gateFile, ← List.append_assoc, ← List.append_assoc]
  exact List.take_left' (by simp)

/-- Two words in front of equal strings. -/
theorem eq_of_append_u32Bytes {l l' : List UInt8} {v v' : UInt32}
    (h : l' ++ u32Bytes v' = l ++ u32Bytes v) : v' = v :=
  u32Bytes_injective (List.append_inj' h (by simp)).2

/-- A window that misses the length field leaves it alone. -/
theorem payloadLen_of_burst {magic magic' payloadLen payloadLen' crc crc'
    reserved reserved' : UInt32} {rest rest' : List UInt8} {lo hi : Nat}
    (h : Burst lo hi (gateFile magic payloadLen crc reserved rest)
      (gateFile magic' payloadLen' crc' reserved' rest')) (hlo : 8 ≤ lo) :
    payloadLen' = payloadLen := by
  have htake := h.take hlo
  rw [gateFile_take_eight, gateFile_take_eight] at htake
  exact eq_of_append_u32Bytes htake

/-- A window that misses the checksum field leaves it alone. -/
theorem crc_of_burst {magic magic' payloadLen payloadLen' crc crc'
    reserved reserved' : UInt32} {rest rest' : List UInt8} {lo hi : Nat}
    (h : Burst lo hi (gateFile magic payloadLen crc reserved rest)
      (gateFile magic' payloadLen' crc' reserved' rest')) (hlo : 12 ≤ lo) :
    crc' = crc := by
  have htake := h.take hlo
  rw [gateFile_take_twelve, gateFile_take_twelve] at htake
  exact eq_of_append_u32Bytes htake

/-- A file that a persist wrote, as words and payload. -/
theorem obicallGatePersistState_gateFile {s : GateState}
    (hs : s.pipelineCount.toNat ≤ maxPipelines) :
    obicallGatePersistState s = .ok (gateFile gatePersistMagic
      (UInt32.ofNat s.bytes.length) (obicallCrc32 s.bytes) 0 s.bytes) := by
  rw [obicallGatePersistState_eq, if_neg (by omega), gatePersistHeader,
    gateFile]
  simp only [List.append_assoc]

/-- The length field holds the payload's length. -/
theorem toNat_payloadLen (s : GateState) :
    (UInt32.ofNat s.bytes.length).toNat = s.bytes.length := by
  have := s.length_bytes_le
  rw [UInt32.toNat_ofNat']
  omega

/-- A truncated file does not load: the header is short, or it promises
more payload than there is. -/
theorem obicallGateLoadState_prefix {s : GateState} {pre suf : List UInt8}
    (h : pre ++ suf = gateFile gatePersistMagic
      (UInt32.ofNat s.bytes.length) (obicallCrc32 s.bytes) 0 s.bytes)
    (hsuf : suf ≠ []) (out : GateState) :
    (obicallGateLoadState pre out).1 ≠ .ok := by
  intro hok
  by_cases hshort : pre.length < gatePersistHeaderLen
  · rw [obicallGateLoadState, if_pos hshort] at hok
    cases hok
  obtain ⟨magic, payloadLen, crc, reserved, rest, rfl⟩ :=
    exists_gateFile (Nat.le_of_not_lt hshort)
  obtain ⟨hroom, -, -⟩ := obicallGateLoadState_ok
    (Prod.ext hok rfl : obicallGateLoadState _ out = (.ok, _))
  simp only [gateFile, List.append_assoc] at h
  obtain ⟨-, h⟩ := List.append_inj h (by simp)
  obtain ⟨hlen, h⟩ := List.append_inj h (by simp)
  obtain ⟨-, h⟩ := List.append_inj h (by simp)
  obtain ⟨-, h⟩ := List.append_inj h (by simp)
  rw [u32Bytes_injective hlen, toNat_payloadLen s, ← h,
    List.length_append] at hroom
  exact hsuf (List.length_eq_zero_iff.mp (by omega))

/-- A file altered inside four consecutive bytes that still loads loads
the persisted state. -/
theorem obicallGateLoadState_burst {s : GateState}
    (hs : s.pipelineCount.toNat ≤ maxPipelines) {file : List UInt8}
    {lo : Nat}
    (h : Burst lo (lo + 4) (gateFile gatePersistMagic
      (UInt32.ofNat s.bytes.length) (obicallCrc32 s.bytes) 0 s.bytes) file)
    {out s' : GateState} (hok : obicallGateLoadState file out = (.ok, s')) :
    s' = s.normalize := by
  have hlong : gatePersistHeaderLen ≤ file.length := by
    rw [h.length, gateFile]
    simp only [List.length_append, length_u32Bytes, gatePersistHeaderLen]
    omega
  obtain ⟨magic, payloadLen, crc, reserved, rest, rfl⟩ :=
    exists_gateFile hlong
  obtain ⟨hroom, hcrc, hdec⟩ := obicallGateLoadState_ok hok
  have hpayload : lo + 4 ≤ gatePersistHeaderLen → rest = s.bytes :=
    fun hlo => by
      have hdrop := h.drop hlo
      rwa [gateFile_drop, gateFile_drop] at hdrop
  have htail : Burst (lo - 16) (lo - 16 + 4) s.bytes rest := by
    have htl := h.tail gatePersistHeaderLen
    rw [gateFile_drop, gateFile_drop] at htl
    simp only [gatePersistHeaderLen] at htl
    exact ⟨htl.length, fun j hj => htl.same j (by omega)⟩
  simp only [gatePersistHeaderLen] at hpayload
  by_cases hlen : payloadLen.toNat = s.bytes.length
  · rw [hlen, ← htail.length, List.take_length] at hcrc hdec
    have hrest : rest = s.bytes := by
      by_contra hne
      have hfar : 12 ≤ lo := by
        by_contra hnear
        exact hne (hpayload (by omega))
      exact obicallCrc32_ne_of_burst htail hne (hcrc.trans (crc_of_burst h hfar))
    rw [hrest] at hdec
    have hread := gateStateLayout.reads s [] hs
    rw [List.append_nil, hdec] at hread
    exact congrArg Prod.snd hread
  · -- the length changed, so the payload did not, and is cut short
    have hnear : lo < 8 := by
      by_contra hfar
      exact hlen (by
        rw [payloadLen_of_burst h (by omega), toNat_payloadLen s])
    rw [hpayload (by omega)] at hroom hdec
    refine absurd (by rw [hdec] : (obicallGateDecodeState _).1 = .ok)
      (gateStateLayout.refuses_prefix hs (List.take_append_drop _ _) ?_)
    intro hnil
    rw [List.drop_eq_nil_iff] at hnil
    omega

/-- Slots past the count that are zero, as they are in every state the
gate builds, survive: only the `sizeof` is normalized. -/
theorem normalize_of_zeroed {s : GateState}
    (h : ∀ i (hi : i < maxPipelines), s.pipelineCount.toNat ≤ i →
      s.pipelines[i] = .zero) :
    s.normalize = { s with structSize := sizeofGateState } := by
  have hslots : keepFirst .zero s.pipelineCount s.pipelines
      = s.pipelines := by
    apply Vector.ext
    intro i hi
    rw [getElem_keepFirst]
    split
    · rfl
    next hge => exact (h i hi (Nat.le_of_not_lt hge)).symm
  rw [GateState.normalize, hslots]

/-- A persisted state loads back, a truncated file never loads, and a
file altered inside four consecutive bytes loads the persisted state or
nothing. -/
theorem state_file_damage (s : GateState)
    (hs : s.pipelineCount.toNat ≤ maxPipelines) :
    ∃ file, obicallGatePersistState s = .ok file
      ∧ (∀ out, obicallGateLoadState file out = (.ok, s.normalize))
      ∧ (∀ pre suf, pre ++ suf = file → suf ≠ [] →
          ∀ out, (obicallGateLoadState pre out).1 ≠ .ok)
      ∧ (∀ file' lo, Burst lo (lo + 4) file file' →
          ∀ out, (obicallGateLoadState file' out).1 ≠ .ok
            ∨ obicallGateLoadState file' out = (.ok, s.normalize))
      ∧ ((∀ i : Fin maxPipelines, s.pipelineCount.toNat ≤ i.val →
            s.pipelines[i] = .zero) →
          s.normalize = { s with structSize := sizeofGateState }) := by
  refine ⟨_, obicallGatePersistState_gateFile hs, fun out => ?_,
    fun pre suf hcut hsuf out => ?_, fun file' lo hburst out => ?_,
    fun h => normalize_of_zeroed fun i hi => h ⟨i, hi⟩⟩
  · exact obicallGateLoadState_persist
      (obicallGatePersistState_gateFile hs) out
  · exact obicallGateLoadState_prefix hcut hsuf out
  · by_cases hok : (obicallGateLoadState file' out).1 = .ok
    · have hload : obicallGateLoadState file' out
          = (.ok, (obicallGateLoadState file' out).2) := Prod.ext hok rfl
      have hstate := obicallGateLoadState_burst hs hburst hload
      rw [hstate] at hload
      exact .inr hload
    · exact .inl hok

/-- Two pipelines have committed, under broker B in epoch 3. -/
def twoCommitted : GateState where
  structSize := sizeofGateState
  schemaVersion := 1
  epoch := 3
  ownerBrokerId := brokerB
  pipelineCount := 2
  pipelines := (GateState.zero.pipelines.set 0
    { GatePipelineState.zero with
      pipelineId := strncpy31 [112]
      hasCommitted := 1
      lastCommittedWindowSeq := 41 }).set 1
    { GatePipelineState.zero with
      pipelineId := strncpy31 [113]
      hasCommitted := 1
      lastCommittedWindowSeq := 7 }

theorem twoCommitted_zeroed {i : Nat} (hi : i < maxPipelines)
    (h : 2 ≤ i) : twoCommitted.pipelines[i] = .zero := by
  unfold twoCommitted
  show (Vector.set (Vector.set _ _ _) _ _)[i] = _
  rw [Vector.getElem_set_ne _ _ (by omega),
    Vector.getElem_set_ne _ _ (by omega)]
  exact Vector.getElem_replicate hi

/-- Its file loads back as it is, no cut of it loads, and altered inside
four bytes it loads back or not at all. -/
theorem state_file_damage_committed :
    ∃ file, obicallGatePersistState twoCommitted = .ok file
      ∧ (∀ out, obicallGateLoadState file out = (.ok, twoCommitted))
      ∧ (∀ pre suf, pre ++ suf = file → suf ≠ [] →
          ∀ out, (obicallGateLoadState pre out).1 ≠ .ok)
      ∧ (∀ file' lo, Burst lo (lo + 4) file file' →
          ∀ out, (obicallGateLoadState file' out).1 ≠ .ok
            ∨ obicallGateLoadState file' out = (.ok, twoCommitted)) := by
  obtain ⟨file, hfile, hload, hcut, hburst, hsame⟩ :=
    state_file_damage twoCommitted (by decide)
  have hnormal : twoCommitted.normalize = twoCommitted :=
    hsame fun i h => twoCommitted_zeroed i.isLt h
  rw [hnormal] at hload hburst
  exact ⟨file, hfile, hload, hcut, hburst⟩

/-- No slot in use, and something left behind in the first one. -/
def leftover : GateState :=
  { GateState.zero with
    pipelines := GateState.zero.pipelines.set 0
      { GatePipelineState.zero with hasCommitted := 1 } }

/-- A slot past the count is not written: it comes back zeroed. -/
theorem leftover_not_loaded :
    ∃ file, obicallGatePersistState leftover = .ok file
      ∧ ∀ out, obicallGateLoadState file out
        ≠ (.ok, { leftover with structSize := sizeofGateState }) := by
  have hfile := obicallGatePersistState_gateFile (s := leftover) (by decide)
  refine ⟨_, hfile, fun out hload => ?_⟩
  have hsame : leftover.normalize
      = { leftover with structSize := sizeofGateState } :=
    congrArg Prod.snd
      ((obicallGateLoadState_persist hfile out).symm.trans hload)
  exact absurd hsame (by decide)

end Obicall
