/-
The digests against their standards.

SHA-256: `sha256_compress` is the compression function of `Lib.Sha256`
(`wordsOf_sha256Compress`), and a context that has read a message holds
the hash value of its whole blocks with the bytes behind them buffered
(`HasRead`). Each turn of the update loop keeps that (`HasRead.absorb`),
so it does not matter how a message was cut into chunks; the padding loop
runs until byte 56, at most 63 turns (`padZeros_eq`), and the last block
closes the standard's padded message (`HasRead.final`).

CRC-32: the table form is the shift register, and the register fed byte
by byte is the register fed bit by bit.
-/
import Obicall.Core.Digest
import Obicall.Lib.Sha256

namespace Obicall

open Lib

-- =============================================== the compression function

theorem toBitVec_rotr32 (x n : UInt32) (hpos : 0 < n.toNat)
    (hlt : n.toNat < 32) :
    (rotr32 x n).toBitVec = x.toBitVec.rotateRight n.toNat := by
  have hle : n ≤ 32 := by
    rw [UInt32.le_iff_toNat_le]
    exact Nat.le_of_lt hlt
  have hn : (n.toBitVec % 32).toNat = n.toNat := by
    rw [BitVec.toNat_umod]
    exact Nat.mod_eq_of_lt hlt
  have hback : ((32 - n).toBitVec % 32).toNat = 32 - n.toNat := by
    rw [BitVec.toNat_umod]
    show (32 - n).toNat % 32 = _
    rw [UInt32.toNat_sub_of_le _ _ hle]
    exact Nat.mod_eq_of_lt (by show 32 - n.toNat < 32; omega)
  rw [rotr32, UInt32.toBitVec_or, UInt32.toBitVec_shiftRight,
    UInt32.toBitVec_shiftLeft, BitVec.rotateRight_def,
    Nat.mod_eq_of_lt hlt, BitVec.ushiftRight_eq', BitVec.shiftLeft_eq', hn,
    hback]

theorem toBitVec_kSha256K (i : Fin 64) :
    (kSha256K.get i).toBitVec = Sha256.k i.val := by
  rw [Sha256.k, Sha256.primes_eq]
  decide +revert +kernel

/-- The hash value a state holds. -/
def wordsOf (s : Vector UInt32 8) : Sha256.Words where
  a := (s.get 0).toBitVec
  b := (s.get 1).toBitVec
  c := (s.get 2).toBitVec
  d := (s.get 3).toBitVec
  e := (s.get 4).toBitVec
  f := (s.get 5).toBitVec
  g := (s.get 6).toBitVec
  h := (s.get 7).toBitVec

theorem wordsOf_init : wordsOf obicallSha256Init.state = Sha256.initial := by
  ext : 1 <;> decide +kernel

def Sha256Round.words (r : Sha256Round) : Sha256.Words where
  a := r.a.toBitVec
  b := r.b.toBitVec
  c := r.c.toBitVec
  d := r.d.toBitVec
  e := r.e.toBitVec
  f := r.f.toBitVec
  g := r.g.toBitVec
  h := r.h.toBitVec

theorem words_sha256Round {w : Vector UInt32 64} {m : Nat → Sha256.Word}
    (hw : ∀ i : Fin 64, (w.get i).toBitVec = Sha256.schedule m i.val)
    (r : Sha256Round) (i : Fin 64) :
    (sha256Round w r i).words
      = r.words.round (Sha256.k i.val) (Sha256.schedule m i.val) := by
  rw [← toBitVec_kSha256K, ← hw]
  ext : 1 <;>
    simp (disch := decide) only [sha256Round, Sha256Round.words,
      Sha256.Words.round, UInt32.toBitVec_add, UInt32.toBitVec_xor,
      UInt32.toBitVec_and, UInt32.toBitVec_not, toBitVec_rotr32,
      Sha256.bigSigma0, Sha256.bigSigma1, Sha256.ch, Sha256.maj] <;> rfl


/-- Four bytes read as one big-endian word. -/
theorem toBitVec_bigEndian (a b c d : UInt8) :
    ((a.toUInt32 <<< 24) ||| (b.toUInt32 <<< 16) ||| (c.toUInt32 <<< 8)
        ||| d.toUInt32).toBitVec
      = a.toBitVec ++ b.toBitVec ++ c.toBitVec ++ d.toBitVec := by
  have h24 : (UInt32.toBitVec 24 % 32).toNat = 24 := by decide
  have h16 : (UInt32.toBitVec 16 % 32).toNat = 16 := by decide
  have h8 : (UInt32.toBitVec 8 % 32).toNat = 8 := by decide
  apply BitVec.eq_of_getLsbD_eq
  intro i hi
  simp only [UInt32.toBitVec_or, UInt32.toBitVec_shiftLeft,
    UInt8.toBitVec_toUInt32, BitVec.getLsbD_or, BitVec.getLsbD_append,
    BitVec.shiftLeft_eq', h24, h16, h8, BitVec.getLsbD_shiftLeft,
    BitVec.getLsbD_setWidth]
  have hpast : ∀ (x : UInt8) (j : Nat), 8 ≤ j → x.toBitVec.getLsbD j = false :=
    fun x j hj => BitVec.getLsbD_of_ge _ _ hj
  -- which of the four bytes the bit lies in
  rcases Nat.lt_or_ge i 8 with h | h
  · simp [hi, h, show i < 16 by omega, show i < 24 by omega]
  · rcases Nat.lt_or_ge i 16 with h' | h'
    · simp [hi, h', show ¬ i < 8 by omega, show i - 8 < 8 by omega,
        show i < 24 by omega, hpast d i h, show i - 8 < 32 by omega]
    · rcases Nat.lt_or_ge i 24 with h'' | h''
      · simp [hi, h'', show ¬ i < 8 by omega, show ¬ i - 8 < 8 by omega,
          show ¬ i < 16 by omega, hpast d i h, hpast c (i - 8) (by omega),
          show i - 16 < 32 by omega, Nat.sub_sub, show ¬ 8 ≤ i - 16 by omega]
      · simp [hi, show ¬ i < 8 by omega, show ¬ i - 8 < 8 by omega,
          show ¬ i < 16 by omega, show ¬ i < 24 by omega, hpast d i h,
          hpast c (i - 8) (by omega), show i - 24 < 32 by omega, Nat.sub_sub,
          show 8 ≤ i - 16 by omega]

theorem toBitVec_smallSigma0 (x : UInt32) :
    (rotr32 x 7 ^^^ rotr32 x 18 ^^^ (x >>> 3)).toBitVec
      = Sha256.smallSigma0 x.toBitVec := by
  simp (disch := decide) only [UInt32.toBitVec_xor, toBitVec_rotr32,
    UInt32.toBitVec_shiftRight]
  rfl

theorem toBitVec_smallSigma1 (x : UInt32) :
    (rotr32 x 17 ^^^ rotr32 x 19 ^^^ (x >>> 10)).toBitVec
      = Sha256.smallSigma1 x.toBitVec := by
  simp (disch := decide) only [UInt32.toBitVec_xor, toBitVec_rotr32,
    UInt32.toBitVec_shiftRight]
  rfl

/-- One turn of the schedule's second loop. -/
def sha256ScheduleStep (w : Vector UInt32 64) (i : Nat) : Vector UInt32 64 :=
  let w15 := w.getD (i - 15) 0
  let w2 := w.getD (i - 2) 0
  let s0 := rotr32 w15 7 ^^^ rotr32 w15 18 ^^^ (w15 >>> 3)
  let s1 := rotr32 w2 17 ^^^ rotr32 w2 19 ^^^ (w2 >>> 10)
  w.setIfInBounds i (w.getD (i - 16) 0 + s0 + w.getD (i - 7) 0 + s1)

/-- The array up to `n` holds the schedule. -/
def Scheduled (m : Nat → Sha256.Word) (w : Vector UInt32 64) (n : Nat) : Prop :=
  ∀ t < n, (w.getD t 0).toBitVec = Sha256.schedule m t

theorem Scheduled.step {m : Nat → Sha256.Word} {w : Vector UInt32 64} {i : Nat}
    (h : Scheduled m w i) (h16 : 16 ≤ i) (h64 : i < 64) :
    Scheduled m (sha256ScheduleStep w i) (i + 1) := by
  intro t ht
  by_cases hti : t = i
  · subst hti
    have hval : (sha256ScheduleStep w t).getD t 0
        = w.getD (t - 16) 0
          + (rotr32 (w.getD (t - 15) 0) 7 ^^^ rotr32 (w.getD (t - 15) 0) 18
            ^^^ (w.getD (t - 15) 0 >>> 3))
          + w.getD (t - 7) 0
          + (rotr32 (w.getD (t - 2) 0) 17 ^^^ rotr32 (w.getD (t - 2) 0) 19
            ^^^ (w.getD (t - 2) 0 >>> 10)) := by
      simp [sha256ScheduleStep, Vector.getD, h64]
    rw [hval, Sha256.schedule, if_neg (by omega), ← h (t - 2) (by omega),
      ← h (t - 7) (by omega), ← h (t - 15) (by omega), ← h (t - 16) (by omega)]
    simp only [UInt32.toBitVec_add, toBitVec_smallSigma0,
      toBitVec_smallSigma1]
    ac_rfl
  · have hkeep : (sha256ScheduleStep w i).getD t 0 = w.getD t 0 := by
      simp [sha256ScheduleStep, Vector.getD, Ne.symm hti]
    rw [hkeep]
    exact h t (by omega)

/-- The first sixteen entries are the block's words. -/
theorem scheduled_block (block : Vector UInt8 64) {w : Vector UInt32 64}
    (hw : ∀ t < 16, w.getD t 0
      = ((block.getD (t * 4) 0).toUInt32 <<< 24)
        ||| ((block.getD (t * 4 + 1) 0).toUInt32 <<< 16)
        ||| ((block.getD (t * 4 + 2) 0).toUInt32 <<< 8)
        ||| (block.getD (t * 4 + 3) 0).toUInt32) :
    Scheduled (Sha256.wordAt block.toList) w 16 := by
  have hbyte : ∀ i, block.toList.getD i 0 = block.getD i 0 := by
    intro i
    rw [List.getD_eq_getElem?_getD, Vector.getElem?_toList, Vector.getD,
      Array.getD_eq_getD_getElem?, Vector.getElem?_toArray]
  intro t ht
  rw [hw t ht, toBitVec_bigEndian, Sha256.schedule, if_pos ht, Sha256.wordAt,
    hbyte, hbyte, hbyte, hbyte, Nat.mul_comm t 4]

theorem toBitVec_sha256Schedule (block : Vector UInt8 64) :
    Scheduled (Sha256.wordAt block.toList) (sha256Schedule block) 64 := by
  have hrun : ∀ (w : Vector UInt32 64) n, n ≤ 48 →
      Scheduled (Sha256.wordAt block.toList) w 16 →
      Scheduled (Sha256.wordAt block.toList)
        ((List.range' 16 n).foldl sha256ScheduleStep w) (16 + n) := by
    intro w n hn h
    induction n with
    | zero => exact h
    | succ n ih =>
        rw [List.range'_concat, List.foldl_append, Nat.one_mul]
        exact (ih (by omega)).step (by omega) (by omega)
  unfold sha256Schedule
  dsimp only
  refine hrun _ 48 (Nat.le_refl 48) (scheduled_block block ?_)
  intro t ht
  simp [Vector.getD, ht, show t < 64 by omega]

/-- The compression function is the standard's. -/
theorem wordsOf_sha256Compress (state : Vector UInt32 8)
    (block : Vector UInt8 64) :
    wordsOf (sha256Compress state block)
      = Sha256.compress (wordsOf state) (Sha256.wordAt block.toList) := by
  have hw : ∀ i : Fin 64, ((sha256Schedule block).get i).toBitVec
      = Sha256.schedule (Sha256.wordAt block.toList) i.val := by
    intro i
    rw [← toBitVec_sha256Schedule block i.val i.isLt]
    simp [Vector.getD]
    rfl
  have hrun : ∀ (l : List (Fin 64)) (r : Sha256Round),
      (l.foldl (sha256Round (sha256Schedule block)) r).words
        = (l.map Fin.val).foldl (fun v t => v.round (Sha256.k t)
            (Sha256.schedule (Sha256.wordAt block.toList) t)) r.words := by
    intro l
    induction l with
    | nil => exact fun _ => rfl
    | cons i l ih =>
        intro r
        rw [List.foldl_cons, ih, words_sha256Round hw]
        rfl
  rw [Sha256.compress, ← List.map_coe_finRange_eq_range]
  have h := hrun (List.finRange 64)
    { a := state[0], b := state[1], c := state[2], d := state[3]
      e := state[4], f := state[5], g := state[6], h := state[7] }
  have hstart : wordsOf state = Sha256Round.words
    { a := state[0], b := state[1], c := state[2], d := state[3]
      e := state[4], f := state[5], g := state[6], h := state[7] } := rfl
  rw [hstart, ← h]
  rfl

-- ============================================================ the context

/-- What a context holds after `msg`: the hash value of its whole blocks,
and the bytes behind them in the buffer. -/
structure Holds (ctx : Sha256Ctx) (full rest : List UInt8) : Prop where
  blocks : 64 ∣ full.length
  state : wordsOf ctx.state = Sha256.process Sha256.initial full
  fill : ctx.bufferLen.val = rest.length
  buffered : ctx.buffer.toList.take rest.length = rest

/-- The context has read `msg`. -/
def HasRead (ctx : Sha256Ctx) (msg : List UInt8) : Prop :=
  ∃ full rest, msg = full ++ rest ∧ Holds ctx full rest

/-- The buffer with `chunk` copied in behind the buffered bytes. -/
def Sha256Ctx.copied (ctx : Sha256Ctx) (chunk : List UInt8) : Vector UInt8 64 :=
  Vector.ofFn fun i : Fin 64 =>
    if ctx.bufferLen.val ≤ i.val then
      (chunk[i.val - ctx.bufferLen.val]?).getD (ctx.buffer.get i)
    else ctx.buffer.get i

theorem absorb_of_lt (ctx : Sha256Ctx) (chunk : List UInt8)
    (h : ctx.bufferLen.val + chunk.length < 64) :
    ctx.absorb chunk
      = { ctx with
          buffer := ctx.copied chunk
          bufferLen := ⟨ctx.bufferLen.val + chunk.length, h⟩ } :=
  dif_pos h

theorem absorb_of_le (ctx : Sha256Ctx) (chunk : List UInt8)
    (h : 64 ≤ ctx.bufferLen.val + chunk.length) :
    ctx.absorb chunk
      = { ctx with
          state := sha256Compress ctx.state (ctx.copied chunk)
          buffer := ctx.copied chunk
          bufferLen := 0 } :=
  dif_neg (Nat.not_lt.mpr h)

theorem Holds.take_copied {ctx : Sha256Ctx} {full rest : List UInt8}
    (h : Holds ctx full rest) (chunk : List UInt8)
    (hroom : rest.length + chunk.length ≤ 64) :
    (ctx.copied chunk).toList.take (rest.length + chunk.length)
      = rest ++ chunk := by
  rw [Sha256Ctx.copied, h.fill]
  apply List.ext_getElem?
  intro i
  rw [List.getElem?_take]
  split
  case isTrue hi =>
    have h64 : i < 64 := by omega
    rw [Vector.getElem?_toList, Vector.getElem?_ofFn, dif_pos h64]
    dsimp only
    by_cases hlow : rest.length ≤ i
    · rw [if_pos hlow, List.getElem?_append_right hlow,
        List.getElem?_eq_getElem (by omega)]
      rfl
    · rw [if_neg hlow, List.getElem?_append_left (by omega)]
      conv_rhs => rw [← h.buffered]
      rw [List.getElem?_take, if_pos (by omega), Vector.getElem?_toList,
        Vector.getElem?_eq_getElem h64]
      rfl
  case isFalse hi =>
    rw [List.getElem?_eq_none (by rw [List.length_append]; omega)]

theorem hasRead_init : HasRead obicallSha256Init [] :=
  ⟨[], [], rfl, ⟨0, rfl⟩,
    wordsOf_init.trans (Sha256.process_short _ (by decide)).symm, rfl, rfl⟩

theorem HasRead.fill {ctx : Sha256Ctx} {msg : List UInt8}
    (h : HasRead ctx msg) : ctx.bufferLen.val = msg.length % 64 := by
  obtain ⟨full, rest, rfl, h⟩ := h
  have hlt := ctx.bufferLen.isLt
  have hfill := h.fill
  have hblocks := h.blocks
  rw [List.length_append]
  omega

/-- One turn of the update loop. -/
theorem HasRead.absorb {ctx : Sha256Ctx} {msg : List UInt8}
    (h : HasRead ctx msg) (chunk : List UInt8)
    (hroom : ctx.bufferLen.val + chunk.length ≤ 64) :
    HasRead (ctx.absorb chunk) (msg ++ chunk) := by
  obtain ⟨full, rest, rfl, h⟩ := h
  have hcopy := h.take_copied chunk (h.fill ▸ hroom)
  rcases Nat.lt_or_ge (ctx.bufferLen.val + chunk.length) 64 with hlen | hlen
  · rw [absorb_of_lt ctx chunk hlen]
    exact ⟨full, rest ++ chunk, List.append_assoc full rest chunk, h.blocks,
      h.state, by rw [List.length_append, ← h.fill],
      by rw [List.length_append]; exact hcopy⟩
  · have hfull : (rest ++ chunk).length = 64 := by
      rw [List.length_append, ← h.fill]
      omega
    rw [List.take_of_length_le
      (by rw [Vector.length_toList, ← List.length_append, hfull])] at hcopy
    rw [absorb_of_le ctx chunk hlen]
    refine ⟨full ++ (rest ++ chunk), [], by simp, ?_, ?_, rfl, rfl⟩
    · rw [List.length_append, hfull]
      exact Nat.dvd_add h.blocks (Nat.dvd_refl 64)
    · rw [wordsOf_sha256Compress, h.state, hcopy,
        Sha256.process_append _ h.blocks, Sha256.process_block _ hfull]

/-- The update loop reads all its data. -/
theorem HasRead.absorbAll {ctx : Sha256Ctx} {msg : List UInt8}
    (h : HasRead ctx msg) (data : List UInt8) :
    HasRead (ctx.absorbAll data) (msg ++ data) := by
  rw [Sha256Ctx.absorbAll]
  split
  case isTrue hdata =>
    dsimp only
    have hlt := ctx.bufferLen.isLt
    have hstep := h.absorb
      (data.take (min (64 - ctx.bufferLen.val) data.length))
      (by rw [List.length_take]; omega)
    have hrest := hstep.absorbAll
      (data.drop (min (64 - ctx.bufferLen.val) data.length))
    rwa [List.append_assoc, List.take_append_drop] at hrest
  case isFalse hdata =>
    have hnil : data = [] := List.eq_nil_of_length_eq_zero (by omega)
    rwa [hnil, List.append_nil]
  termination_by data.length
  decreasing_by
    rw [List.length_drop]
    omega

theorem HasRead.update {ctx : Sha256Ctx} {msg : List UInt8}
    (h : HasRead ctx msg) (data : List UInt8) :
    HasRead (obicallSha256Update ctx data) (msg ++ data) := by
  obtain ⟨full, rest, hmsg, h⟩ := h
  have hcount : HasRead { ctx with
      totalLen := ctx.totalLen + UInt64.ofNat data.length } msg :=
    ⟨full, rest, hmsg, h.blocks, h.state, h.fill, h.buffered⟩
  exact hcount.absorbAll data

theorem totalLen_absorb (ctx : Sha256Ctx) (chunk : List UInt8) :
    (ctx.absorb chunk).totalLen = ctx.totalLen := by
  rcases Nat.lt_or_ge (ctx.bufferLen.val + chunk.length) 64 with h | h
  · rw [absorb_of_lt ctx chunk h]
  · rw [absorb_of_le ctx chunk h]

theorem totalLen_absorbAll (ctx : Sha256Ctx) (data : List UInt8) :
    (ctx.absorbAll data).totalLen = ctx.totalLen := by
  rw [Sha256Ctx.absorbAll]
  split
  case isTrue hdata =>
    dsimp only
    rw [totalLen_absorbAll, totalLen_absorb]
  case isFalse => rfl
  termination_by data.length
  decreasing_by
    have hlt := ctx.bufferLen.isLt
    rw [List.length_drop]
    omega

theorem totalLen_update (ctx : Sha256Ctx) (data : List UInt8) :
    (obicallSha256Update ctx data).totalLen
      = ctx.totalLen + UInt64.ofNat data.length :=
  totalLen_absorbAll _ data

/-- All chunks, one after the other. -/
theorem hasRead_chunks (chunks : List (List UInt8)) :
    ∀ (ctx : Sha256Ctx) (msg : List UInt8), HasRead ctx msg →
      ctx.totalLen = UInt64.ofNat msg.length →
      HasRead (chunks.foldl obicallSha256Update ctx) (msg ++ chunks.flatten)
        ∧ (chunks.foldl obicallSha256Update ctx).totalLen
          = UInt64.ofNat (msg ++ chunks.flatten).length := by
  induction chunks with
  | nil =>
      intro ctx msg h hlen
      rw [List.flatten_nil, List.append_nil]
      exact ⟨h, hlen⟩
  | cons chunk chunks ih =>
      intro ctx msg h hlen
      have hnext := ih _ _ (h.update chunk) (by
        rw [totalLen_update, hlen, List.length_append, UInt64.ofNat_add])
      rwa [List.append_assoc, ← List.flatten_cons] at hnext

-- ============================================================== the end

/-- One turn of the padding loop. -/
def Sha256Ctx.zero (ctx : Sha256Ctx) : Sha256Ctx := obicallSha256Update ctx [0]

theorem bufferLen_zeros (ctx : Sha256Ctx) (n : Nat) :
    (Sha256Ctx.zero^[n] ctx).bufferLen.val = (ctx.bufferLen.val + n) % 64 := by
  induction n with
  | zero => exact (Nat.mod_eq_of_lt ctx.bufferLen.isLt).symm
  | succ n ih =>
      rw [Function.iterate_succ_apply', Sha256Ctx.zero, bufferLen_update_byte,
        ih]
      omega

/-- The padding loop runs for as many turns as byte 56 is away. -/
theorem padZeros_eq (ctx : Sha256Ctx) :
    ctx.padZeros = Sha256Ctx.zero^[(120 - ctx.bufferLen.val) % 64] ctx := by
  have hlt := ctx.bufferLen.isLt
  rw [Sha256Ctx.padZeros]
  split
  case isTrue h =>
    have hnext : (120 - ctx.bufferLen.val) % 64
        = (120 - ctx.zero.bufferLen.val) % 64 + 1 := by
      rw [Sha256Ctx.zero, bufferLen_update_byte]
      omega
    rw [padZeros_eq (obicallSha256Update ctx [0]), hnext,
      Function.iterate_succ_apply]
    rfl
  case isFalse h =>
    have h56 : ctx.bufferLen.val = 56 := not_not.mp h
    rw [h56]
    rfl
  termination_by (120 - ctx.bufferLen.val) % 64
  decreasing_by
    rw [bufferLen_update_byte]
    omega

theorem HasRead.zeros {ctx : Sha256Ctx} {msg : List UInt8}
    (h : HasRead ctx msg) (n : Nat) :
    HasRead (Sha256Ctx.zero^[n] ctx) (msg ++ List.replicate n 0) := by
  induction n with
  | zero => rwa [List.replicate_zero, List.append_nil]
  | succ n ih =>
      rw [Function.iterate_succ_apply', List.replicate_succ', ← List.append_assoc]
      exact ih.update [0]

theorem toUInt8_shift32 (x : UInt32) {n : Nat} (h : n < 32) :
    (x >>> UInt32.ofNat n).toUInt8 = UInt8.ofNat (x.toNat >>> n) := by
  have hn : (UInt32.ofNat n).toNat % 32 = n := by
    rw [UInt32.toNat_ofNat']
    omega
  apply UInt8.toNat_inj.mp
  rw [UInt32.toNat_toUInt8, UInt32.toNat_shiftRight, hn, UInt8.toNat_ofNat']

theorem toUInt8_shift64 (x : UInt64) {n : Nat} (h : n < 64) :
    (x >>> UInt64.ofNat n).toUInt8 = UInt8.ofNat (x.toNat >>> n) := by
  have hn : (UInt64.ofNat n).toNat % 64 = n := by
    rw [UInt64.toNat_ofNat']
    omega
  apply UInt8.toNat_inj.mp
  rw [UInt64.toNat_toUInt8, UInt64.toNat_shiftRight, hn, UInt8.toNat_ofNat']

/-- The bytes of the digest are those of the hash value. -/
theorem bytes_wordsOf (state : Vector UInt32 8) :
    (Vector.ofFn fun i : Fin 32 =>
        (state.getD (i.val / 4) 0 >>> UInt32.ofNat
          (24 - 8 * (i.val % 4))).toUInt8).toList
      = (wordsOf state).bytes := by
  have hget : ∀ j : Fin 8, state.getD j.val 0 = state.get j := by
    intro j
    simp [Vector.getD]
    rfl
  have hall : (fun i : Fin 32 =>
      (state.getD (i.val / 4) 0 >>> UInt32.ofNat (24 - 8 * (i.val % 4))).toUInt8)
      = fun i => UInt8.ofNat
        ((state.get ⟨i.val / 4, by omega⟩).toNat >>> (24 - 8 * (i.val % 4))) := by
    funext i
    rw [toUInt8_shift32 _ (by omega), hget ⟨i.val / 4, by omega⟩]
  rw [Vector.toList_ofFn, hall]
  rfl

/-- The last block: the length behind the padding. -/
theorem final_block {ctx : Sha256Ctx} {full rest : List UInt8}
    (h : Holds ctx full rest) (h56 : ctx.bufferLen.val = 56) (x : UInt64) :
    (Vector.ofFn fun i : Fin 64 =>
        if ctx.bufferLen.val ≤ i.val ∧ i.val < ctx.bufferLen.val + 8 then
          (x >>> UInt64.ofNat (56 - 8 * (i.val - ctx.bufferLen.val))).toUInt8
        else ctx.buffer.get i).toList
      = rest ++ Sha256.bigEndian 8 x.toNat := by
  have hcopy := h.take_copied (Sha256.bigEndian 8 x.toNat) (by
    rw [Sha256.length_bigEndian, ← h.fill, h56])
  rw [List.take_of_length_le (by
    rw [Vector.length_toList, Sha256.length_bigEndian, ← h.fill, h56])] at hcopy
  rw [← hcopy, Sha256Ctx.copied]
  refine congrArg (fun f => (Vector.ofFn f).toList) (funext fun i => ?_)
  have hlast := i.isLt
  by_cases hlow : ctx.bufferLen.val ≤ i.val
  · have hj : i.val - ctx.bufferLen.val < 8 := by omega
    have hshift : 56 - 8 * (i.val - ctx.bufferLen.val)
        = 8 * (8 - 1 - (i.val - ctx.bufferLen.val)) := by omega
    rw [if_pos ⟨hlow, by omega⟩, if_pos hlow, Sha256.bigEndian,
      List.getElem?_ofFn, dif_pos hj, Option.getD_some,
      toUInt8_shift64 _ (by omega), hshift]
  · rw [if_neg (fun hc => hlow hc.1), if_neg hlow]

/-- Finishing a context gives the standard's digest of what it has read. -/
theorem HasRead.final {ctx : Sha256Ctx} {msg : List UInt8}
    (h : HasRead ctx msg) (hlen : ctx.totalLen = UInt64.ofNat msg.length)
    (hmsg : msg.length < 2 ^ 61) :
    (obicallSha256Final ctx).toList = Sha256.hash msg := by
  have hone := h.update [0x80]
  have hzeros := hone.zeros
    ((120 - (obicallSha256Update ctx [0x80]).bufferLen.val) % 64)
  rw [← padZeros_eq] at hzeros
  have hcount : (120 - (obicallSha256Update ctx [0x80]).bufferLen.val) % 64
      = Sha256.zeros msg.length := by
    rw [hone.fill, List.length_append, Sha256.zeros]
    simp only [List.length_singleton]
    omega
  rw [hcount] at hzeros
  have h56 : (obicallSha256Update ctx [0x80]).padZeros.bufferLen.val = 56 := by
    have hlt := (obicallSha256Update ctx [0x80]).bufferLen.isLt
    rw [padZeros_eq, bufferLen_zeros]
    omega
  obtain ⟨full, rest, hsplit, hholds⟩ := hzeros
  have hbits : (ctx.totalLen * 8).toNat = 8 * msg.length := by
    rw [hlen, UInt64.toNat_mul, UInt64.toNat_ofNat']
    show msg.length % 2 ^ 64 * 8 % 2 ^ 64 = _
    omega
  have hblock := final_block hholds h56 (ctx.totalLen * 8)
  rw [hbits] at hblock
  have hfull : (rest ++ Sha256.bigEndian 8 (8 * msg.length)).length = 64 := by
    rw [List.length_append, Sha256.length_bigEndian, ← hholds.fill, h56]
  rw [Sha256.hash, Sha256.pad, hsplit, List.append_assoc,
    Sha256.process_append _ hholds.blocks, Sha256.process_block _ hfull,
    ← hholds.state, ← hblock, ← wordsOf_sha256Compress, ← bytes_wordsOf]
  rfl

/-- However a message shorter than 2^61 bytes is cut into chunks, the
context's digest is the SHA-256 of the whole message, the one the
one-call form gives; and the padding loop ends within 64 turns. -/
theorem obicallSha256_chunks (chunks : List (List UInt8))
    (h : chunks.flatten.length < 2 ^ 61) :
    (obicallSha256Final
        (chunks.foldl obicallSha256Update obicallSha256Init)).toList
        = Sha256.hash chunks.flatten
      ∧ obicallSha256Final (chunks.foldl obicallSha256Update obicallSha256Init)
        = obicallSha256 chunks.flatten
      ∧ let padded := obicallSha256Update
          (chunks.foldl obicallSha256Update obicallSha256Init) [0x80]
        ∃ n < 64, padded.padZeros = Sha256Ctx.zero^[n] padded
          ∧ (Sha256Ctx.zero^[n] padded).bufferLen.val = 56
          ∧ ∀ j < n, (Sha256Ctx.zero^[j] padded).bufferLen.val ≠ 56 := by
  have hchunks := hasRead_chunks chunks _ [] hasRead_init rfl
  have hwhole := hasRead_chunks [chunks.flatten] _ [] hasRead_init rfl
  rw [List.nil_append] at hchunks hwhole
  rw [List.flatten_singleton] at hwhole
  have hdigest := hchunks.1.final hchunks.2 h
  have honce := hwhole.1.final hwhole.2 h
  refine ⟨hdigest, Vector.toList_inj.mp (hdigest.trans honce.symm), ?_⟩
  intro padded
  refine ⟨(120 - padded.bufferLen.val) % 64, Nat.mod_lt _ (by decide),
    padZeros_eq padded, ?_, fun j hj => ?_⟩
  · have hlt := padded.bufferLen.isLt
    rw [bufferLen_zeros]
    omega
  · have hlt := padded.bufferLen.isLt
    rw [bufferLen_zeros]
    omega

/-- The message "abc" in three chunks, one of them empty. -/
theorem obicallSha256_chunks_abc :
    (obicallSha256Final (List.foldl obicallSha256Update obicallSha256Init
        [[0x61], [], [0x62, 0x63]])).toList
      = Sha256.hash [0x61, 0x62, 0x63] :=
  (obicallSha256_chunks [[0x61], [], [0x62, 0x63]] (by decide)).1

-- ================================================================ CRC-32

/-- CRC-32 is the bit-serial CRC-32/ISO-HDLC of every byte string, and two
strings of one length that differ only within four consecutive bytes have
different ones. -/
theorem obicallCrc32_standard :
    (∀ a b : List UInt8, a.length = b.length → a ≠ b →
      (∃ lo, ∀ j, a[j]? ≠ b[j]? → lo ≤ j ∧ j < lo + 4) →
      obicallCrc32 a ≠ obicallCrc32 b)
      ∧ ∀ data, (obicallCrc32 data).toBitVec = Crc.isoHdlc data := by
  refine ⟨fun a b hlen hne ⟨lo, hwindow⟩ => ?_, fun data => ?_⟩
  · have hburst : Crc.Burst lo (lo + 4) b a := ⟨hlen, fun j hj => by
      by_contra hdiff
      have hin := hwindow j hdiff
      omega⟩
    exact obicallCrc32_ne_of_burst hburst hne
  · rw [toBitVec_obicallCrc32, Crc.isoHdlc,
      Crc.feedBits_bits (by decide : 8 ≤ 32)]
    rfl

/-- One byte of two damaged. -/
theorem obicallCrc32_standard_pair :
    obicallCrc32 [0x31, 0x32] ≠ obicallCrc32 [0x31, 0x33] :=
  obicallCrc32_standard.1 [0x31, 0x32] [0x31, 0x33] rfl (by decide)
    ⟨0, fun j hj => by
      match j with
      | 0 => omega
      | 1 => omega
      | _ + 2 => exact absurd rfl hj⟩

end Obicall
