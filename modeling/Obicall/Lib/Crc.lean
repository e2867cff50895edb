/-
Reflected cyclic redundancy checks, for any register width and any
polynomial: the register is shifted right one bit at a time, and a byte
is fed by adding it to the low end and shifting eight times.

# What is used of a check

- `shift_xor`: a shift is linear, so feeding up to a register's width of
  bytes is one xor of the word they make and that many shifts
  (`feed_word`).
- `shift_injective`: a polynomial whose top bit is set loses nothing in
  a shift.
- `feedByte_table`: the byte-at-a-time form with a table lookup.
- `feedBits_bits`: the register fed one bit at a time, lowest bit of each
  byte first, is the register fed byte by byte.
- `feed_ne_of_burst`: two strings of one length that differ, and only
  inside a window no wider than the register (`Burst`), leave different
  registers.
-/
import Mathlib.Data.List.Basic
import Mathlib.Logic.Function.Iterate

namespace Lib.Crc

variable {w : Nat}

-- =============================================================== shifting

/-- One shift of the register. -/
def shift (poly c : BitVec w) : BitVec w :=
  if c.getLsbD 0 then poly ^^^ (c >>> 1) else c >>> 1

/-- Feeding one byte. -/
def feedByte (poly c : BitVec w) (b : UInt8) : BitVec w :=
  (shift poly)^[8] (c ^^^ b.toBitVec.setWidth w)

/-- Feeding a byte string. -/
def feed (poly c : BitVec w) (bs : List UInt8) : BitVec w :=
  bs.foldl (feedByte poly) c

variable {poly : BitVec w}

theorem shift_xor (a b : BitVec w) :
    shift poly (a ^^^ b) = shift poly a ^^^ shift poly b := by
  unfold shift
  rw [BitVec.getLsbD_xor, BitVec.ushiftRight_xor_distrib]
  apply BitVec.eq_of_getLsbD_eq
  intro i _
  cases a.getLsbD 0 <;> cases b.getLsbD 0 <;>
    simp only [Bool.bne_false, Bool.bne_true, Bool.not_false, Bool.not_true,
      Bool.false_eq_true, if_true, if_false, BitVec.getLsbD_xor] <;>
    cases poly.getLsbD i <;> cases (a >>> 1).getLsbD i <;>
    cases (b >>> 1).getLsbD i <;> rfl

theorem shifts_xor (n : Nat) (a b : BitVec w) :
    (shift poly)^[n] (a ^^^ b) = (shift poly)^[n] a ^^^ (shift poly)^[n] b := by
  induction n generalizing a b with
  | zero => rfl
  | succ n ih =>
      rw [Function.iterate_succ_apply, shift_xor, ih]
      rfl

/-- The top bit of a shifted register is the bit that was lost, so the
register can be shifted back. -/
theorem shift_injective (hpoly : poly.msb = true) :
    Function.Injective (shift poly) := by
  intro a b h
  have hw : 0 < w := by
    rcases Nat.eq_zero_or_pos w with rfl | hw
    · rw [BitVec.msb_eq_getLsbD_last, BitVec.getLsbD_of_ge _ _ (by omega)]
        at hpoly
      cases hpoly
    · exact hw
  have htop : ∀ c : BitVec w, (shift poly c).getLsbD (w - 1) = c.getLsbD 0 := by
    intro c
    have hpast : (c >>> 1).getLsbD (w - 1) = false := by
      rw [BitVec.getLsbD_ushiftRight]
      exact BitVec.getLsbD_of_ge _ _ (by omega)
    unfold shift
    cases hc : c.getLsbD 0 with
    | false =>
        rw [if_neg (by decide)]
        exact hpast
    | true =>
        rw [if_pos rfl, BitVec.getLsbD_xor, hpast, Bool.xor_false,
          ← BitVec.msb_eq_getLsbD_last]
        exact hpoly
  have hlow : a.getLsbD 0 = b.getLsbD 0 := by
    rw [← htop a, ← htop b, h]
  have hrest : a >>> 1 = b >>> 1 := by
    unfold shift at h
    rw [hlow] at h
    split at h
    · exact (BitVec.xor_right_inj poly).mp h
    · exact h
  apply BitVec.eq_of_getLsbD_eq
  intro i hi
  cases i with
  | zero => exact hlow
  | succ i =>
      have hbit := congrArg (fun c : BitVec w => c.getLsbD i) hrest
      simpa only [BitVec.getLsbD_ushiftRight, Nat.add_comm 1 i] using hbit

/-- Shifting out zeros only moves the register. -/
theorem shift_shiftLeft {c : BitVec w} (h : c.getLsbD (w - 1) = false) :
    shift poly (c <<< 1) = c := by
  have hlow : (c <<< 1).getLsbD 0 = false := by
    simp
  rw [shift, hlow, if_neg (by decide)]
  apply BitVec.eq_of_getLsbD_eq
  intro i hi
  rw [BitVec.getLsbD_ushiftRight, BitVec.getLsbD_shiftLeft]
  by_cases hlast : i = w - 1
  · rw [hlast, h, decide_eq_false (by omega : ¬ 1 + (w - 1) < w)]
    rfl
  · have hin : 1 + i < w := by omega
    simp [hin]

theorem feedByte_injective (hpoly : poly.msb = true) (b : UInt8) :
    Function.Injective fun c => feedByte poly c b := fun _ _ h =>
  (BitVec.xor_left_inj _).mp ((shift_injective hpoly).iterate 8 h)

/-- The same bytes after different registers leave different ones. -/
theorem feed_injective (hpoly : poly.msb = true) (bs : List UInt8) :
    Function.Injective fun c => feed poly c bs := by
  induction bs with
  | nil => exact fun _ _ h => h
  | cons b bs ih => exact fun _ _ h => feedByte_injective hpoly b (ih h)

-- ========================================================== bit by bit

/-- One bit into the register: the bit and the lowest bit decide together
whether the polynomial is added. -/
def feedBit (poly c : BitVec w) (b : Bool) : BitVec w :=
  if c.getLsbD 0 ^^ b then (c >>> 1) ^^^ poly else c >>> 1

/-- A message of bits. -/
def feedBits (poly c : BitVec w) (bs : List Bool) : BitVec w :=
  bs.foldl (feedBit poly) c

/-- The eight bits of a byte, lowest first. -/
def bitsOfByte (b : UInt8) : List Bool :=
  List.ofFn fun i : Fin 8 => b.toBitVec.getLsbD i.val

/-- The bits of a byte string, in the order they are sent. -/
def bits (bs : List UInt8) : List Bool :=
  bs.flatMap bitsOfByte

/-- The word a bit string makes, first bit lowest. -/
def bitWord (w : Nat) : List Bool → BitVec w
  | [] => 0
  | b :: bs => (BitVec.ofBool b).setWidth w ^^^ (bitWord w bs <<< 1)

/-- Bit `i` of a bit string's word is its `i`-th bit. -/
theorem getLsbD_bitWord (bs : List Bool) (i : Nat) :
    (bitWord w bs).getLsbD i = (decide (i < w) && bs.getD i false) := by
  induction bs generalizing i with
  | nil => simp [bitWord]
  | cons b bs ih =>
      rw [bitWord, BitVec.getLsbD_xor, BitVec.getLsbD_setWidth,
        BitVec.getLsbD_shiftLeft, ih]
      cases i with
      | zero => simp
      | succ i =>
          by_cases hi : i + 1 < w
          · simp [hi, show i < w by omega]
          · simp [hi]

/-- One bit is one shift of the register with the bit added below. -/
theorem feedBit_shift (hw : 0 < w) (c : BitVec w) (b : Bool) :
    feedBit poly c b = shift poly (c ^^^ (BitVec.ofBool b).setWidth w) := by
  have hlow : (c ^^^ (BitVec.ofBool b).setWidth w).getLsbD 0
      = (c.getLsbD 0 ^^ b) := by
    rw [BitVec.getLsbD_xor, BitVec.getLsbD_setWidth]
    simp [hw]
  have hrest : (c ^^^ (BitVec.ofBool b).setWidth w) >>> 1 = c >>> 1 := by
    apply BitVec.eq_of_getLsbD_eq
    intro i _
    rw [BitVec.getLsbD_ushiftRight, BitVec.getLsbD_ushiftRight,
      BitVec.getLsbD_xor, BitVec.getLsbD_setWidth,
      BitVec.getLsbD_of_ge (BitVec.ofBool b) (1 + i) (by omega),
      Bool.and_false, Bool.xor_false]
  rw [feedBit, shift, hlow, hrest, BitVec.xor_comm]

/-- A bit string no longer than the register is one xor of its word, and
the shifts. -/
theorem feedBits_word (c : BitVec w) (bs : List Bool) (h : bs.length ≤ w) :
    feedBits poly c bs = (shift poly)^[bs.length] (c ^^^ bitWord w bs) := by
  induction bs generalizing c with
  | nil =>
      rw [bitWord]
      simp [feedBits]
  | cons b bs ih =>
      rw [List.length_cons] at h
      have hhigh : shift poly (bitWord w bs <<< 1) = bitWord w bs := by
        apply shift_shiftLeft
        rw [getLsbD_bitWord, List.getD_eq_getElem?_getD,
          List.getElem?_eq_none (by omega)]
        simp
      show feedBits poly (feedBit poly c b) bs = _
      rw [ih _ (by omega), feedBit_shift (by omega), List.length_cons,
        Function.iterate_succ_apply, bitWord, ← BitVec.xor_assoc,
        shift_xor (c ^^^ (BitVec.ofBool b).setWidth w), hhigh]

/-- Eight bits are one byte. -/
theorem feedBits_bitsOfByte (hw : 8 ≤ w) (c : BitVec w) (b : UInt8) :
    feedBits poly c (bitsOfByte b) = feedByte poly c b := by
  have hlen : (bitsOfByte b).length = 8 := List.length_ofFn
  have hword : bitWord w (bitsOfByte b) = b.toBitVec.setWidth w := by
    apply BitVec.eq_of_getLsbD_eq
    intro i hi
    rw [getLsbD_bitWord, BitVec.getLsbD_setWidth, bitsOfByte,
      List.getD_eq_getElem?_getD, List.getElem?_ofFn]
    by_cases h8 : i < 8
    · simp [h8]
    · simp [h8, BitVec.getLsbD_of_ge b.toBitVec i (by omega)]
  rw [feedBits_word c _ (by omega), hlen, hword, feedByte]

/-- The bit-serial register and the byte-wise one are the same. -/
theorem feedBits_bits (hw : 8 ≤ w) (c : BitVec w) (bs : List UInt8) :
    feedBits poly c (bits bs) = feed poly c bs := by
  induction bs generalizing c with
  | nil => rfl
  | cons b bs ih =>
      have hsplit : feedBits poly c (bits (b :: bs))
          = feedBits poly (feedBits poly c (bitsOfByte b)) (bits bs) := by
        rw [bits, List.flatMap_cons]
        exact List.foldl_append
      rw [hsplit, feedBits_bitsOfByte hw, ih]
      rfl

/-- CRC-32/ISO-HDLC, bit by bit: the reflected polynomial, with all ones
at the start and added at the end. -/
def isoHdlc (bs : List UInt8) : BitVec 32 :=
  feedBits 0xEDB88320 0xFFFFFFFF (bits bs) ^^^ 0xFFFFFFFF

-- ================================================================= bursts

/-- The word a byte string makes, first byte lowest. -/
def word (w : Nat) : List UInt8 → BitVec w
  | [] => 0
  | b :: bs => b.toBitVec.setWidth w ^^^ (word w bs <<< 8)

/-- A string's word has no bit past its length. -/
theorem getLsbD_word (bs : List UInt8) (i : Nat) (hi : 8 * bs.length ≤ i) :
    (word w bs).getLsbD i = false := by
  induction bs generalizing i with
  | nil => exact BitVec.getLsbD_zero
  | cons b bs ih =>
      rw [List.length_cons] at hi
      rw [word, BitVec.getLsbD_xor, BitVec.getLsbD_setWidth,
        BitVec.getLsbD_shiftLeft, ih (i - 8) (by omega),
        BitVec.getLsbD_of_ge _ i (by omega)]
      simp only [Bool.and_false, Bool.bne_false]

theorem shifts_shiftLeft (n : Nat) {c : BitVec w}
    (h : ∀ i, w ≤ i + n → c.getLsbD i = false) :
    (shift poly)^[n] (c <<< n) = c := by
  induction n generalizing c with
  | zero => simp
  | succ n ih =>
      rw [Nat.add_comm n 1, BitVec.shiftLeft_add, Nat.add_comm 1 n,
        Function.iterate_succ_apply', ih]
      · exact shift_shiftLeft (h _ (by omega))
      · intro i hi
        rw [BitVec.getLsbD_shiftLeft]
        by_cases hin : 1 ≤ i
        · rw [h (i - 1) (by omega), Bool.and_false]
        · simp [show i = 0 by omega]

/-- The table form of a byte step: the table's word for the low byte,
and the rest of the register moved down. -/
theorem feedByte_table (c : BitVec w) (b : UInt8) :
    feedByte poly c b
      = (shift poly)^[8] ((c ^^^ b.toBitVec.setWidth w) &&& BitVec.ofNat w 255)
        ^^^ (c >>> 8) := by
  have h255 : ∀ i < w, (BitVec.ofNat w 255).getLsbD i = decide (i < 8) := by
    intro i hi
    rw [BitVec.getLsbD_ofNat, show (255 : Nat) = 2 ^ 8 - 1 from rfl,
      Nat.testBit_two_pow_sub_one]
    simp [hi]
  have hmoved : (shift poly)^[8] ((c >>> 8) <<< 8) = c >>> 8 :=
    shifts_shiftLeft 8 fun i hi => by
      rw [BitVec.getLsbD_ushiftRight]
      exact BitVec.getLsbD_of_ge _ _ (by omega)
  have hsplit : c ^^^ b.toBitVec.setWidth w
      = ((c ^^^ b.toBitVec.setWidth w) &&& BitVec.ofNat w 255)
        ^^^ ((c >>> 8) <<< 8) := by
    apply BitVec.eq_of_getLsbD_eq
    intro i hi
    simp only [BitVec.getLsbD_xor, BitVec.getLsbD_and, h255 i hi,
      BitVec.getLsbD_shiftLeft, BitVec.getLsbD_ushiftRight,
      BitVec.getLsbD_setWidth]
    by_cases hlow : i < 8
    · simp [hi, hlow]
    · have hb : b.toBitVec.getLsbD i = false :=
        BitVec.getLsbD_of_ge _ _ (by omega)
      simp [hi, hlow, hb, show 8 + (i - 8) = i by omega]
  have hxor := @shifts_xor w poly 8
    ((c ^^^ b.toBitVec.setWidth w) &&& BitVec.ofNat w 255) ((c >>> 8) <<< 8)
  rw [← hsplit, hmoved] at hxor
  exact hxor

/-- Feeding no more than a register's width is one xor of the string's
word, and the shifts. -/
theorem feed_word (c : BitVec w) (bs : List UInt8) (h : 8 * bs.length ≤ w) :
    feed poly c bs = (shift poly)^[8 * bs.length] (c ^^^ word w bs) := by
  induction bs generalizing c with
  | nil =>
      rw [word]
      simp [feed]
  | cons b bs ih =>
      rw [List.length_cons] at h
      have hhigh : (shift poly)^[8] (word w bs <<< 8) = word w bs :=
        shifts_shiftLeft 8 fun i hi => getLsbD_word bs i (by omega)
      have hstep : feedByte poly c b ^^^ word w bs
          = (shift poly)^[8] (c ^^^ word w (b :: bs)) := by
        rw [word, ← BitVec.xor_assoc, shifts_xor, hhigh]
        rfl
      show feed poly (feedByte poly c b) bs = _
      rw [ih _ (by omega), hstep, ← Function.iterate_add_apply]
      rfl

/-- A string that fits the register is known by its word. -/
theorem word_injective {bs cs : List UInt8} (hlen : bs.length = cs.length)
    (hw : 8 * bs.length ≤ w) (h : word w bs = word w cs) : bs = cs := by
  induction bs generalizing cs with
  | nil =>
      exact (List.length_eq_zero_iff.mp hlen.symm).symm
  | cons b bs ih =>
      cases cs with
      | nil => cases hlen
      | cons c cs =>
          rw [List.length_cons] at hw
          have hbit : ∀ i, (word w (b :: bs)).getLsbD i
              = (word w (c :: cs)).getLsbD i := fun i => by rw [h]
          simp only [word, BitVec.getLsbD_xor, BitVec.getLsbD_setWidth,
            BitVec.getLsbD_shiftLeft] at hbit
          have hhead : b = c := by
            apply UInt8.toBitVec_inj.mp
            apply BitVec.eq_of_getLsbD_eq
            intro i hi
            have hin : i < w := by omega
            simpa [hin, hi] using hbit i
          have htail : word w bs = word w cs := by
            apply BitVec.eq_of_getLsbD_eq
            intro i hi
            by_cases hin : i + 8 < w
            · have hge : ¬ i + 8 < 8 := by omega
              have hb : ∀ x : UInt8, x.toBitVec.getLsbD (i + 8) = false :=
                fun x => BitVec.getLsbD_of_ge _ _ (by omega)
              simpa [hin, hge, hb] using hbit (i + 8)
            · rw [getLsbD_word bs i (by omega), getLsbD_word cs i]
              rw [List.length_cons, List.length_cons] at hlen
              omega
          rw [hhead, ih (Nat.succ.inj hlen) (by omega) htail]

/-- Two strings that fit the register and differ leave different
registers. -/
theorem feed_ne_of_short (hpoly : poly.msb = true) (c : BitVec w)
    {bs cs : List UInt8} (hlen : bs.length = cs.length)
    (hw : 8 * bs.length ≤ w) (hne : bs ≠ cs) :
    feed poly c bs ≠ feed poly c cs := by
  intro h
  rw [feed_word c bs hw, feed_word c cs (hlen ▸ hw), ← hlen] at h
  have hword := (shift_injective hpoly).iterate _ h
  exact hne (word_injective hlen hw ((BitVec.xor_right_inj c).mp hword))

/-- Two strings of one length that agree outside the window from `lo` to
`hi`. -/
structure Burst {α : Type} (lo hi : Nat) (l l' : List α) : Prop where
  length : l'.length = l.length
  same : ∀ j, j < lo ∨ hi ≤ j → l'[j]? = l[j]?

/-- What lies before the window agrees. -/
theorem Burst.take {α : Type} {lo hi : Nat} {l l' : List α}
    (h : Burst lo hi l l') {n : Nat} (hn : n ≤ lo) : l'.take n = l.take n := by
  apply List.ext_getElem?
  intro j
  rw [List.getElem?_take, List.getElem?_take]
  split
  · exact h.same j (.inl (by omega))
  · rfl

/-- What lies behind the window agrees. -/
theorem Burst.drop {α : Type} {lo hi : Nat} {l l' : List α}
    (h : Burst lo hi l l') {n : Nat} (hn : hi ≤ n) : l'.drop n = l.drop n := by
  apply List.ext_getElem?
  intro j
  rw [List.getElem?_drop, List.getElem?_drop]
  exact h.same _ (.inr (by omega))

/-- A window past a common cut, seen from the cut. -/
theorem Burst.tail {α : Type} {lo hi : Nat} {l l' : List α}
    (h : Burst lo hi l l') (n : Nat) :
    Burst (lo - n) (hi - n) (l.drop n) (l'.drop n) where
  length := by rw [List.length_drop, List.length_drop, h.length]
  same j hj := by
    rw [List.getElem?_drop, List.getElem?_drop]
    exact h.same _ (by omega)

/-- A burst no wider than the register is detected: what comes before
and after it does not matter. -/
theorem feed_ne_of_burst (hpoly : poly.msb = true) (c : BitVec w)
    {lo hi : Nat} {l l' : List UInt8} (h : Burst lo hi l l')
    (hw : 8 * (hi - lo) ≤ w) (hne : l' ≠ l) :
    feed poly c l' ≠ feed poly c l := by
  have hcut : ∀ k : List UInt8,
      k = k.take lo ++ ((k.drop lo).take (hi - lo)
        ++ (k.drop lo).drop (hi - lo)) := fun k => by
    rw [List.take_append_drop, List.take_append_drop]
  have hsuf : (l'.drop lo).drop (hi - lo) = (l.drop lo).drop (hi - lo) := by
    rw [List.drop_drop, List.drop_drop]
    exact h.drop (by omega)
  have hlen : ((l'.drop lo).take (hi - lo)).length
      = ((l.drop lo).take (hi - lo)).length := by
    simp only [List.length_take, List.length_drop, h.length]
  have hmid : (l'.drop lo).take (hi - lo) ≠ (l.drop lo).take (hi - lo) := by
    intro he
    apply hne
    rw [hcut l', hcut l, h.take (Nat.le_refl lo), he, hsuf]
  have hshort : 8 * ((l'.drop lo).take (hi - lo)).length ≤ w := by
    rw [List.length_take]
    omega
  rw [hcut l', hcut l, h.take (Nat.le_refl lo), hsuf]
  simp only [feed, List.foldl_append]
  exact fun he => feed_ne_of_short hpoly _ hlen hshort hmid
    (feed_injective hpoly _ he)

end Lib.Crc
