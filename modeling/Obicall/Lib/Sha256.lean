/-
SHA-256 as FIPS 180-4 states it, over byte strings: the padded message is
read as blocks of sixteen big-endian words, each block is expanded to a
schedule of 64 words, and 64 rounds over eight working variables update
the hash value.

The constants are not a table here: they are the first 32 bits of the
fractional parts of the cube and square roots of the first primes, as the
standard derives them.

# Hashing a message in pieces

- `process_append`: whole blocks are processed one after the other.
- `process_short`: what does not fill a block leaves the hash value
  alone, so that the hash value after the message so far is
  `process initial` of it, whatever its length.
- `process_block`: a single block.
-/
import Mathlib.Algebra.Group.Nat.Defs
import Mathlib.Data.Nat.NthRoot.Defs
import Mathlib.Data.List.Basic

namespace Lib.Sha256

/-- The standard's 32-bit words. -/
abbrev Word := BitVec 32

-- ============================================================== constants

/-- The first 64 primes. -/
def primes : List Nat :=
  (List.range 312).filter fun p => 2 ≤ p ∧ ∀ d < p, 2 ≤ d → ¬ d ∣ p

/-- A number below 324 that has a divisor has one below 18. -/
theorem primes_eq : primes = (List.range 312).filter fun p =>
    2 ≤ p ∧ ∀ d < 18, 2 ≤ d → d < p → ¬ d ∣ p := by
  refine List.filter_congr fun p hp => decide_eq_decide.mpr ?_
  have hlt : p < 312 := List.mem_range.mp hp
  refine and_congr_right fun _ =>
    ⟨fun h d _ hd hdp => h d hdp hd, fun h d hdp hd => ?_⟩
  rcases Nat.lt_or_ge d 18 with hsmall | hbig
  · exact h d hsmall hd hdp
  · -- the quotient is a divisor too
    rintro ⟨q, rfl⟩
    have hq : q < 18 := by
      by_contra hge
      have := Nat.mul_le_mul hbig (Nat.le_of_not_lt hge)
      omega
    have hq2 : 2 ≤ q := by
      by_contra hlt2
      have := Nat.mul_le_mul_left d (show q ≤ 1 by omega)
      omega
    have hqd : q < d * q :=
      Nat.lt_of_lt_of_le (by omega) (Nat.mul_le_mul_right q hd)
    exact h q hq hq2 hqd ⟨d, Nat.mul_comm d q⟩

/-- The first 32 bits of the fractional part of the `n`-th root of `p`. -/
def fraction (n p : Nat) : Word :=
  BitVec.ofNat 32 (Nat.nthRoot n (p * 2 ^ (32 * n)))

/-- The round constants `K`. -/
def k (t : Nat) : Word := fraction 3 (primes.getD t 0)

/-- Eight words: a hash value, or the working variables. -/
@[ext] structure Words where
  a : Word
  b : Word
  c : Word
  d : Word
  e : Word
  f : Word
  g : Word
  h : Word

/-- The initial hash value. -/
def initial : Words where
  a := fraction 2 2
  b := fraction 2 3
  c := fraction 2 5
  d := fraction 2 7
  e := fraction 2 11
  f := fraction 2 13
  g := fraction 2 17
  h := fraction 2 19

-- ============================================================== functions

def ch (x y z : Word) : Word := (x &&& y) ^^^ (~~~ x &&& z)

def maj (x y z : Word) : Word := (x &&& y) ^^^ (x &&& z) ^^^ (y &&& z)

def bigSigma0 (x : Word) : Word :=
  x.rotateRight 2 ^^^ x.rotateRight 13 ^^^ x.rotateRight 22

def bigSigma1 (x : Word) : Word :=
  x.rotateRight 6 ^^^ x.rotateRight 11 ^^^ x.rotateRight 25

def smallSigma0 (x : Word) : Word :=
  x.rotateRight 7 ^^^ x.rotateRight 18 ^^^ (x >>> 3)

def smallSigma1 (x : Word) : Word :=
  x.rotateRight 17 ^^^ x.rotateRight 19 ^^^ (x >>> 10)

-- ================================================================= blocks

/-- The message schedule of a block with words `m`. -/
def schedule (m : Nat → Word) (t : Nat) : Word :=
  if t < 16 then m t
  else smallSigma1 (schedule m (t - 2)) + schedule m (t - 7)
    + smallSigma0 (schedule m (t - 15)) + schedule m (t - 16)

/-- One round. -/
def Words.round (v : Words) (k w : Word) : Words :=
  let t1 := v.h + bigSigma1 v.e + ch v.e v.f v.g + k + w
  let t2 := bigSigma0 v.a + maj v.a v.b v.c
  { a := t1 + t2, b := v.a, c := v.b, d := v.c
    e := v.d + t1, f := v.e, g := v.f, h := v.g }

def Words.add (v v' : Words) : Words where
  a := v.a + v'.a
  b := v.b + v'.b
  c := v.c + v'.c
  d := v.d + v'.d
  e := v.e + v'.e
  f := v.f + v'.f
  g := v.g + v'.g
  h := v.h + v'.h

/-- The hash value after a block with words `m`. -/
def compress (v : Words) (m : Nat → Word) : Words :=
  v.add ((List.range 64).foldl (fun r t => r.round (k t) (schedule m t)) v)

/-- The `t`-th big-endian word of a byte string. -/
def wordAt (bs : List UInt8) (t : Nat) : Word :=
  (bs.getD (4 * t) 0).toBitVec ++ (bs.getD (4 * t + 1) 0).toBitVec
    ++ (bs.getD (4 * t + 2) 0).toBitVec ++ (bs.getD (4 * t + 3) 0).toBitVec

/-- The hash value after the whole blocks of a byte string. -/
def process (v : Words) (bs : List UInt8) : Words :=
  if 64 ≤ bs.length then
    process (compress v (wordAt (bs.take 64))) (bs.drop 64)
  else v
  termination_by bs.length
  decreasing_by
    rw [List.length_drop]
    omega

-- =============================================================== messages

/-- The `n` lowest bytes of `x`, highest first. -/
def bigEndian (n x : Nat) : List UInt8 :=
  List.ofFn fun i : Fin n => UInt8.ofNat (x >>> (8 * (n - 1 - i.val)))

/-- The zero bytes behind the one bit of a message of `n` bytes: as few as
leave eight bytes for the length in the last block. -/
def zeros (n : Nat) : Nat := (119 - n % 64) % 64

/-- The padded message. -/
def pad (msg : List UInt8) : List UInt8 :=
  msg ++ [0x80] ++ List.replicate (zeros msg.length) 0
    ++ bigEndian 8 (8 * msg.length)

def Words.bytes (v : Words) : List UInt8 :=
  [v.a, v.b, v.c, v.d, v.e, v.f, v.g, v.h].flatMap fun x => bigEndian 4 x.toNat

/-- SHA-256. -/
def hash (msg : List UInt8) : List UInt8 :=
  (process initial (pad msg)).bytes

-- ============================================================== in pieces

theorem process_short (v : Words) {bs : List UInt8} (h : bs.length < 64) :
    process v bs = v := by
  rw [process, if_neg (by omega)]

theorem process_step (v : Words) {bs : List UInt8} (h : 64 ≤ bs.length) :
    process v bs = process (compress v (wordAt (bs.take 64))) (bs.drop 64) := by
  rw [process, if_pos h]

theorem process_block (v : Words) {bs : List UInt8} (h : bs.length = 64) :
    process v bs = compress v (wordAt bs) := by
  rw [process_step v (by omega), List.take_of_length_le (by omega),
    process_short _ (by rw [List.length_drop]; omega)]

theorem process_append (v : Words) {bs : List UInt8} (h : 64 ∣ bs.length)
    (bs' : List UInt8) :
    process v (bs ++ bs') = process (process v bs) bs' := by
  by_cases hlen : 64 ≤ bs.length
  · have hdrop : 64 ∣ (bs.drop 64).length := by
      rw [List.length_drop]
      omega
    rw [process_step v (by rw [List.length_append]; omega),
      List.take_append_of_le_length hlen, List.drop_append_of_le_length hlen,
      process_step v hlen]
    exact process_append _ hdrop bs'
  · have hnil : bs = [] := List.eq_nil_of_length_eq_zero (by omega)
    rw [process_short v (Nat.lt_of_not_le hlen), hnil, List.nil_append]
  termination_by bs.length
  decreasing_by
    rw [List.length_drop]
    omega

theorem length_bigEndian (n x : Nat) : (bigEndian n x).length = n :=
  List.length_ofFn

end Lib.Sha256
