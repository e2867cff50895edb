/-
`digest.c`: streaming SHA-256 and CRC-32.

The SHA-256 context keeps the number of buffered bytes below 64 in its
type, so the update loop always has room to take at least one byte and
ends. CRC-32 is computed per call from an unrolled table entry, one byte
at a time; it is the shift register of `Lib.Crc` with the reflected
polynomial, and so detects every burst of up to 32 bits.
-/
import Mathlib.Data.List.Basic
import Obicall.Core.Types
import Obicall.Lib.Crc

namespace Obicall

open Lib.Crc

-- =============================================================== SHA-256

/-- `k_sha256_k`. -/
def kSha256K : Vector UInt32 64 := #v[
  0x428a2f98, 0x71374491, 0xb5c0fbcf, 0xe9b5dba5,
  0x3956c25b, 0x59f111f1, 0x923f82a4, 0xab1c5ed5,
  0xd807aa98, 0x12835b01, 0x243185be, 0x550c7dc3,
  0x72be5d74, 0x80deb1fe, 0x9bdc06a7, 0xc19bf174,
  0xe49b69c1, 0xefbe4786, 0x0fc19dc6, 0x240ca1cc,
  0x2de92c6f, 0x4a7484aa, 0x5cb0a9dc, 0x76f988da,
  0x983e5152, 0xa831c66d, 0xb00327c8, 0xbf597fc7,
  0xc6e00bf3, 0xd5a79147, 0x06ca6351, 0x14292967,
  0x27b70a85, 0x2e1b2138, 0x4d2c6dfc, 0x53380d13,
  0x650a7354, 0x766a0abb, 0x81c2c92e, 0x92722c85,
  0xa2bfe8a1, 0xa81a664b, 0xc24b8b70, 0xc76c51a3,
  0xd192e819, 0xd6990624, 0xf40e3585, 0x106aa070,
  0x19a4c116, 0x1e376c08, 0x2748774c, 0x34b0bcb5,
  0x391c0cb3, 0x4ed8aa4a, 0x5b9cca4f, 0x682e6ff3,
  0x748f82ee, 0x78a5636f, 0x84c87814, 0x8cc70208,
  0x90befffa, 0xa4506ceb, 0xbef9a3f7, 0xc67178f2]

def rotr32 (x n : UInt32) : UInt32 := (x >>> n) ||| (x <<< (32 - n))

/-- The message schedule `w` of `sha256_compress`. -/
def sha256Schedule (block : Vector UInt8 64) : Vector UInt32 64 :=
  let byte (i : Nat) : UInt32 := (block.getD i 0).toUInt32
  let w₀ : Vector UInt32 64 := Vector.ofFn fun i =>
    if i.val < 16 then
      (byte (i * 4) <<< 24) ||| (byte (i * 4 + 1) <<< 16)
        ||| (byte (i * 4 + 2) <<< 8) ||| byte (i * 4 + 3)
    else 0
  (List.range' 16 48).foldl (fun w i =>
    let w15 := w.getD (i - 15) 0
    let w2 := w.getD (i - 2) 0
    let s0 := rotr32 w15 7 ^^^ rotr32 w15 18 ^^^ (w15 >>> 3)
    let s1 := rotr32 w2 17 ^^^ rotr32 w2 19 ^^^ (w2 >>> 10)
    w.setIfInBounds i (w.getD (i - 16) 0 + s0 + w.getD (i - 7) 0 + s1)) w₀

/-- The working variables of `sha256_compress`. -/
structure Sha256Round where
  a : UInt32
  b : UInt32
  c : UInt32
  d : UInt32
  e : UInt32
  f : UInt32
  g : UInt32
  h : UInt32

/-- One turn of the 64-round loop. -/
def sha256Round (w : Vector UInt32 64) (r : Sha256Round) (i : Fin 64) :
    Sha256Round :=
  let s1 := rotr32 r.e 6 ^^^ rotr32 r.e 11 ^^^ rotr32 r.e 25
  let ch := (r.e &&& r.f) ^^^ ((~~~ r.e) &&& r.g)
  let temp1 := r.h + s1 + ch + kSha256K[i] + w[i]
  let s0 := rotr32 r.a 2 ^^^ rotr32 r.a 13 ^^^ rotr32 r.a 22
  let maj := (r.a &&& r.b) ^^^ (r.a &&& r.c) ^^^ (r.b &&& r.c)
  let temp2 := s0 + maj
  { a := temp1 + temp2, b := r.a, c := r.b, d := r.c
    e := r.d + temp1, f := r.e, g := r.f, h := r.g }

/-- `sha256_compress`. -/
def sha256Compress (state : Vector UInt32 8) (block : Vector UInt8 64) :
    Vector UInt32 8 :=
  let w := sha256Schedule block
  let r := (List.finRange 64).foldl (sha256Round w)
    { a := state[0], b := state[1], c := state[2], d := state[3]
      e := state[4], f := state[5], g := state[6], h := state[7] }
  #v[state[0] + r.a, state[1] + r.b, state[2] + r.c, state[3] + r.d,
    state[4] + r.e, state[5] + r.f, state[6] + r.g, state[7] + r.h]

/-- `obicall_sha256_ctx_t`. -/
structure Sha256Ctx where
  state : Vector UInt32 8
  totalLen : UInt64
  buffer : Vector UInt8 64
  bufferLen : Fin 64

/-- `obicall_sha256_init`; the buffer's old contents are never read. -/
def obicallSha256Init : Sha256Ctx where
  state := #v[0x6a09e667, 0xbb67ae85, 0x3c6ef372, 0xa54ff53a,
    0x510e527f, 0x9b05688c, 0x1f83d9ab, 0x5be0cd19]
  totalLen := 0
  buffer := Vector.replicate 64 0
  bufferLen := 0

/-- One turn of the update loop: buffer a chunk, and compress the block
when it is full. -/
def Sha256Ctx.absorb (ctx : Sha256Ctx) (chunk : List UInt8) : Sha256Ctx :=
  let buffer := Vector.ofFn fun i : Fin 64 =>
    if ctx.bufferLen.val ≤ i.val then
      (chunk[i.val - ctx.bufferLen.val]?).getD ctx.buffer[i]
    else ctx.buffer[i]
  let len := ctx.bufferLen.val + chunk.length
  if h : len < 64 then { ctx with buffer, bufferLen := ⟨len, h⟩ }
  else
    { ctx with
      state := sha256Compress ctx.state buffer
      buffer, bufferLen := 0 }

/-- The `while (len > 0)` loop of `obicall_sha256_update`. -/
def Sha256Ctx.absorbAll (ctx : Sha256Ctx) (data : List UInt8) : Sha256Ctx :=
  if h : data.length > 0 then
    let take := min (64 - ctx.bufferLen.val) data.length
    (ctx.absorb (data.take take)).absorbAll (data.drop take)
  else ctx
  termination_by data.length
  decreasing_by
    have := ctx.bufferLen.isLt
    rw [List.length_drop]
    omega

/-- `obicall_sha256_update`. -/
def obicallSha256Update (ctx : Sha256Ctx) (data : List UInt8) : Sha256Ctx :=
  { ctx with totalLen := ctx.totalLen + UInt64.ofNat data.length }.absorbAll
    data

/-- A single byte moves the fill level on by one, around the block. -/
theorem bufferLen_update_byte (ctx : Sha256Ctx) (x : UInt8) :
    (obicallSha256Update ctx [x]).bufferLen.val
      = (ctx.bufferLen.val + 1) % 64 := by
  have hlt := ctx.bufferLen.isLt
  have htake : min (64 - ctx.bufferLen.val) [x].length = 1 := by
    simp only [List.length_singleton]
    omega
  rw [obicallSha256Update, Sha256Ctx.absorbAll,
    dif_pos (by simp), htake, Sha256Ctx.absorbAll, dif_neg (by simp)]
  by_cases h : ctx.bufferLen.val + 1 < 64
  · simp [Sha256Ctx.absorb, h, Nat.mod_eq_of_lt h]
  · have hfull : ctx.bufferLen.val + 1 = 64 := by omega
    simp [Sha256Ctx.absorb, hfull]

/-- The padding loop of `obicall_sha256_final`. -/
def Sha256Ctx.padZeros (ctx : Sha256Ctx) : Sha256Ctx :=
  if ctx.bufferLen.val ≠ 56 then (obicallSha256Update ctx [0]).padZeros
  else ctx
  termination_by (120 - ctx.bufferLen.val) % 64
  decreasing_by
    have := ctx.bufferLen.isLt
    rw [bufferLen_update_byte]
    omega

/-- `obicall_sha256_final`. -/
def obicallSha256Final (ctx : Sha256Ctx) : DigestBytes :=
  let bitLen := ctx.totalLen * 8
  let ctx := (obicallSha256Update ctx [0x80]).padZeros
  let buffer := Vector.ofFn fun i : Fin 64 =>
    if ctx.bufferLen.val ≤ i.val ∧ i.val < ctx.bufferLen.val + 8 then
      (bitLen >>> UInt64.ofNat
        (56 - 8 * (i.val - ctx.bufferLen.val))).toUInt8
    else ctx.buffer[i]
  let state := sha256Compress ctx.state buffer
  Vector.ofFn fun i =>
    (state.getD (i.val / 4) 0 >>> UInt32.ofNat
      (24 - 8 * (i.val % 4))).toUInt8

/-- `obicall_sha256`. -/
def obicallSha256 (data : List UInt8) : DigestBytes :=
  obicallSha256Final (obicallSha256Update obicallSha256Init data)

-- ================================================================ CRC-32

/-- `crc32_table_entry`. -/
def crc32TableEntry (i : UInt32) : UInt32 :=
  Nat.iterate (fun c : UInt32 =>
    if c &&& 1 ≠ 0 then (0xEDB88320 : UInt32) ^^^ (c >>> 1)
    else c >>> 1) 8 i

/-- `obicall_crc32`. -/
def obicallCrc32 (data : List UInt8) : UInt32 :=
  data.foldl (fun (crc : UInt32) b =>
    crc32TableEntry ((crc ^^^ b.toUInt32) &&& 0xFF) ^^^ (crc >>> 8))
    0xFFFFFFFF ^^^ 0xFFFFFFFF

/-- The check value of CRC-32/ISO-HDLC: the digits 1 to 9. -/
example : obicallCrc32 [0x31, 0x32, 0x33, 0x34, 0x35, 0x36, 0x37, 0x38, 0x39]
    = 0xCBF43926 := by decide +kernel

/-- The CRC-32 polynomial, reflected. -/
def crc32Poly : BitVec 32 := 0xEDB88320

theorem toBitVec_crc32TableEntry (i : UInt32) :
    (crc32TableEntry i).toBitVec = (shift crc32Poly)^[8] i.toBitVec := by
  have hbit : ∀ c : UInt32, (c &&& 1 ≠ 0) ↔ c.toBitVec.getLsbD 0 = true := by
    intro c
    rw [ne_eq, ← UInt32.toBitVec_inj, UInt32.toBitVec_and]
    show ¬ (c.toBitVec &&& 1#32) = 0#32 ↔ _
    rw [BitVec.and_one_eq_setWidth_ofBool_getLsbD]
    cases c.toBitVec.getLsbD 0 <;> simp 
  have hshift : Function.Semiconj UInt32.toBitVec
      (fun c : UInt32 => if c &&& 1 ≠ 0 then (0xEDB88320 : UInt32) ^^^ (c >>> 1)
        else c >>> 1) (shift crc32Poly) := by
    intro c
    dsimp only
    unfold shift
    by_cases h : c &&& 1 ≠ 0
    · rw [if_pos h, if_pos ((hbit c).mp h), UInt32.toBitVec_xor,
        UInt32.toBitVec_shiftRight]
      rfl
    · rw [if_neg h, if_neg (fun hc => h ((hbit c).mpr hc)),
        UInt32.toBitVec_shiftRight]
      rfl
  exact hshift.iterate_right 8 i

/-- The table-driven CRC is the shift register fed byte by byte. -/
theorem toBitVec_obicallCrc32 (data : List UInt8) :
    (obicallCrc32 data).toBitVec
      = feed crc32Poly 0xFFFFFFFF data ^^^ 0xFFFFFFFF := by
  have hstep : ∀ (crc : UInt32) (b : UInt8),
      (crc32TableEntry ((crc ^^^ b.toUInt32) &&& 0xFF)
        ^^^ (crc >>> 8)).toBitVec = feedByte crc32Poly crc.toBitVec b := by
    intro crc b
    rw [UInt32.toBitVec_xor, toBitVec_crc32TableEntry, feedByte_table,
      UInt32.toBitVec_and, UInt32.toBitVec_xor, UInt32.toBitVec_shiftRight]
    rfl
  rw [obicallCrc32, UInt32.toBitVec_xor]
  congr 1
  generalize hc : (0xFFFFFFFF : UInt32) = crc
  have hc' : (0xFFFFFFFF : BitVec 32) = crc.toBitVec := by rw [← hc]; rfl
  rw [hc']
  clear hc hc'
  induction data generalizing crc with
  | nil => rfl
  | cons b data ih =>
      rw [List.foldl_cons, ih, hstep]
      rfl

/-- CRC-32 detects every burst of up to four bytes. -/
theorem obicallCrc32_ne_of_burst {lo : Nat} {data data' : List UInt8}
    (h : Burst lo (lo + 4) data data') (hne : data' ≠ data) :
    obicallCrc32 data' ≠ obicallCrc32 data := by
  intro he
  have hfeed := congrArg UInt32.toBitVec he
  rw [toBitVec_obicallCrc32, toBitVec_obicallCrc32,
    BitVec.xor_left_inj] at hfeed
  exact feed_ne_of_burst (by decide) _ h (by omega) hne hfeed

end Obicall
