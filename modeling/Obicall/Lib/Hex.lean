/-
Bytes as hexadecimal text: two digits for a byte, the high half first.

The writer uses small letters, the reader takes either case. A text reads
as `bs` exactly when it is what the writer makes of `bs`, up to the case of
its letters (`decode_eq_some_iff`); both round trips are cases of it. It
reads as anything exactly when it has an even length and digits only
(`exists_decode_iff`).
-/
import Mathlib.Data.List.Basic

namespace Lib.Hex

-- ================================================================= digits

/-- The digit of a half byte. -/
def digit (n : UInt8) : UInt8 := if n < 10 then 0x30 + n else 0x57 + n

/-- The half byte of a digit. -/
def value (c : UInt8) : Option UInt8 :=
  if 0x30 ≤ c ∧ c ≤ 0x39 then some (c - 0x30)
  else if 0x61 ≤ c ∧ c ≤ 0x66 then some (c - 0x61 + 10)
  else if 0x41 ≤ c ∧ c ≤ 0x46 then some (c - 0x41 + 10)
  else none

/-- The digits of either case. -/
def IsDigit (c : UInt8) : Prop :=
  (0x30 ≤ c ∧ c ≤ 0x39) ∨ (0x41 ≤ c ∧ c ≤ 0x46) ∨ (0x61 ≤ c ∧ c ≤ 0x66)

theorem exists_value_iff (c : UInt8) : (∃ v, value c = some v) ↔ IsDigit c := by
  unfold value IsDigit
  split_ifs with hdecimal hsmall hcapital
  · exact iff_of_true ⟨_, rfl⟩ (.inl hdecimal)
  · exact iff_of_true ⟨_, rfl⟩ (.inr (.inr hsmall))
  · exact iff_of_true ⟨_, rfl⟩ (.inr (.inl hcapital))
  · refine iff_of_false ?_ ?_
    · rintro ⟨v, h⟩
      cases h
    · rintro (h | h | h)
      · exact hdecimal h
      · exact hcapital h
      · exact hsmall h

/-- A letter of a digit, small. -/
def lower (c : UInt8) : UInt8 := if 0x41 ≤ c ∧ c ≤ 0x46 then c + 0x20 else c

/-- The two halves of a byte. -/
def high (b : UInt8) : UInt8 := b >>> 4

def low (b : UInt8) : UInt8 := b &&& 0xF

theorem toNat_high (b : UInt8) : (high b).toNat = b.toNat / 16 := by
  rw [high, UInt8.toNat_shiftRight, Nat.shiftRight_eq_div_pow]
  rfl

theorem toNat_low (b : UInt8) : (low b).toNat = b.toNat % 16 := by
  rw [low, UInt8.toNat_and]
  exact Nat.and_two_pow_sub_one_eq_mod b.toNat 4

theorem high_lt (b : UInt8) : high b < 16 := by
  have := b.toNat_lt
  rw [UInt8.lt_iff_toNat_lt, toNat_high]
  show b.toNat / 16 < 16
  omega

theorem low_lt (b : UInt8) : low b < 16 := by
  rw [UInt8.lt_iff_toNat_lt, toNat_low]
  exact Nat.mod_lt _ (by decide)

/-- Two halves make a byte, and a byte has no others. -/
theorem halves_eq_iff {h l b : UInt8} (hh : h < 16) (hl : l < 16) :
    h <<< 4 ||| l = b ↔ h = high b ∧ l = low b := by
  have hh' : h.toNat < 16 := UInt8.lt_iff_toNat_lt.mp hh
  have hl' : l.toNat < 2 ^ 4 := UInt8.lt_iff_toNat_lt.mp hl
  have hb := b.toNat_lt
  have hnat : (h <<< 4 ||| l).toNat = 16 * h.toNat + l.toNat := by
    have hshift : (h <<< 4).toNat = h.toNat <<< 4 := by
      rw [UInt8.toNat_shiftLeft]
      show h.toNat <<< 4 % 256 = _
      rw [Nat.shiftLeft_eq]
      omega
    rw [UInt8.toNat_or, hshift, ← Nat.shiftLeft_add_eq_or_of_lt hl',
      Nat.shiftLeft_eq]
    omega
  rw [← UInt8.toNat_inj, hnat, ← UInt8.toNat_inj, ← UInt8.toNat_inj,
    toNat_high, toNat_low]
  omega

/-- What a digit stands for, and that only the digits of the writer and
their capitals stand for anything. -/
theorem value_eq_some_iff (c v : UInt8) :
    value c = some v ↔ v < 16 ∧ lower c = digit v := by
  have hc := c.toNat_lt
  have hv := v.toNat_lt
  unfold value lower digit
  simp only [UInt8.le_iff_toNat_le, UInt8.lt_iff_toNat_lt]
  -- the three ranges of digits, and what lies between them
  split_ifs <;>
    simp only [Option.some.injEq, false_iff, ← UInt8.toNat_inj,
      UInt8.toNat_sub, UInt8.toNat_add, UInt8.reduceToNat] at * <;>
    omega

-- ================================================================== texts

/-- The digits of some bytes. -/
def encode (bs : List UInt8) : List UInt8 :=
  bs.flatMap fun b => [digit (high b), digit (low b)]

/-- The bytes that digits stand for. -/
def decode : List UInt8 → Option (List UInt8)
  | [] => some []
  | [_] => none
  | hi :: lo :: rest => do
      let h ← value hi
      let l ← value lo
      let bs ← decode rest
      pure ((h <<< 4 ||| l) :: bs)

theorem encode_cons (b : UInt8) (bs : List UInt8) :
    encode (b :: bs) = digit (high b) :: digit (low b) :: encode bs := rfl

@[simp] theorem length_encode (bs : List UInt8) :
    (encode bs).length = 2 * bs.length := by
  induction bs with
  | nil => rfl
  | cons b bs ih =>
      rw [encode_cons, List.length_cons, List.length_cons, ih,
        List.length_cons]
      omega

/-- A digit is a digit or a small letter. -/
theorem digit_range {n : UInt8} (h : n < 16) :
    0x30 ≤ digit n ∧ digit n ≤ 0x39 ∨ 0x61 ≤ digit n ∧ digit n ≤ 0x66 := by
  unfold digit
  simp only [UInt8.le_iff_toNat_le, UInt8.lt_iff_toNat_lt] at h ⊢
  split_ifs <;>
    simp only [UInt8.toNat_add, UInt8.reduceToNat] at * <;>
    omega

theorem lower_digit {n : UInt8} (h : n < 16) : lower (digit n) = digit n := by
  have hrange := digit_range h
  unfold lower
  rw [if_neg]
  simp only [UInt8.le_iff_toNat_le, UInt8.reduceToNat] at hrange ⊢
  omega

/-- The writer's letters are small. -/
theorem map_lower_encode (bs : List UInt8) :
    (encode bs).map lower = encode bs := by
  induction bs with
  | nil => rfl
  | cons b bs ih =>
      rw [encode_cons, List.map_cons, List.map_cons, ih,
        lower_digit (high_lt b), lower_digit (low_lt b)]

/-- Nothing but the digits of `bs` reads as `bs`. -/
theorem decode_eq_some_iff {s bs : List UInt8} :
    decode s = some bs ↔ s.map lower = encode bs := by
  induction s using decode.induct generalizing bs with
  | case1 =>
      cases bs with
      | nil => exact iff_of_true rfl rfl
      | cons b bs =>
          refine iff_of_false ?_ ?_
          · intro h
            cases h
          · intro h
            cases h
  | case2 c =>
      refine iff_of_false ?_ fun h => ?_
      · intro h
        cases h
      · have hlen := congrArg List.length h
        rw [List.length_map, length_encode, List.length_singleton] at hlen
        omega
  | case3 hi lo rest ih =>
      have hstep : decode (hi :: lo :: rest) = some bs
          ↔ ∃ h l tl, value hi = some h ∧ value lo = some l
            ∧ decode rest = some tl ∧ (h <<< 4 ||| l) :: tl = bs := by
        simp only [decode, bind, Option.bind_eq_some_iff, pure,
          Option.some.injEq]
        constructor
        · rintro ⟨h, hh, l, hl, tl, htl, hbs⟩
          exact ⟨h, l, tl, hh, hl, htl, hbs⟩
        · rintro ⟨h, l, tl, hh, hl, htl, hbs⟩
          exact ⟨h, hh, l, hl, tl, htl, hbs⟩
      rw [hstep]
      cases bs with
      | nil =>
          refine iff_of_false ?_ fun h => by cases h
          rintro ⟨h, l, tl, -, -, -, hbs⟩
          cases hbs
      | cons b bs =>
          rw [encode_cons, List.map_cons, List.map_cons, List.cons.injEq,
            List.cons.injEq, ← ih]
          constructor
          · rintro ⟨h, l, tl, hh, hl, htl, hbs⟩
            obtain ⟨hb, rfl⟩ := List.cons.inj hbs
            obtain ⟨hh16, hhi⟩ := (value_eq_some_iff _ _).mp hh
            obtain ⟨hl16, hlo⟩ := (value_eq_some_iff _ _).mp hl
            obtain ⟨rfl, rfl⟩ := (halves_eq_iff hh16 hl16).mp hb
            exact ⟨hhi, hlo, htl⟩
          · rintro ⟨hhi, hlo, htl⟩
            refine ⟨high b, low b, bs,
              (value_eq_some_iff _ _).mpr ⟨high_lt b, hhi⟩,
              (value_eq_some_iff _ _).mpr ⟨low_lt b, hlo⟩, htl, ?_⟩
            rw [(halves_eq_iff (high_lt b) (low_lt b)).mpr ⟨rfl, rfl⟩]

/-- What is written reads back. -/
theorem decode_encode (bs : List UInt8) : decode (encode bs) = some bs :=
  decode_eq_some_iff.mpr (map_lower_encode bs)

/-- What reads as anything: digits in pairs. -/
theorem exists_decode_iff (s : List UInt8) :
    (∃ bs, decode s = some bs) ↔ s.length % 2 = 0 ∧ ∀ c ∈ s, IsDigit c := by
  induction s using decode.induct with
  | case1 => exact iff_of_true ⟨[], rfl⟩ ⟨rfl, List.forall_mem_nil _⟩
  | case2 c =>
      refine iff_of_false ?_ ?_
      · rintro ⟨bs, h⟩
        cases h
      · rintro ⟨h, -⟩
        cases h
  | case3 hi lo rest ih =>
      have hlen : (hi :: lo :: rest).length % 2 = rest.length % 2 := by
        rw [List.length_cons, List.length_cons]
        omega
      rw [hlen, List.forall_mem_cons, List.forall_mem_cons,
        ← exists_value_iff hi, ← exists_value_iff lo]
      constructor
      · rintro ⟨bs, h⟩
        simp only [decode, bind, Option.bind_eq_some_iff] at h
        obtain ⟨h, hh, l, hl, tl, htl, -⟩ := h
        obtain ⟨heven, hdigits⟩ := ih.mp ⟨tl, htl⟩
        exact ⟨heven, ⟨h, hh⟩, ⟨l, hl⟩, hdigits⟩
      · rintro ⟨heven, ⟨h, hh⟩, ⟨l, hl⟩, hdigits⟩
        obtain ⟨tl, htl⟩ := ih.mpr ⟨heven, hdigits⟩
        refine ⟨(h <<< 4 ||| l) :: tl, ?_⟩
        rw [decode, hh, hl, htl]
        rfl

end Lib.Hex
