/-
`Binary64.round` keeps the order of what it rounds.

Its integers compute the encoding of `Lib.Rounding` with 52 bits below
the leading one and a least weight of `2 ^ -1074`, cut off at infinity
(`round_eq`); significand and exponent are that encoding's, read back.
-/
import Mathlib.Algebra.Order.Archimedean.Basic
import Mathlib.Tactic.FieldSimp
import Obicall.Core.Binary64
import Obicall.Lib.Rounding

namespace Obicall.Binary64

open Lib.Rounding

-- ================================================================ packing

/-- The body of an infinity. -/
abbrev infBody : Nat := 2047 * 2 ^ 52

variable {neg : Bool} {b : Nat}

theorem toNat_bits_pack (h : b < 2 ^ 63) :
    (pack neg b).bits.toNat = b + if neg then 2 ^ 63 else 0 := by
  rw [pack, UInt64.toNat_ofNat']
  apply Nat.mod_eq_of_lt
  split <;> omega

theorem body_pack (h : b < 2 ^ 63) : (pack neg b).body = b := by
  rw [body, toNat_bits_pack h]
  cases neg with
  | false => exact Nat.mod_eq_of_lt h
  | true =>
      rw [if_pos rfl, Nat.add_mod_right]
      exact Nat.mod_eq_of_lt h

theorem negative_pack (h : b < 2 ^ 63) : (pack neg b).negative = neg := by
  rw [negative, toNat_bits_pack h]
  cases neg with
  | false => simpa using h
  | true => simp

theorem order_pack (h : b < 2 ^ 63) :
    (pack neg b).order = if neg then -(b : Int) else b := by
  rw [order, body_pack h, negative_pack h]

-- =============================================================== rounding

theorem nearest_eq (n : Nat) {d : Nat} (hd : 0 < d) :
    nearest n d = nearestEven ((n : ℚ) / d) := by
  have hd' : (0 : ℚ) < d := by exact_mod_cast hd
  have hn : (n : ℚ) = d * (n / d : Nat) + (n % d : Nat) := by
    exact_mod_cast (Nat.div_add_mod n d).symm
  have hfrac : 2 * ((n : ℚ) / d - (n / d : Nat)) = 2 * (n % d : Nat) / d := by
    field_simp
    linarith
  rw [nearestEven, Nat.floor_div_eq_div, nearest]
  simp only [hfrac, div_lt_one hd', one_lt_div hd']
  norm_cast

/-- A power of either sign, on the side where it is an integer. -/
theorem scale_eq (n : Nat) {d : Nat} (hd : 0 < d) (k : Int) :
    ((n * 2 ^ k.toNat : Nat) : ℚ) / (d * 2 ^ (-k).toNat : Nat)
      = n / d * 2 ^ k := by
  have hd' : (d : ℚ) ≠ 0 := by exact_mod_cast hd.ne'
  rcases Int.le_total 0 k with hk | hk
  · obtain ⟨m, rfl⟩ := Int.eq_ofNat_of_zero_le hk
    simp [zpow_natCast, mul_div_right_comm]
  · obtain ⟨m, hm⟩ := Int.eq_ofNat_of_zero_le (Int.neg_nonneg_of_nonpos hk)
    rw [show k = -(m : Int) by omega, zpow_neg, zpow_natCast]
    simp [div_eq_mul_inv, mul_assoc, mul_comm]

theorem scaled_eq (n : Nat) {d : Nat} (hd : 0 < d) (k : Int) :
    scaled n d k = nearestEven ((n : ℚ) / d * 2 ^ k) := by
  rw [scaled, nearest_eq _ (Nat.mul_pos hd (Nat.two_pow_pos _)),
    scale_eq n hd]

theorem lt_two_zpow_iff (n : Nat) {d : Nat} (hd : 0 < d) (k : Int) :
    n * 2 ^ (-k).toNat < d * 2 ^ k.toNat ↔ (n : ℚ) / d < 2 ^ k := by
  have hpos : (0 : ℚ) < (d * 2 ^ k.toNat : Nat) := by
    exact_mod_cast Nat.mul_pos hd (Nat.two_pow_pos _)
  have hscale := scale_eq n hd (-k)
  rw [neg_neg, zpow_neg, ← div_eq_mul_inv] at hscale
  have hone : (n : ℚ) / d < 2 ^ k ↔ (n : ℚ) / d / 2 ^ k < 1 :=
    (div_lt_one (zpow_pos two_pos k)).symm
  rw [hone, ← hscale, div_lt_one hpos, Nat.cast_lt]

/-- The exponent of the leading one of `n / d`, as `round` finds it. -/
theorem lead_eq {n d : Nat} (hn : 0 < n) (hd : 0 < d) :
    let guess : Int := Nat.log2 n - Nat.log2 d
    (if n * 2 ^ (-guess).toNat < d * 2 ^ guess.toNat then guess - 1
      else guess) = Int.log 2 ((n : ℚ) / d) := by
  intro guess
  have hd' : (0 : ℚ) < d := by exact_mod_cast hd
  have hn_low : (2 : ℚ) ^ (Nat.log2 n : Int) ≤ n := by
    exact_mod_cast Nat.log2_self_le hn.ne'
  have hn_high : (n : ℚ) < 2 ^ (Nat.log2 n + 1 : Int) := by
    exact_mod_cast Nat.lt_log2_self
  have hd_low : (2 : ℚ) ^ (Nat.log2 d : Int) ≤ d := by
    exact_mod_cast Nat.log2_self_le hd.ne'
  have hd_high : (d : ℚ) < 2 ^ (Nat.log2 d + 1 : Int) := by
    exact_mod_cast Nat.lt_log2_self
  by_cases hlt : (n : ℚ) / d < 2 ^ guess
  · rw [if_pos ((lt_two_zpow_iff n hd guess).mpr hlt)]
    refine (log_eq_of_mem ?_ (by rwa [sub_add_cancel])).symm
    rw [le_div_iff₀ hd']
    calc (2 : ℚ) ^ (guess - 1) * d
        ≤ 2 ^ (guess - 1) * 2 ^ (Nat.log2 d + 1 : Int) :=
          mul_le_mul_of_nonneg_left hd_high.le (zpow_pos two_pos _).le
      _ = 2 ^ (Nat.log2 n : Int) := by
          rw [← zpow_add₀ two_ne_zero]
          congr 1
          omega
      _ ≤ n := hn_low
  · rw [if_neg fun h => hlt ((lt_two_zpow_iff n hd guess).mp h)]
    refine (log_eq_of_mem (not_lt.mp hlt) ?_).symm
    rw [div_lt_iff₀ hd']
    calc (n : ℚ) < 2 ^ (Nat.log2 n + 1 : Int) := hn_high
      _ = 2 ^ (guess + 1) * 2 ^ (Nat.log2 d : Int) := by
          rw [← zpow_add₀ two_ne_zero]
          congr 1
          omega
      _ ≤ 2 ^ (guess + 1) * d :=
          mul_le_mul_of_nonneg_left hd_low (zpow_pos two_pos _).le

/-- The body of the number nearest to `n / d * 2 ^ e`: its encoding, cut
off at infinity. -/
def magnitude (n d : Nat) (e : Int) : Nat :=
  if n = 0 then 0
  else min (encode 52 (-1074) ((n : ℚ) / d * 2 ^ e)) infBody

theorem round_eq (neg : Bool) (n : Nat) {d : Nat} (hd : 0 < d) (e : Int) :
    round neg n d e = pack neg (magnitude n d e) := by
  rcases Nat.eq_zero_or_pos n with rfl | hn
  · rfl
  have hq : (0 : ℚ) < n / d :=
    div_pos (by exact_mod_cast hn) (by exact_mod_cast hd)
  have hlead := lead_eq hn hd
  dsimp only at hlead
  rw [round, magnitude, if_neg hn.ne', if_neg hn.ne', encode, unit,
    log_mul_two_zpow hq]
  dsimp only
  rw [hlead, scaled_eq n hd, mul_div_assoc, ← zpow_sub₀ two_ne_zero,
    sub_neg_eq_add]
  by_cases hinf : infBody ≤ (max (Int.log 2 ((n : ℚ) / d) + e - 52) (-1074)
      + 1074).toNat * 2 ^ 52 + nearestEven ((n : ℚ) / d
        * 2 ^ (e - max (Int.log 2 ((n : ℚ) / d) + e - 52) (-1074)))
  · rw [if_pos hinf]
    exact congrArg (pack neg) (min_eq_right hinf).symm
  · rw [if_neg hinf]
    exact congrArg (pack neg) (min_eq_left (Nat.le_of_not_le hinf)).symm

theorem magnitude_le (n d : Nat) (e : Int) : magnitude n d e ≤ infBody := by
  rw [magnitude]
  split
  · exact Nat.zero_le _
  · exact min_le_right ..

/-- Rounding keeps the order. -/
theorem magnitude_mono {n d n' d' : Nat} {e e' : Int} (hd : 0 < d)
    (h : (n : ℚ) / d * 2 ^ e ≤ n' / d' * 2 ^ e') :
    magnitude n d e ≤ magnitude n' d' e' := by
  rcases Nat.eq_zero_or_pos n with rfl | hn
  · exact Nat.zero_le _
  have hpos : (0 : ℚ) < n / d * 2 ^ e :=
    mul_pos (div_pos (by exact_mod_cast hn) (by exact_mod_cast hd))
      (zpow_pos two_pos e)
  have hn' : n' ≠ 0 := by
    rintro rfl
    rw [Nat.cast_zero, zero_div, zero_mul] at h
    exact absurd h (not_le.mpr hpos)
  rw [magnitude, magnitude, if_neg hn.ne', if_neg hn']
  exact min_le_min_right _ (encode_mono hpos h)

-- ============================================================== read back

theorem significand_eq (x : Binary64) :
    x.significand = Lib.Rounding.significand 52 x.body :=
  rfl

theorem exponent_eq (x : Binary64) :
    x.exponent = Lib.Rounding.exponent 52 (-1074) x.body := by
  rw [Binary64.exponent, Lib.Rounding.exponent, expField]
  omega

/-- The magnitude of a finite number. -/
def value (x : Binary64) : ℚ := decode 52 (-1074) x.body

theorem value_eq (x : Binary64) :
    x.value = x.significand * 2 ^ x.exponent := by
  rw [value, decode, ← significand_eq, ← exponent_eq]

end Obicall.Binary64
