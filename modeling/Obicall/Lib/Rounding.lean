/-
Rounding to a binary floating-point format, to nearest with ties to
even, as a function on the numbers of an ordered field.

A positive number keeps the bits down to `p` below its leading one, but
none below the weight `2 ^ emin` (`unit`). Exponent and significand in
one natural number make its `encode`; a significand that is rounded up
to `2 ^ (p + 1)` carries into the exponent by itself. `decode` is the
number that stands for a code.

Both directions keep the order (`encode_mono`, `decode_mono`): the codes
of two numbers compare as the numbers do, ties and gradual underflow
included.
-/
import Mathlib.Algebra.Order.Floor.Semifield
import Mathlib.Data.Int.Log
import Mathlib.Tactic.Linarith
import Mathlib.Tactic.Ring

namespace Lib.Rounding

variable {K : Type} [Field K] [LinearOrder K] [IsStrictOrderedRing K]
  [FloorSemiring K]

-- =============================================================== integers

/-- The nearest natural number, of two equally near ones the even. -/
def nearestEven (x : K) : ℕ :=
  let q := ⌊x⌋₊
  if 2 * (x - q) < 1 then q
  else if 1 < 2 * (x - q) then q + 1
  else q + q % 2

/-- What is rounded above `m`: past the middle of `m` and `m + 1`, or in
the middle if `m` is odd. -/
theorem lt_nearestEven_iff {x : K} (hx : 0 ≤ x) (m : ℕ) :
    m < nearestEven x
      ↔ 2 * (m : K) + 1 < 2 * x ∨ 2 * (m : K) + 1 = 2 * x ∧ m % 2 = 1 := by
  have hle := Nat.floor_le hx
  have hlt := Nat.lt_floor_add_one x
  rw [nearestEven]
  generalize ⌊x⌋₊ = q at hle hlt
  rcases Nat.lt_trichotomy m q with hm | rfl | hm
  · have hmq : (m : K) + 1 ≤ q := by exact_mod_cast hm
    refine iff_of_true ?_ (.inl (by linarith))
    split_ifs <;> omega
  · split_ifs with hlow hhigh
    · refine iff_of_false (lt_irrefl m) ?_
      rintro (h | ⟨h, -⟩) <;> linarith
    · exact iff_of_true (Nat.lt_succ_self m) (.inl (by linarith))
    · have htie : 2 * (m : K) + 1 = 2 * x := by linarith
      rw [htie]
      constructor
      · exact fun h => .inr ⟨rfl, by omega⟩
      · rintro (h | ⟨-, h⟩)
        · exact absurd h (lt_irrefl _)
        · omega
  · have hmq : (q : K) + 1 ≤ m := by exact_mod_cast hm
    refine iff_of_false ?_ ?_
    · split_ifs <;> omega
    · rintro (h | ⟨h, -⟩) <;> linarith

theorem nearestEven_mono {x y : K} (hx : 0 ≤ x) (h : x ≤ y) :
    nearestEven x ≤ nearestEven y := by
  refine Nat.le_of_not_lt fun hlt => ?_
  rcases (lt_nearestEven_iff hx _).mp hlt with hx' | ⟨hx', hodd⟩
  · exact lt_irrefl _
      ((lt_nearestEven_iff (hx.trans h) _).mpr (.inl (by linarith)))
  · rcases h.lt_or_eq with h | rfl
    · exact lt_irrefl _
        ((lt_nearestEven_iff (hx.trans h.le) _).mpr (.inl (by linarith)))
    · exact lt_irrefl _
        ((lt_nearestEven_iff hx _).mpr (.inr ⟨hx', hodd⟩))

@[simp] theorem nearestEven_natCast (n : ℕ) : nearestEven (n : K) = n := by
  simp [nearestEven]

theorem nearestEven_le {x : K} (hx : 0 ≤ x) {n : ℕ} (h : x ≤ n) :
    nearestEven x ≤ n :=
  (nearestEven_mono hx h).trans_eq (nearestEven_natCast n)

theorem le_nearestEven {x : K} {n : ℕ} (h : (n : K) ≤ x) :
    n ≤ nearestEven x :=
  (nearestEven_natCast (K := K) n).symm.trans_le
    (nearestEven_mono n.cast_nonneg h)

-- =============================================================== encoding

variable (p : ℕ) (emin : ℤ)

/-- The exponent of the last bit that is kept. -/
def unit (x : K) : ℤ := max (Int.log 2 x - p) emin

def encode (x : K) : ℕ :=
  (unit p emin x - emin).toNat * 2 ^ p
    + nearestEven (x / 2 ^ unit p emin x)

variable {p emin}

theorem log_eq_of_mem {x : K} {k : ℤ} (hlow : (2 : K) ^ k ≤ x)
    (hhigh : x < (2 : K) ^ (k + 1)) : Int.log 2 x = k := by
  have hx : 0 < x := lt_of_lt_of_le (zpow_pos two_pos k) hlow
  refine le_antisymm (Int.lt_add_one_iff.mp ?_) ?_
  · exact (Int.lt_zpow_iff_log_lt one_lt_two hx).mp (by exact_mod_cast hhigh)
  · exact (Int.zpow_le_iff_le_log one_lt_two hx).mp (by exact_mod_cast hlow)

theorem log_mul_two_zpow {x : K} (hx : 0 < x) (e : ℤ) :
    Int.log 2 (x * 2 ^ e) = Int.log 2 x + e := by
  have hpos : (0 : K) < 2 ^ e := zpow_pos two_pos e
  have hlow : (2 : K) ^ Int.log 2 x ≤ x := by
    exact_mod_cast Int.zpow_log_le_self one_lt_two hx
  have hhigh : x < (2 : K) ^ (Int.log 2 x + 1) := by
    exact_mod_cast Int.lt_zpow_succ_log_self one_lt_two x
  refine log_eq_of_mem ?_ ?_
  · rw [zpow_add₀ two_ne_zero]
    exact mul_le_mul_of_nonneg_right hlow hpos.le
  · rw [add_right_comm, zpow_add₀ two_ne_zero]
    exact mul_lt_mul_of_pos_right hhigh hpos

theorem div_unit_lt {x : K} : x / 2 ^ unit p emin x < 2 ^ (p + 1) := by
  have hlog : x < (2 : K) ^ (Int.log 2 x + 1) := by
    exact_mod_cast Int.lt_zpow_succ_log_self one_lt_two x
  have hle : Int.log 2 x + 1 ≤ (p + 1 : ℕ) + unit p emin x := by
    have := le_max_left (Int.log 2 x - p) emin
    rw [unit]
    omega
  rw [div_lt_iff₀ (zpow_pos two_pos _), ← zpow_natCast,
    ← zpow_add₀ two_ne_zero]
  exact hlog.trans_le (zpow_le_zpow_right₀ one_le_two hle)

theorem le_div_unit {x : K} (hx : 0 < x) (h : emin < unit p emin x) :
    (2 : K) ^ p ≤ x / 2 ^ unit p emin x := by
  have hlog : (2 : K) ^ Int.log 2 x ≤ x := by
    exact_mod_cast Int.zpow_log_le_self one_lt_two hx
  have hunit : unit p emin x = Int.log 2 x - p := by
    rw [unit] at h ⊢
    omega
  rw [le_div_iff₀ (zpow_pos two_pos _), ← zpow_natCast,
    ← zpow_add₀ two_ne_zero, hunit, add_sub_cancel]
  exact hlog

/-- Codes compare as the numbers do. -/
theorem encode_mono {x y : K} (hx : 0 < x) (h : x ≤ y) :
    encode p emin x ≤ encode p emin y := by
  have hlog : Int.log 2 x ≤ Int.log 2 y := Int.log_mono_right hx h
  have hunit : unit p emin x ≤ unit p emin y := by
    rw [unit, unit]
    omega
  have hmin : emin ≤ unit p emin x := le_max_right ..
  rcases hunit.eq_or_lt with heq | hlt
  · rw [encode, encode, ← heq]
    have hpos : (0 : K) < 2 ^ unit p emin x := zpow_pos two_pos _
    have := nearestEven_mono (div_nonneg hx.le hpos.le)
      (div_le_div_of_nonneg_right h hpos.le)
    omega
  · -- `x` stays within one binade of its unit, and `y` starts a later one
    have hlow : x / 2 ^ unit p emin x < 2 ^ (p + 1) := div_unit_lt
    have hx' : nearestEven (x / 2 ^ unit p emin x) ≤ 2 ^ (p + 1) :=
      nearestEven_le (div_nonneg hx.le (zpow_pos two_pos _).le)
        (by exact_mod_cast hlow.le)
    have hy' : 2 ^ p ≤ nearestEven (y / 2 ^ unit p emin y) :=
      le_nearestEven
        (by exact_mod_cast le_div_unit (hx.trans_le h) (hmin.trans_lt hlt))
    have hexp : ((unit p emin x - emin).toNat + 1) * 2 ^ p
        ≤ (unit p emin y - emin).toNat * 2 ^ p :=
      Nat.mul_le_mul_right _ (by omega)
    rw [Nat.pow_succ] at hx'
    rw [Nat.add_mul] at hexp
    rw [encode, encode]
    omega

-- =============================================================== decoding

variable (p emin)

/-- The significand of a code, its leading bit included unless the
exponent is the least one. -/
def significand (c : ℕ) : ℕ :=
  if c / 2 ^ p = 0 then c else c % 2 ^ p + 2 ^ p

/-- The exponent that goes with it. -/
def exponent (c : ℕ) : ℤ := (max (c / 2 ^ p) 1 : ℕ) - 1 + emin

def decode (c : ℕ) : K := significand p c * 2 ^ exponent p emin c

variable {p emin}

theorem significand_lt (c : ℕ) : significand p c < 2 ^ (p + 1) := by
  have hpos : 0 < 2 ^ p := Nat.two_pow_pos p
  have hmod := Nat.mod_lt c hpos
  rw [significand, Nat.pow_succ]
  split_ifs with h
  · have := Nat.lt_of_div_eq_zero hpos h
    omega
  · omega

theorem significand_mono {c d : ℕ} (h : c ≤ d)
    (hexp : max (c / 2 ^ p) 1 = max (d / 2 ^ p) 1) :
    significand p c ≤ significand p d := by
  have hpos : 0 < 2 ^ p := Nat.two_pow_pos p
  have hc := Nat.div_add_mod c (2 ^ p)
  have hd := Nat.div_add_mod d (2 ^ p)
  have hdiv : c / 2 ^ p ≤ d / 2 ^ p := Nat.div_le_div_right h
  rw [significand, significand]
  split_ifs with hc0 hd0 hd0
  · exact h
  · have := Nat.lt_of_div_eq_zero hpos hc0
    omega
  · exact absurd (Nat.le_zero.mp (hd0 ▸ hdiv)) hc0
  · have heq : c / 2 ^ p = d / 2 ^ p := by
      rwa [max_eq_left (Nat.pos_of_ne_zero hc0),
        max_eq_left (Nat.pos_of_ne_zero hd0)] at hexp
    rw [heq] at hc
    omega

/-- A larger code is a larger number. -/
theorem decode_mono {c d : ℕ} (h : c ≤ d) :
    (decode p emin c : K) ≤ decode p emin d := by
  have hdiv : c / 2 ^ p ≤ d / 2 ^ p := Nat.div_le_div_right h
  rcases (max_le_max_right 1 hdiv).eq_or_lt with heq | hlt
  · rw [decode, decode, exponent, exponent, heq]
    exact mul_le_mul_of_nonneg_right
      (by exact_mod_cast significand_mono h heq) (zpow_pos two_pos _).le
  · have hsig : (2 : K) ^ p ≤ significand p d := by
      rw [significand, if_neg (by omega)]
      exact_mod_cast Nat.le_add_left ..
    calc (decode p emin c : K)
        ≤ 2 ^ (p + 1) * 2 ^ exponent p emin c := by
          refine mul_le_mul_of_nonneg_right ?_ (zpow_pos two_pos _).le
          exact_mod_cast (significand_lt c).le
      _ = 2 ^ p * 2 ^ (exponent p emin c + 1) := by
          rw [zpow_add_one₀ two_ne_zero, pow_succ]
          ring
      _ ≤ significand p d * 2 ^ exponent p emin d := by
          refine mul_le_mul hsig (zpow_le_zpow_right₀ one_le_two ?_)
            (zpow_pos two_pos _).le (Nat.cast_nonneg _)
          rw [exponent, exponent]
          omega

end Lib.Rounding
