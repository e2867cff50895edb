/-
Estimates of one number, each a mean and a variance, in their information
form: the precision and the mean times the precision. Independent
estimates fuse by adding these, so fusing is as associative and
commutative as adding.

# The rules

- `total_perm`, `total_append`: the information of a list does not depend
  on its order, and that of two lists is the sum.
- `information_estimate`: an estimate made from information has that
  information, so a fused estimate may be fused again
  (`total_pair_estimate`).
- `exists_mean_le`, `exists_le_mean`: a fused mean is between the least
  and the greatest.
- `variance_le`: a fused variance is at most each variance.
-/
import Mathlib.Algebra.Group.Prod
import Mathlib.Algebra.Order.BigOperators.Group.List
import Mathlib.Algebra.Order.Field.Basic
import Mathlib.Tactic.FieldSimp
import Mathlib.Tactic.Ring

namespace Lib.Fusion

variable {K : Type} [Field K]

/-- Precision, and mean times precision. -/
def information (p : K × K) : K × K := (1 / p.2, p.1 * (1 / p.2))

/-- The estimate with this information. -/
def estimate (i : K × K) : K × K := (i.2 / i.1, 1 / i.1)

/-- The information of a list of estimates. -/
def total (l : List (K × K)) : K × K := (l.map information).sum

theorem total_cons (p : K × K) (l : List (K × K)) :
    total (p :: l) = information p + total l := List.sum_cons

theorem total_append (l l' : List (K × K)) :
    total (l ++ l') = total l + total l' := by
  rw [total, List.map_append, List.sum_append]
  rfl

theorem total_perm {l l' : List (K × K)} (h : l.Perm l') :
    total l = total l' :=
  (h.map information).sum_eq

/-- Nothing is lost in an estimate. -/
theorem information_estimate {i : K × K} (h : i.1 ≠ 0) :
    information (estimate i) = i := by
  rw [information, estimate, one_div_one_div, div_mul_cancel₀ _ h]

/-- Two fused estimates fuse to what all their estimates do. -/
theorem total_pair_estimate {i j : K × K} (hi : i.1 ≠ 0) (hj : j.1 ≠ 0) :
    total [estimate i, estimate j] = i + j := by
  rw [total_cons, total_cons, information_estimate hi,
    information_estimate hj]
  exact congrArg (i + ·) (add_zero j)

/-- The deviations from a number, each with its precision as weight. -/
theorem sum_deviation (l : List (K × K)) (c : K) :
    (l.map fun p => (p.1 - c) * (1 / p.2)).sum
      = (total l).2 - c * (total l).1 := by
  induction l with
  | nil =>
      change 0 = 0 - c * 0
      rw [mul_zero, sub_zero]
  | cons p l ih =>
      rw [List.map_cons, List.sum_cons, ih, total_cons]
      simp only [information, Prod.fst_add, Prod.snd_add]
      ring

variable [LinearOrder K] [IsStrictOrderedRing K]

section Positive

variable {l : List (K × K)} (hl : l ≠ []) (hpos : ∀ p ∈ l, 0 < p.2)
include hpos

/-- Each estimate has less precision than all together. -/
theorem precision_le {p : K × K} (hp : p ∈ l) : 1 / p.2 ≤ (total l).1 := by
  have hfst : (total l).1 = (l.map fun p => 1 / p.2).sum := by
    clear hp hpos
    induction l with
    | nil => rfl
    | cons p l ih => rw [total_cons, Prod.fst_add, ih, List.map_cons,
        List.sum_cons, information]
  rw [hfst]
  refine List.single_le_sum (fun x hx => ?_) _ (List.mem_map_of_mem hp)
  obtain ⟨q, hq, rfl⟩ := List.mem_map.mp hx
  exact (one_div_pos.mpr (hpos q hq)).le

theorem variance_le {p : K × K} (hp : p ∈ l) :
    (estimate (total l)).2 ≤ p.2 := by
  have hle := one_div_le_one_div_of_le (one_div_pos.mpr (hpos p hp))
    (precision_le hpos hp)
  rwa [one_div_one_div] at hle

include hl

theorem precision_pos : 0 < (total l).1 := by
  obtain ⟨p, hp⟩ := List.exists_mem_of_ne_nil l hl
  exact (one_div_pos.mpr (hpos p hp)).trans_le (precision_le hpos hp)

/-- The deviations from the fused mean cancel. -/
theorem sum_deviation_estimate :
    (l.map fun p => (p.1 - (estimate (total l)).1) * (1 / p.2)).sum
      = (l.map fun _ => (0 : K)).sum := by
  rw [sum_deviation, estimate, div_mul_cancel₀ _ (precision_pos hl hpos).ne',
    sub_self, List.sum_map_zero]

theorem exists_mean_le : ∃ p ∈ l, p.1 ≤ (estimate (total l)).1 := by
  obtain ⟨p, hp, hle⟩ := List.exists_le_of_sum_le hl _ _
    (sum_deviation_estimate hl hpos).le
  exact ⟨p, hp, sub_nonpos.mp
    (nonpos_of_mul_nonpos_left hle (one_div_pos.mpr (hpos p hp)))⟩

theorem exists_le_mean : ∃ p ∈ l, (estimate (total l)).1 ≤ p.1 := by
  obtain ⟨p, hp, hle⟩ := List.exists_le_of_sum_le hl _ _
    (sum_deviation_estimate hl hpos).ge
  exact ⟨p, hp, sub_nonneg.mp
    (nonneg_of_mul_nonneg_left hle (one_div_pos.mpr (hpos p hp)))⟩

end Positive

end Lib.Fusion
