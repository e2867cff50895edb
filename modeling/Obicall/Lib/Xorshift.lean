/-
The two steps an xorshift generator is made of: a word xored with itself
shifted. Neither loses anything, since the bits that were shifted in are
known, and from them the others, one after the other. A generator that
does not start at zero therefore never comes to zero, where it would stay.
-/
import Mathlib.Data.BitVec

namespace Lib.Xorshift

variable {w : Nat}

/-- `x ^= x << k`. -/
def shl (k : Nat) (x : BitVec w) : BitVec w := x ^^^ (x <<< k)

/-- `x ^= x >> k`. -/
def shr (k : Nat) (x : BitVec w) : BitVec w := x ^^^ (x >>> k)

variable {k : Nat}

theorem shl_injective (hk : 0 < k) : Function.Injective (shl (w := w) k) := by
  intro x y h
  apply BitVec.eq_of_getLsbD_eq
  intro i hi
  -- from the lowest bit upwards
  induction i using Nat.strong_induction_on with
  | _ i ih =>
      have hbit := congrArg (fun z : BitVec w => z.getLsbD i) h
      unfold shl at hbit
      simp only [BitVec.getLsbD_xor, BitVec.getLsbD_shiftLeft] at hbit
      by_cases hik : i < k
      · simpa [hik] using hbit
      · have hlow : x.getLsbD (i - k) = y.getLsbD (i - k) :=
          ih (i - k) (by omega) (by omega)
        rw [hlow] at hbit
        exact Bool.xor_left_inj.mp hbit

theorem shr_injective (hk : 0 < k) : Function.Injective (shr (w := w) k) := by
  intro x y h
  apply BitVec.eq_of_getLsbD_eq
  intro i hi
  -- from the highest bit downwards
  induction hn : w - i using Nat.strong_induction_on generalizing i with
  | _ n ih =>
      have hbit := congrArg (fun z : BitVec w => z.getLsbD i) h
      unfold shr at hbit
      simp only [BitVec.getLsbD_xor, BitVec.getLsbD_ushiftRight] at hbit
      have hhigh : x.getLsbD (k + i) = y.getLsbD (k + i) := by
        by_cases hki : k + i < w
        · exact ih (w - (k + i)) (by omega) (k + i) hki rfl
        · rw [BitVec.getLsbD_of_ge _ _ (by omega),
            BitVec.getLsbD_of_ge _ _ (by omega)]
      rw [hhigh] at hbit
      exact Bool.xor_left_inj.mp hbit

@[simp] theorem shl_zero : shl k (0#w) = 0#w := by
  unfold shl
  simp

@[simp] theorem shr_zero : shr k (0#w) = 0#w := by
  unfold shr
  simp

theorem shl_ne_zero (hk : 0 < k) {x : BitVec w} (hx : x ≠ 0#w) :
    shl k x ≠ 0#w := fun h =>
  hx (shl_injective hk (h.trans shl_zero.symm))

theorem shr_ne_zero (hk : 0 < k) {x : BitVec w} (hx : x ≠ 0#w) :
    shr k x ≠ 0#w := fun h =>
  hx (shr_injective hk (h.trans shr_zero.symm))

end Lib.Xorshift
