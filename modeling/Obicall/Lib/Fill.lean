/-
A text written piece by piece into limited room: each element of a list
has a code, and the loop goes on while the longest code, and one place
behind it, still fit.

# What is written

`fill_eq`: the codes of the first elements, none of them cut, and those of
all where the room is wide enough for that many longest codes.
`length_fill_lt`: the place behind the text is left.
-/
import Mathlib.Data.List.Basic

namespace Lib.Fill

variable {α β : Type} (code : α → List β) (longest cap : Nat)

/-- The loop; `out` is what is written so far. -/
def fill : List α → List β → List β
  | [], out => out
  | x :: xs, out =>
      if out.length + longest < cap then fill xs (out ++ code x) else out

variable {code longest cap}

section

variable (hcode : ∀ x, (code x).length ≤ longest)

include hcode

theorem length_fill_lt (xs : List α) {out : List β} (hout : out.length < cap) :
    (fill code longest cap xs out).length < cap := by
  induction xs generalizing out with
  | nil => exact hout
  | cons x xs ih =>
      rw [fill]
      by_cases hroom : out.length + longest < cap
      · rw [if_pos hroom]
        apply ih
        have hlen := hcode x
        rw [List.length_append]
        omega
      · rw [if_neg hroom]
        exact hout

theorem fill_eq (cap : Nat) (xs : List α) (out : List β) :
    ∃ taken, taken <+: xs
      ∧ fill code longest cap xs out = out ++ taken.flatMap code
      ∧ (out.length + longest * xs.length < cap → taken = xs) := by
  induction xs generalizing out with
  | nil => exact ⟨[], List.nil_prefix, (List.append_nil out).symm, fun _ => rfl⟩
  | cons x xs ih =>
      rw [fill]
      by_cases hroom : out.length + longest < cap
      · rw [if_pos hroom]
        obtain ⟨taken, htaken, heq, hall⟩ := ih (out ++ code x)
        refine ⟨x :: taken, List.cons_prefix_cons.mpr ⟨rfl, htaken⟩, ?_, ?_⟩
        · rw [heq, List.flatMap_cons, List.append_assoc]
        · intro hwide
          have hlen := hcode x
          rw [List.length_cons, Nat.mul_add_one] at hwide
          rw [hall]
          rw [List.length_append]
          omega
      · rw [if_neg hroom]
        refine ⟨[], List.nil_prefix, (List.append_nil out).symm, ?_⟩
        intro hwide
        rw [List.length_cons, Nat.mul_add_one] at hwide
        omega

end

end Lib.Fill
