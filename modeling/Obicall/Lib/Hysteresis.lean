/-
Selectors with a memory: each step selects from what it is given and what
it selected before. A selector is steady on an input when it stands by
its own selection there: given the same input again, it selects the same.

One step then reaches a selection that a constant input keeps, so the
selection changes no oftener than the input does, the first step apart
(`changes_selections_le`).
-/
import Mathlib.Data.List.Basic

namespace Lib.Hysteresis

variable {E S A : Type}

-- ================================================================ changes

/-- How many neighbours in a list differ. -/
def changes [DecidableEq A] : List A → Nat
  | a :: b :: l => (if a = b then 0 else 1) + changes (b :: l)
  | _ => 0

theorem change_le_one (p : Prop) [Decidable p] : (if p then 0 else 1) ≤ 1 := by
  split
  · exact Nat.zero_le 1
  · exact Nat.le_refl 1

theorem change_le {p q : Prop} [Decidable p] [Decidable q] (h : p → q) :
    (if q then 0 else 1) ≤ if p then 0 else 1 := by
  by_cases hp : p
  · refine Nat.le_of_eq ?_
    rw [if_pos hp, if_pos (h hp)]
  · rw [if_neg hp]
    exact change_le_one q

theorem changes_map_le [DecidableEq S] [DecidableEq A] (f : S → A)
    (l : List S) : changes (l.map f) ≤ changes l := by
  induction l with
  | nil => exact Nat.le_refl 0
  | cons a l ih =>
      cases l with
      | nil => exact Nat.le_refl 0
      | cons b l => exact Nat.add_le_add (change_le (congrArg f)) ih

-- ============================================================= selections

/-- What is selected from one input after the other. -/
def selections (select : E → Option S → S) : Option S → List E → List S
  | _, [] => []
  | prev, e :: es =>
      select e prev :: selections select (some (select e prev)) es

/-- The selector stands by what it selects from `e`. -/
def Steady (select : E → Option S → S) (e : E) : Prop :=
  ∀ prev, select e (some (select e prev)) = select e prev

variable {select : E → Option S → S}

/-- A selection that the current input keeps changes with the input. -/
theorem changes_kept_le [DecidableEq E] [DecidableEq S] {e : E} {s : S}
    (hkept : select e (some s) = s) {es : List E}
    (hsteady : ∀ e ∈ es, Steady select e) :
    changes (s :: selections select (some s) es) ≤ changes (e :: es) := by
  induction es generalizing e s with
  | nil => exact Nat.le_refl 0
  | cons e' es ih =>
      obtain ⟨hfirst, hrest⟩ := List.forall_mem_cons.mp hsteady
      refine Nat.add_le_add (change_le ?_) (ih (hfirst (some s)) hrest)
      rintro rfl
      exact hkept.symm

/-- From any selection before, the selection changes at most once more
often than the input. -/
theorem changes_selections_le [DecidableEq E] [DecidableEq S]
    (prev : Option S) {es : List E} (hsteady : ∀ e ∈ es, Steady select e) :
    changes (prev :: (selections select prev es).map some)
      ≤ changes es + 1 := by
  cases es with
  | nil => exact Nat.zero_le 1
  | cons e es =>
      obtain ⟨hfirst, hrest⟩ := List.forall_mem_cons.mp hsteady
      have hkept := changes_kept_le (hfirst prev) hrest
      rw [selections, List.map_cons, changes, Nat.add_comm]
      refine Nat.add_le_add ?_ (change_le_one _)
      exact Nat.le_trans (changes_map_le some (_ :: _)) hkept

/-- Under a constant input the first selection stays. -/
theorem selections_replicate {e : E} (hsteady : Steady select e)
    (prev : Option S) (n : Nat) :
    selections select prev (List.replicate n e)
      = List.replicate n (select e prev) := by
  induction n generalizing prev with
  | zero => rfl
  | succ n ih =>
      rw [List.replicate_succ, selections, ih, hsteady prev,
        List.replicate_succ]

end Lib.Hysteresis
