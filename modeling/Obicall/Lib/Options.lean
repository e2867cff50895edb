/-
Command lines made of options with values, as a program writes them for
another that looks its options up by name.

The reader takes the word behind the first one that is the name, and does
not know which words are names and which are values. `valueAfter_spell`
is what makes that work: it finds the option's own value when no value is
itself spelled like the name.
-/
import Mathlib.Data.List.Basic

namespace Lib.Options

variable {α : Type}

/-- Options with their values, word by word. -/
def spell (opts : List (α × α)) : List α := opts.flatMap fun o => [o.1, o.2]

theorem spell_cons (o : α × α) (opts : List (α × α)) :
    spell (o :: opts) = o.1 :: o.2 :: spell opts := rfl

@[simp] theorem length_spell (opts : List (α × α)) :
    (spell opts).length = 2 * opts.length := by
  induction opts with
  | nil => rfl
  | cons o opts ih =>
      rw [spell_cons, List.length_cons, List.length_cons, ih,
        List.length_cons]
      omega

variable [BEq α] [LawfulBEq α]

/-- The word behind the first one that is `name`. -/
def valueAfter (name : α) : List α → Option α
  | a :: b :: rest =>
      if a == name then some b else valueAfter name (b :: rest)
  | _ => none

/-- A name that does not occur has no value. -/
theorem valueAfter_eq_none {name : α} {ws : List α} (h : name ∉ ws) :
    valueAfter name ws = none := by
  induction ws with
  | nil => rfl
  | cons a ws ih =>
      obtain ⟨ha, hws⟩ := not_or.mp (mt List.mem_cons.mpr h)
      cases ws with
      | nil => rfl
      | cons b ws =>
          unfold valueAfter
          rw [if_neg fun h => ha (eq_of_beq h).symm]
          exact ih hws

theorem valueAfter_skip {name a : α} {ws : List α} (h : a ≠ name) :
    valueAfter name (a :: ws) = valueAfter name ws := by
  cases ws with
  | nil => rfl
  | cons b ws =>
      rw [valueAfter, if_neg (mt eq_of_beq h)]

/-- The first one decides, whatever comes behind it. -/
theorem valueAfter_head (name v : α) (rest : List α) :
    valueAfter name (name :: v :: rest) = some v := by
  rw [valueAfter, if_pos (beq_self_eq_true name)]

/-- Behind the options may stand words that are no options. -/
theorem valueAfter_spell {name : α} {opts : List (α × α)} {ws : List α}
    (hopts : ∀ o ∈ opts, o.2 ≠ name) (hws : name ∉ ws) :
    valueAfter name (spell opts ++ ws) = opts.lookup name := by
  induction opts with
  | nil => exact valueAfter_eq_none hws
  | cons o opts ih =>
      obtain ⟨ho, hopts⟩ := List.forall_mem_cons.mp hopts
      rw [spell_cons, List.cons_append, List.cons_append]
      by_cases hname : o.1 = name
      · rw [hname, valueAfter_head, List.lookup_cons, hname,
          beq_self_eq_true]
      · rw [valueAfter_skip hname, valueAfter_skip ho, ih hopts,
          List.lookup_cons, beq_eq_false_iff_ne.mpr fun h => hname h.symm]

end Lib.Options
