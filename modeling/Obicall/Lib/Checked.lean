/-
Loops over memory that has an end: a read past it is no read (`none`),
and so is the run that asks for it.

A loop all of whose reads succeed does what the loop on plain values does
(`allM_eq_some`, `foldlM_eq_some`). A loop that may give up runs to its
end exactly when no turn gives up (`foldlM_range_succeeds`).

A loop with no bound of its own (`loop`) is given a number of turns, and
fails when they are used up. It comes to the result of the plain function
when each turn does one step of it and has less left to do
(`loop_eq_some`).
-/
import Mathlib.Data.List.Basic

namespace Lib.Checked

variable {α β : Type}

theorem allM_eq_some {read : α → Option Bool} {p : α → Bool} {xs : List α}
    (h : ∀ x ∈ xs, read x = some (p x)) :
    xs.allM read = some (xs.all p) := by
  induction xs with
  | nil => rfl
  | cons x xs ih =>
      obtain ⟨hx, hxs⟩ := List.forall_mem_cons.mp h
      rw [List.allM, hx, List.all_cons]
      cases p x with
      | false => rfl
      | true => exact ih hxs

/-- A turn may rely on what the turns before it left. -/
theorem foldlM_eq_some {read : β → α → Option β} {f : β → α → β}
    {P : β → Prop} {xs : List α}
    (h : ∀ b, P b → ∀ x ∈ xs, read b x = some (f b x) ∧ P (f b x))
    {b : β} (hb : P b) :
    xs.foldlM read b = some (xs.foldl f b) ∧ P (xs.foldl f b) := by
  induction xs generalizing b with
  | nil => exact ⟨rfl, hb⟩
  | cons x xs ih =>
      obtain ⟨hread, hnext⟩ := h b hb x List.mem_cons_self
      rw [List.foldlM_cons, hread]
      exact ih (fun b hb x hx => h b hb x (List.mem_cons_of_mem _ hx)) hnext

/-- It succeeds exactly under this condition, and then with such a
result. -/
structure Succeeds (o : Option β) (C : Prop) (Q : β → Prop) : Prop where
  some : C → ∃ b, o = some b ∧ Q b
  none : ¬ C → o = none

theorem Succeeds.isSome_iff {o : Option β} {C : Prop} {Q : β → Prop}
    (h : Succeeds o C Q) : o.isSome = true ↔ C := by
  by_cases hC : C
  · obtain ⟨b, hb, -⟩ := h.some hC
    rw [hb]
    exact iff_of_true rfl hC
  · rw [h.none hC]
    exact iff_of_false nofun hC

/-- A loop over a range, whose invariant may name the turn. -/
theorem foldlM_range_succeeds {step : β → Nat → Option β}
    {P : Nat → β → Prop} {C : Nat → Prop} {b : β} (hb : P 0 b) (n : Nat)
    (h : ∀ k < n, ∀ b, P k b → Succeeds (step b k) (C k) (P (k + 1))) :
    Succeeds ((List.range n).foldlM step b) (∀ k < n, C k) (P n) := by
  induction n with
  | zero => exact ⟨fun _ => ⟨b, rfl, hb⟩, fun h => (h nofun).elim⟩
  | succ n ih =>
      have hinit := ih fun k hk => h k (Nat.lt_succ_of_lt hk)
      rw [List.range_succ, List.foldlM_append]
      simp only [Nat.forall_lt_succ_right]
      constructor
      · rintro ⟨hC, hlast⟩
        obtain ⟨b', hb', hP⟩ := hinit.some hC
        obtain ⟨b'', hb'', hP'⟩ := (h n n.lt_succ_self b' hP).some hlast
        rw [hb']
        refine ⟨b'', ?_, hP'⟩
        simp [hb'']
      · intro hno
        by_cases hC : ∀ k < n, C k
        · obtain ⟨b', hb', hP⟩ := hinit.some hC
          rw [hb']
          simp [(h n n.lt_succ_self b' hP).none fun hlast => hno ⟨hC, hlast⟩]
        · rw [hinit.none hC]
          rfl

-- ============================================================ while loops

variable {σ ρ : Type}

/-- What a turn leaves: the state of the next one, or the result. -/
inductive Turn (σ ρ : Type)
  | next (s : σ)
  | done (r : ρ)

/-- A loop, for at most `turns` turns. -/
def loop (turn : σ → Option (Turn σ ρ)) : Nat → σ → Option ρ
  | 0, _ => none
  | turns + 1, s =>
      match turn s with
      | none => none
      | some (.done r) => some r
      | some (.next s) => loop turn turns s

/-- A turn does not fail; it leaves with the result of the plain function,
or goes on to a smaller state with the same result. -/
inductive TurnOk (P : σ → Prop) (size : σ → Nat) (plain : σ → ρ) (s : σ) :
    Option (Turn σ ρ) → Prop
  | done {r : ρ} : r = plain s → TurnOk P size plain s (some (.done r))
  | next {s' : σ} : P s' → size s' < size s → plain s' = plain s →
      TurnOk P size plain s (some (.next s'))

theorem loop_eq_some {turn : σ → Option (Turn σ ρ)} {P : σ → Prop}
    {size : σ → Nat} {plain : σ → ρ}
    (h : ∀ s, P s → TurnOk P size plain s (turn s)) {turns : Nat} {s : σ}
    (hs : P s) (hturns : size s < turns) :
    loop turn turns s = some (plain s) := by
  induction turns generalizing s with
  | zero => cases hturns
  | succ turns ih =>
      have hstep := h s hs
      rw [loop]
      revert hstep
      cases turn s with
      | none => exact fun h => by cases h
      | some t =>
          rintro (hr | ⟨hs', hsize, hplain⟩)
          · exact congrArg some hr
          · exact (ih hs' (by omega)).trans (congrArg some hplain)

end Lib.Checked
