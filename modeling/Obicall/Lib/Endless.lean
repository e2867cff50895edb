/-
Endless runs of a deterministic system: a step function and a sequence of
events that does not end.

# The rules

- `stateAt_inv`: what every step keeps under a condition holds all along,
  when every event meets it.
- `stateAt_stays`: what every step keeps holds for ever once it holds.
- `eventually_of_fair`: when a kind of event keeps coming, and any event
  of it leads from `P` to `Q`, which no other step prevents, then `P`
  leads to `Q`.
-/
import Mathlib.Data.List.Basic

namespace Lib.Endless

variable {σ ε : Type}

/-- The state before event `n`. -/
def stateAt (step : σ → ε → σ) (s : σ) (es : Nat → ε) : Nat → σ
  | 0 => s
  | n + 1 => step (stateAt step s es n) (es n)

variable {step : σ → ε → σ} {s : σ} {es : Nat → ε}

theorem stateAt_inv {P : σ → Prop} {C : σ → ε → Prop}
    (hstep : ∀ s e, P s → C s e → P (step s e)) (hs : P s)
    (hes : ∀ n, C (stateAt step s es n) (es n)) (n : Nat) :
    P (stateAt step s es n) := by
  induction n with
  | zero => exact hs
  | succ n ih => exact hstep _ _ ih (hes n)

theorem stateAt_stays {P : σ → Prop}
    (hstep : ∀ s e, P s → P (step s e)) {n m : Nat} (hle : n ≤ m)
    (h : P (stateAt step s es n)) : P (stateAt step s es m) := by
  induction hle with
  | refl => exact h
  | step _ ih => exact hstep _ _ ih

/-- Until an event of the kind comes, the state stays in `P` or gets to
`Q` without it. -/
theorem eventually_of_fair {P Q : σ → Prop} (kind : ε → Prop)
    (hfair : ∀ n, ∃ m, n ≤ m ∧ kind (es m))
    (hkeep : ∀ s e, P s → P (step s e) ∨ Q (step s e))
    (hhit : ∀ s e, kind e → P s → Q (step s e)) {n : Nat}
    (h : P (stateAt step s es n)) :
    ∃ m, n ≤ m ∧ Q (stateAt step s es m) := by
  obtain ⟨m, hle, hkind⟩ := hfair n
  have huntil : P (stateAt step s es m)
      ∨ ∃ k, n ≤ k ∧ Q (stateAt step s es k) := by
    clear hkind
    induction hle with
    | refl => exact .inl h
    | step hle ih =>
        rcases ih with hP | hQ
        · rcases hkeep _ (es _) hP with hP' | hQ'
          · exact .inl hP'
          · exact .inr ⟨_, Nat.le_succ_of_le hle, hQ'⟩
        · exact .inr hQ
  rcases huntil with hP | hQ
  · exact ⟨m + 1, Nat.le_succ_of_le hle, hhit _ _ hkind hP⟩
  · exact hQ

end Lib.Endless
