/-
Two copies of one deterministic system that take the same events, each
with a local input of its own (its clock, say) to every event.

# The rule

Fix the part of a state the copies are compared on (`view`) and what a
step lets through of the local input (`clue`). When the view after a
step is a function of the view before it, the event and the clue
(`Factors`), two copies that start with one view and get the same clues
have one view after any run (`run_view_eq`). What the local input does
to the rest of the state is nobody's business.
-/
import Obicall.Lib.Run

namespace Lib.Replica

open Lib.Run

variable {σ ε ι ν κ : Type}

/-- Both copies take one event. -/
def both (step : σ → ε → ι → σ) (s : σ × σ) (e : ε × ι × ι) : σ × σ :=
  (step s.1 e.1 e.2.1, step s.2 e.1 e.2.2)

/-- The local input reaches the view through the clue only. -/
def Factors (step : σ → ε → ι → σ) (view : σ → ν) (clue : σ → ε → ι → κ)
    (next : ν → ε → κ → ν) : Prop :=
  ∀ s e i, view (step s e i) = next (view s) e (clue s e i)

variable {step : σ → ε → ι → σ} {view : σ → ν} {clue : σ → ε → ι → κ}
  {next : ν → ε → κ → ν}

/-- Copies that get the same clues keep the same view. -/
theorem run_view_eq (hf : Factors step view clue next)
    {C : σ × σ → ε × ι × ι → Prop}
    (hC : ∀ s e, view s.1 = view s.2 → C s e →
      clue s.1 e.1 e.2.1 = clue s.2 e.1 e.2.2)
    {s : σ × σ} (hs : view s.1 = view s.2) {es : List (ε × ι × ι)}
    (hes : Meets (both step) C s es) :
    view (run (both step) s es).1 = view (run (both step) s es).2 := by
  refine run_inv_of_meets (P := fun s => view s.1 = view s.2) ?_ hs hes
  intro s e hview hc
  show view (step s.1 e.1 e.2.1) = view (step s.2 e.1 e.2.2)
  rw [hf, hf, hview, hC s e hview hc]

end Lib.Replica
