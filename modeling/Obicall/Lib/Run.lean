/-
Runs of a deterministic system: a list of events folded through a step
function. The rules every development over such runs needs are stated
once, for any step function.

# The rules

- `run_inv`: an invariant of the step is an invariant of the run.
- `run_inv_of_mem`: the same when the step keeps it for events of a kind,
  for runs of such events.
- `run_inv_of_meets`: the same when the step keeps the invariant only
  under a condition on the state before it and the event, for runs whose
  steps all meet the condition (`Meets`).
- `run_trace`: the same for what relates the state to the events so far.
  `run_trace_of_pairwise` is for events that stand in a relation, each to
  every later one.
- `run_iff_meets`: a property of the state that a step keeps exactly
  when it meets the condition holds at the end of a run exactly when
  every step meets it.
- `always_iff_meets`: a property that a step keeps exactly when it meets
  the condition holds all along a run exactly when every step meets it.
- `meets_of_inv`: an invariant that implies the condition makes every
  step meet it.
- `run_mono_of_meets`: what no step of a kind lowers only grows along a
  run of such steps.
- `run_simulates`: when some steps of another system do what one step
  does, a run of it does what a run does, event by event.
-/
import Mathlib.Data.List.Basic
import Mathlib.Data.List.Forall2

namespace Lib.Run

variable {σ ε : Type}

/-- The state after a list of events. -/
def run (step : σ → ε → σ) (s : σ) (es : List ε) : σ := es.foldl step s

variable {step : σ → ε → σ}

@[simp] theorem run_nil (s : σ) : run step s [] = s := rfl

@[simp] theorem run_cons (s : σ) (e : ε) (es : List ε) :
    run step s (e :: es) = run step (step s e) es := rfl

theorem run_append (s : σ) (es fs : List ε) :
    run step s (es ++ fs) = run step (run step s es) fs :=
  List.foldl_append ..

/-- An invariant of the step is an invariant of the run. -/
theorem run_inv {P : σ → Prop} (hstep : ∀ s e, P s → P (step s e))
    {s : σ} (hs : P s) (es : List ε) : P (run step s es) := by
  induction es generalizing s with
  | nil => exact hs
  | cons e es ih => exact ih (hstep s e hs)

/-- What the step keeps for events that meet `C` is an invariant of the
runs of such events. -/
theorem run_inv_of_mem {P : σ → Prop} {C : ε → Prop}
    (hstep : ∀ s e, C e → P s → P (step s e)) {s : σ} (hs : P s)
    {es : List ε} (hes : ∀ e ∈ es, C e) : P (run step s es) := by
  induction es generalizing s with
  | nil => exact hs
  | cons e es ih =>
      obtain ⟨he, hes⟩ := List.forall_mem_cons.mp hes
      exact ih (hstep s e he hs) hes

/-- What relates the events so far to the state, and is kept by every
event that meets `C` and stands in `R` to those before it, holds at the
end of a run of such events. -/
theorem run_trace_of_pairwise {P : List ε → σ → Prop} {C : ε → Prop}
    {R : ε → ε → Prop}
    (hstep : ∀ es s e, C e → (∀ d ∈ es, R d e) → P es s →
      P (es ++ [e]) (step s e))
    {es : List ε} {s : σ} (hs : P es s) {fs : List ε} (hfs : ∀ f ∈ fs, C f)
    (hpair : (es ++ fs).Pairwise R) : P (es ++ fs) (run step s fs) := by
  induction fs generalizing es s with
  | nil =>
      rw [List.append_nil]
      exact hs
  | cons f fs ih =>
      obtain ⟨hf, hfs⟩ := List.forall_mem_cons.mp hfs
      have hbefore : ∀ d ∈ es, R d f := fun d hd =>
        (List.pairwise_append.mp hpair).2.2 d hd f List.mem_cons_self
      rw [List.append_cons] at hpair ⊢
      exact ih (hstep es s f hf hbefore hs) hfs hpair

/-- The same for events in any order. -/
theorem run_trace {P : List ε → σ → Prop} {C : ε → Prop}
    (hstep : ∀ es s e, C e → P es s → P (es ++ [e]) (step s e))
    {es : List ε} {s : σ} (hs : P es s) {fs : List ε} (hfs : ∀ f ∈ fs, C f) :
    P (es ++ fs) (run step s fs) :=
  run_trace_of_pairwise (R := fun _ _ => True)
    (fun es s e hC _ => hstep es s e hC) hs hfs
    (List.pairwise_of_forall fun _ _ => trivial)

/-- Every step of the run from `s` meets `C`. -/
def Meets (step : σ → ε → σ) (C : σ → ε → Prop) : σ → List ε → Prop
  | _, [] => True
  | s, e :: es => C s e ∧ Meets step C (step s e) es

instance decidableMeets {C : σ → ε → Prop} [∀ s e, Decidable (C s e)] :
    ∀ (s : σ) (es : List ε), Decidable (Meets step C s es)
  | _, [] => inferInstanceAs (Decidable True)
  | s, e :: es =>
      have := decidableMeets (C := C) (step s e) es
      inferInstanceAs (Decidable (C s e ∧ Meets step C (step s e) es))

theorem meets_congr {C D : σ → ε → Prop} (h : ∀ s e, C s e ↔ D s e) (s : σ)
    (es : List ε) : Meets step C s es ↔ Meets step D s es := by
  induction es generalizing s with
  | nil => exact Iff.rfl
  | cons e es ih => exact and_congr (h s e) (ih (step s e))

theorem meets_append {C : σ → ε → Prop} (s : σ) (es fs : List ε) :
    Meets step C s (es ++ fs)
      ↔ Meets step C s es ∧ Meets step C (run step s es) fs := by
  induction es generalizing s with
  | nil => exact (and_iff_right trivial).symm
  | cons e es ih =>
      rw [List.cons_append, Meets, Meets, ih, run_cons, and_assoc]

/-- An invariant the step keeps under a condition is an invariant of the
runs whose steps all meet it. -/
theorem run_inv_of_meets {P : σ → Prop} {C : σ → ε → Prop}
    (hstep : ∀ s e, P s → C s e → P (step s e)) {s : σ} (hs : P s)
    {es : List ε} (hes : Meets step C s es) : P (run step s es) := by
  induction es generalizing s with
  | nil => exact hs
  | cons e es ih => exact ih (hstep s e hs hes.1) hes.2

/-- What a step keeps exactly when it meets `C`, given the invariant `I`,
a run keeps exactly when all its steps do. -/
theorem run_iff_meets {I P : σ → Prop} {C : σ → ε → Prop}
    (hinv : ∀ s e, I s → I (step s e))
    (hstep : ∀ s e, I s → (P (step s e) ↔ P s ∧ C s e)) {s : σ} (hs : I s)
    (es : List ε) : P (run step s es) ↔ P s ∧ Meets step C s es := by
  induction es generalizing s with
  | nil => exact (and_iff_left trivial).symm
  | cons e es ih =>
      rw [run_cons, ih (hinv s e hs), hstep s e hs, and_assoc]
      rfl

/-- What holds at the start, and after a step from where it holds exactly
when the step meets `C`, holds all along a run exactly when all its steps
do. -/
theorem always_iff_meets {P : σ → Prop} {C : σ → ε → Prop}
    (hstep : ∀ s e, P s → (P (step s e) ↔ C s e)) {s : σ} (hs : P s)
    (es : List ε) :
    (∀ n, P (run step s (es.take n))) ↔ Meets step C s es := by
  induction es generalizing s with
  | nil =>
      refine iff_of_true (fun n => ?_) trivial
      rw [List.take_nil]
      exact hs
  | cons e es ih =>
      constructor
      · intro h
        have hfirst := h 1
        rw [List.take_succ_cons, List.take_zero] at hfirst
        refine ⟨(hstep s e hs).mp hfirst, (ih hfirst).mp fun n => ?_⟩
        have hnext := h (n + 1)
        rwa [List.take_succ_cons, run_cons] at hnext
      · rintro ⟨he, hes⟩ n
        have hfirst := (hstep s e hs).mpr he
        cases n with
        | zero => exact hs
        | succ n =>
            rw [List.take_succ_cons, run_cons]
            exact (ih hfirst).mpr hes n

/-- What an invariant implies, every step of a run meets. -/
theorem meets_of_inv {P : σ → Prop} {C : σ → ε → Prop}
    (hstep : ∀ s e, P s → P (step s e)) (hC : ∀ s e, P s → C s e) {s : σ}
    (hs : P s) (es : List ε) : Meets step C s es := by
  induction es generalizing s with
  | nil => trivial
  | cons e es ih => exact ⟨hC s e hs, ih (hstep s e hs)⟩

/-- What no step that meets `C` lowers is never lower later in a run of such
steps. -/
theorem run_mono_of_meets {α : Type} {R : α → α → Prop} {f : σ → α}
    {C : σ → ε → Prop} (hrefl : ∀ a, R a a)
    (htrans : ∀ a b c, R a b → R b c → R a c)
    (hstep : ∀ s e, C s e → R (f s) (f (step s e))) {s : σ} {es : List ε}
    (hes : Meets step C s es) {m n : Nat} (hmn : m ≤ n) :
    R (f (run step s (es.take m))) (f (run step s (es.take n))) := by
  have hprefix : (es.take n).take m = es.take m := by
    rw [List.take_take, Nat.min_eq_left hmn]
  have hsplit : es.take n = es.take m ++ (es.take n).drop m := by
    rw [← hprefix, List.take_append_drop]
  have hall : Meets step C s (es.take n) := by
    rw [← List.take_append_drop n es, meets_append] at hes
    exact hes.1
  rw [hsplit, meets_append] at hall
  rw [hsplit, run_append]
  exact run_inv_of_meets (P := fun s' => R (f (run step s (es.take m))) (f s'))
    (fun s' e hs' hC => htrans _ _ _ hs' (hstep s' e hC)) (hrefl _) hall.2

/-- When what an event does, some events that stand for it (`As`) do in
another system, then for a run of such events there is one of the other
system, made of what stands for each of them. -/
theorem run_simulates {τ φ : Type} {step' : τ → φ → τ} {P : σ → τ → Prop}
    {C : σ → ε → Prop} {As : ε → List φ → Prop}
    (hstep : ∀ s t e, P s t → C s e →
      ∃ fs, As e fs ∧ P (step s e) (run step' t fs))
    {s : σ} {t : τ} (h : P s t) {es : List ε} (hes : Meets step C s es) :
    ∃ fss, List.Forall₂ As es fss
      ∧ P (run step s es) (run step' t fss.flatten) := by
  induction es generalizing s t with
  | nil => exact ⟨[], .nil, h⟩
  | cons e es ih =>
      obtain ⟨fs, hfs, hnext⟩ := hstep s t e h hes.1
      obtain ⟨fss, hfss, hend⟩ := ih hnext hes.2
      refine ⟨fs :: fss, .cons hfs hfss, ?_⟩
      rw [List.flatten_cons, run_append]
      exact hend

end Lib.Run
