/-
Sources in front of one log. What a source adds goes to the end of its own
queue; the log takes from the queues, whichever it likes next, and a queue
may lose its first item instead.

`Ordered` is what survives this: per source, the items that were taken and
those behind them in the queue stand in a relation, each to every later
one. It is enough that an item stands in it to all that its source added
before (`Ordered.put`); the log then has every source's items in the order
in which they were added, and none of them twice if the relation is
irreflexive (`Ordered.logged`).
-/
import Mathlib.Data.List.Basic
import Mathlib.Logic.Function.Basic

namespace Lib.Merge

variable {ι α : Type} [DecidableEq ι] {src : α → ι} {R : α → α → Prop}

/-- The items of a source that were taken. -/
def taken (src : α → ι) (log : List α) (i : ι) : List α :=
  log.filter fun x => src x = i

/-- Queues that hold what their sources added, in the order of `R` also
with what was taken of them. -/
structure Ordered (src : α → ι) (R : α → α → Prop) (queue : ι → List α)
    (log : List α) : Prop where
  owned : ∀ i, ∀ x ∈ queue i, src x = i
  ordered : ∀ i, (taken src log i ++ queue i).Pairwise R

variable {queue : ι → List α} {log : List α}

theorem ordered_empty : Ordered src R (fun _ => []) [] :=
  ⟨fun _ _ hx => absurd hx List.not_mem_nil, fun _ => List.Pairwise.nil⟩

theorem taken_append_self {i : ι} {x : α} (h : src x = i) :
    taken src (log ++ [x]) i = taken src log i ++ [x] := by
  unfold taken
  rw [List.filter_append, List.filter_singleton, decide_eq_true h]
  rfl

theorem taken_append_ne {i : ι} {x : α} (h : src x ≠ i) :
    taken src (log ++ [x]) i = taken src log i := by
  unfold taken
  rw [List.filter_append, List.filter_singleton, decide_eq_false h]
  exact List.append_nil _

theorem mem_taken {i : ι} {x : α} :
    x ∈ taken src log i ↔ x ∈ log ∧ src x = i := by
  unfold taken
  rw [List.mem_filter, decide_eq_true_iff]

/-- A source adds an item that is later than all it added before. -/
theorem Ordered.put (h : Ordered src R queue log) {i : ι} {x : α}
    (hx : src x = i) (hlater : ∀ y ∈ taken src log i ++ queue i, R y x) :
    Ordered src R (Function.update queue i (queue i ++ [x])) log := by
  constructor
  · intro j y hy
    by_cases hj : j = i
    · subst hj
      rw [Function.update_self] at hy
      rcases List.mem_append.mp hy with hold | hnew
      · exact h.owned j y hold
      · rw [List.mem_singleton.mp hnew]
        exact hx
    · rw [Function.update_of_ne hj] at hy
      exact h.owned j y hy
  · intro j
    by_cases hj : j = i
    · subst hj
      rw [Function.update_self, ← List.append_assoc]
      apply List.pairwise_append.mpr
      refine ⟨h.ordered j, List.pairwise_singleton R x, ?_⟩
      intro y hy z hz
      rw [List.mem_singleton.mp hz]
      exact hlater y hy
    · rw [Function.update_of_ne hj]
      exact h.ordered j

/-- The first item of a queue is lost. -/
theorem Ordered.drop (h : Ordered src R queue log) {i : ι} {x : α}
    {xs : List α} (hq : queue i = x :: xs) :
    Ordered src R (Function.update queue i xs) log := by
  constructor
  · intro j y hy
    by_cases hj : j = i
    · subst hj
      rw [Function.update_self] at hy
      apply h.owned j y
      rw [hq]
      exact List.mem_cons_of_mem x hy
    · rw [Function.update_of_ne hj] at hy
      exact h.owned j y hy
  · intro j
    by_cases hj : j = i
    · subst hj
      rw [Function.update_self]
      have hall := h.ordered j
      rw [hq] at hall
      refine hall.sublist ?_
      exact List.Sublist.append_left (List.sublist_cons_self x xs) _
    · rw [Function.update_of_ne hj]
      exact h.ordered j

/-- The log takes the first item of a queue. -/
theorem Ordered.take (h : Ordered src R queue log) {i : ι} {x : α}
    {xs : List α} (hq : queue i = x :: xs) :
    Ordered src R (Function.update queue i xs) (log ++ [x]) := by
  have hx : src x = i := by
    apply h.owned i x
    rw [hq]
    exact List.mem_cons_self
  refine ⟨(h.drop hq).owned, ?_⟩
  intro j
  by_cases hj : j = i
  · subst hj
    rw [Function.update_self, taken_append_self hx, List.append_assoc,
      List.singleton_append, ← hq]
    exact h.ordered j
  · rw [Function.update_of_ne hj, taken_append_ne (hx ▸ Ne.symm hj)]
    exact h.ordered j

/-- The next item of a source is later than all that were taken of it. -/
theorem Ordered.next (h : Ordered src R queue log) {i : ι} {x : α}
    {xs : List α} (hq : queue i = x :: xs) :
    ∀ y ∈ taken src log i, R y x := by
  intro y hy
  have hall := h.ordered i
  rw [hq] at hall
  exact (List.pairwise_append.mp hall).2.2 y hy x List.mem_cons_self

theorem Ordered.logged (h : Ordered src R queue log) (i : ι) :
    (taken src log i).Pairwise R :=
  (List.pairwise_append.mp (h.ordered i)).1

end Lib.Merge
