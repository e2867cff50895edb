/-
Kahn's algorithm: order vertices so that each stands behind the ones it
waits for. Every vertex carries the number of entries it still waits for;
one with none left is queued, and taking it from the queue puts it at the
end of the order and releases the vertices that wait for it.

# Entries and vertices

A vertex may list another one several times. The count is of entries, but
a release takes one off however often the released vertex is listed, so
a vertex with a repeated entry is never queued. `Sorting` is what a round
keeps, and `Sorting.complete_iff` says when all that is needed ends up in
the order: there is no cycle, and no list has an entry twice.
-/
import Mathlib.Data.Fintype.EquivFin
import Mathlib.Logic.Function.Basic
import Mathlib.Logic.Relation
import Mathlib.Order.WellFounded

namespace Lib.Kahn

open Relation

variable {V : Type}

/-- The counts, the vertices with nothing left to wait for, and those
already in order. -/
structure State (V : Type) where
  indegree : V → Nat
  queue : List V
  order : List V

section algorithm

variable [DecidableEq V] (needed : V → Bool) (waits : V → V → Bool)

/-- `i` is in order: one entry less for `j`, if it waits for `i`. -/
def State.release (i : V) (s : State V) (j : V) : State V :=
  if !needed j || s.indegree j == 0 then s
  else if waits j i then
    { s with
      indegree := Function.update s.indegree j (s.indegree j - 1)
      queue := if s.indegree j - 1 == 0 then s.queue ++ [j] else s.queue }
  else s

/-- At most `fuel` rounds. -/
def State.sort (vertices : List V) : Nat → State V → State V
  | 0, s => s
  | fuel + 1, s =>
      match s.queue with
      | [] => s
      | i :: queue =>
          State.sort vertices fuel
            (vertices.foldl (State.release needed waits i)
              { s with queue := queue, order := s.order ++ [i] })

/-- A release changes the count of `j`. -/
def State.releases (s : State V) (i j : V) : Bool :=
  needed j && s.indegree j != 0 && waits j i

variable {needed waits}

theorem release_of_releases {s : State V} {i j : V}
    (h : s.releases needed waits i j = true) :
    s.release needed waits i j =
      { s with
        indegree := Function.update s.indegree j (s.indegree j - 1)
        queue := if s.indegree j == 1 then s.queue ++ [j] else s.queue } := by
  simp only [State.releases, Bool.and_eq_true, bne_iff_ne] at h
  obtain ⟨⟨hneeded, hpos⟩, hwaits⟩ := h
  have hlast : (s.indegree j - 1 == 0) = (s.indegree j == 1) := by
    rw [Bool.eq_iff_iff, beq_iff_eq, beq_iff_eq]
    omega
  simp [State.release, hneeded, hpos, hwaits, hlast]

theorem release_of_not_releases {s : State V} {i j : V}
    (h : s.releases needed waits i j = false) :
    s.release needed waits i j = s := by
  simp only [State.releases] at h
  rw [State.release]
  split
  · rfl
  next hpos =>
    rw [Bool.or_eq_true, not_or, Bool.not_eq_true, Bool.not_eq_false',
      Bool.not_eq_true] at hpos
    simp only [bne, hpos.1, hpos.2, Bool.not_false, Bool.true_and] at h
    rw [h]
    rfl

/-- What the loop over all vertices does: one entry less for each that is
released, and those with none left are queued. -/
theorem foldl_release {vertices : List V} (hnodup : vertices.Nodup) (i : V)
    (s : State V) :
    vertices.foldl (State.release needed waits i) s =
      { indegree := fun j =>
          if j ∈ vertices ∧ s.releases needed waits i j = true
          then s.indegree j - 1 else s.indegree j
        queue := s.queue ++ vertices.filter fun j =>
          s.releases needed waits i j && s.indegree j == 1
        order := s.order } := by
  induction vertices generalizing s with
  | nil => simp
  | cons j vertices ih =>
      obtain ⟨hj, hnodup⟩ := List.nodup_cons.mp hnodup
      rw [List.foldl_cons, ih hnodup]
      cases hrel : s.releases needed waits i j with
      | false =>
          rw [release_of_not_releases hrel,
            List.filter_cons_of_neg (by simp [hrel])]
          congr 1
          funext k
          by_cases hk : k = j
          · simp [hk, hrel]
          · simp [hk]
      | true =>
          -- the rest of the loop sees the counts of the others only
          rw [release_of_releases hrel]
          have hother : ∀ k ∈ vertices, k ≠ j := fun k hk heq => hj (heq ▸ hk)
          congr 1
          · funext k
            by_cases hk : k = j
            · simp [hk, hj, hrel]
            · simp [hk, State.releases]
          · have hfilter : vertices.filter (fun k =>
                  State.releases needed waits { s with
                    indegree := Function.update s.indegree j (s.indegree j - 1)
                    queue := if s.indegree j == 1 then s.queue ++ [j]
                      else s.queue } i k
                    && Function.update s.indegree j (s.indegree j - 1) k == 1)
                = vertices.filter (fun k =>
                  s.releases needed waits i k && s.indegree k == 1) := by
              refine List.filter_congr fun k hk => ?_
              simp [State.releases, hother k hk]
            rw [hfilter, List.filter_cons, hrel, Bool.true_and]
            split
            · rw [List.append_assoc]
              rfl
            · rfl

end algorithm

-- ================================================================= rounds

variable [DecidableEq V] (deps : V → List V) (needed : V → Bool)

/-- What a round keeps. -/
structure Sorting (s : State V) : Prop where
  nodup : (s.order ++ s.queue).Nodup
  mem : ∀ v, v ∈ s.order ++ s.queue ↔ needed v = true ∧ s.indegree v = 0
  count : ∀ v, needed v = true →
    s.indegree v + (s.order.filter (· ∈ deps v)).length = (deps v).length
  earlier : ∀ (q : Nat) (v : V), s.order[q]? = some v → ∀ w ∈ deps v,
    ∃ p, p < q ∧ s.order[p]? = some w

variable {deps needed} {waits : V → V → Bool} {s : State V}

omit [DecidableEq V] in
/-- As many of the entries are met as there are: each is met, and none is
repeated. -/
theorem perm_of_length_le {l m : List V} (hl : l.Nodup) (hsub : l ⊆ m)
    (hlen : m.length ≤ l.length) : l.Perm m :=
  (List.subperm_of_subset hl hsub).perm_of_length_le hlen

/-- The entries met so far. -/
theorem met_perm (h : Sorting deps needed s) {v : V} (hv : needed v = true)
    (hzero : s.indegree v = 0) :
    (s.order.filter (· ∈ deps v)).Perm (deps v) := by
  have hcount := h.count v hv
  have horder : s.order.Nodup := (List.nodup_append.mp h.nodup).1
  refine perm_of_length_le (horder.filter _) ?_ (by omega)
  intro w hw
  simpa using (List.mem_filter.mp hw).2

/-- A vertex not in order is not among the entries of one with none
left. -/
theorem not_mem_deps (h : Sorting deps needed s) {v i : V}
    (hv : needed v = true) (hzero : s.indegree v = 0) (hi : i ∉ s.order) :
    i ∉ deps v := by
  intro hmem
  rw [← (met_perm h hv hzero).mem_iff] at hmem
  exact hi (List.mem_filter.mp hmem).1

/-- The head of the queue has nothing left to wait for, and is not in
order yet. -/
theorem head_of_queue (h : Sorting deps needed s) {i : V} {queue : List V}
    (hqueue : s.queue = i :: queue) :
    needed i = true ∧ s.indegree i = 0 ∧ i ∉ s.order := by
  have hin : i ∈ s.queue := hqueue ▸ List.mem_cons_self
  obtain ⟨hi, hzero⟩ := (h.mem i).mp (List.mem_append_right _ hin)
  refine ⟨hi, hzero, fun horder => ?_⟩
  exact (List.nodup_append.mp h.nodup).2.2 i horder i hin rfl

variable (deps needed) in
/-- A round takes `i` from the queue and leaves `rest` of it. A vertex
that lists `i` has an entry less to wait for, and those with none left
are queued. -/
structure Round (s : State V) (i : V) (rest : List V) (s' : State V) :
    Prop where
  order : s'.order = s.order ++ [i]
  queue : ∃ released, s'.queue = rest ++ released ∧ released.Nodup
    ∧ ∀ v, v ∈ released ↔ needed v = true ∧ s.indegree v = 1 ∧ i ∈ deps v
  indegree : ∀ v, needed v = true →
    s'.indegree v + (if i ∈ deps v then 1 else 0) = s.indegree v

/-- What the loop over all vertices is to the needed ones. -/
theorem round_release (h : Sorting deps needed s)
    (hwaits : ∀ i j, needed i = true → needed j = true →
      (waits j i = true ↔ i ∈ deps j))
    {vertices : List V} (hvertices : vertices.Nodup)
    (hall : ∀ v, needed v = true → v ∈ vertices) {i : V} {queue : List V}
    (hqueue : s.queue = i :: queue) :
    Round deps needed s i queue
      (vertices.foldl (State.release needed waits i)
        { s with queue := queue, order := s.order ++ [i] }) := by
  obtain ⟨hi, -, hfresh⟩ := head_of_queue h hqueue
  rw [foldl_release hvertices]
  set s₀ : State V := { s with queue := queue, order := s.order ++ [i] }
  have hrel : ∀ v, s₀.releases needed waits i v = true
      ↔ needed v = true ∧ s.indegree v ≠ 0 ∧ i ∈ deps v := by
    intro v
    rw [State.releases, Bool.and_eq_true, Bool.and_eq_true, bne_iff_ne,
      and_assoc]
    refine and_congr_right fun hv => and_congr_right fun _ => ?_
    exact hwaits i v hi hv
  refine ⟨rfl, ⟨_, rfl, hvertices.filter _, fun v => ?_⟩, fun v hv => ?_⟩
  · rw [List.mem_filter, Bool.and_eq_true, hrel, beq_iff_eq]
    constructor
    · rintro ⟨-, ⟨hv, -, hiv⟩, hone⟩
      exact ⟨hv, hone, hiv⟩
    · rintro ⟨hv, hone, hiv⟩
      exact ⟨hall v hv, ⟨hv, by omega, hiv⟩, hone⟩
  · dsimp only
    by_cases hiv : i ∈ deps v
    · have hpos : s.indegree v ≠ 0 := fun hzero =>
        not_mem_deps h hv hzero hfresh hiv
      rw [if_pos ⟨hall v hv, (hrel v).mpr ⟨hv, hpos, hiv⟩⟩, if_pos hiv]
      exact Nat.sub_add_cancel (Nat.pos_of_ne_zero hpos)
    · rw [if_neg fun hand => hiv ((hrel v).mp hand.2).2.2, if_neg hiv]
      exact Nat.add_zero _

/-- What `i` waited for is in front of it when it joins the order. -/
theorem earlier_append (h : Sorting deps needed s) {i : V}
    (hi : needed i = true) (hzero : s.indegree i = 0) {q : Nat} {v : V}
    (hq : (s.order ++ [i])[q]? = some v) {w : V} (hw : w ∈ deps v) :
    ∃ p, p < q ∧ (s.order ++ [i])[p]? = some w := by
  rcases Nat.lt_or_ge q s.order.length with hlt | hge
  · rw [List.getElem?_append_left hlt] at hq
    obtain ⟨p, hp, hpw⟩ := h.earlier q v hq w hw
    exact ⟨p, hp, by rw [List.getElem?_append_left (hp.trans hlt), hpw]⟩
  · rw [List.getElem?_append_right hge, List.getElem?_singleton] at hq
    split at hq
    next hlast =>
      obtain rfl := Option.some.inj hq
      rw [← (met_perm h hi hzero).mem_iff] at hw
      obtain ⟨p, hp, hpw⟩ := List.mem_iff_getElem.mp (List.mem_filter.mp hw).1
      refine ⟨p, by omega, ?_⟩
      rw [List.getElem?_append_left hp, List.getElem?_eq_getElem hp, hpw]
    next => cases hq

/-- The state after a round. -/
theorem sorting_round (h : Sorting deps needed s) {i : V} {queue : List V}
    (hqueue : s.queue = i :: queue) {s' : State V}
    (hround : Round deps needed s i queue s') : Sorting deps needed s' := by
  obtain ⟨hi, hzero, -⟩ := head_of_queue h hqueue
  obtain ⟨horder, ⟨released, hqueue', hreleased, hnew⟩, hdegree⟩ := hround
  have happ : s'.order ++ s'.queue = (s.order ++ s.queue) ++ released := by
    rw [horder, hqueue', hqueue]
    simp only [List.append_assoc, List.cons_append, List.nil_append]
  constructor
  · rw [happ, List.nodup_append]
    refine ⟨h.nodup, hreleased, fun v hv w hw heq => ?_⟩
    have hv := ((h.mem v).mp hv).2
    have hw := ((hnew w).mp hw).2.1
    rw [heq, hw] at hv
    cases hv
  · intro v
    rw [happ, List.mem_append, h.mem, hnew]
    by_cases hv : needed v = true
    · have hdegree := hdegree v hv
      simp only [hv, true_and]
      by_cases hiv : i ∈ deps v
      · rw [if_pos hiv] at hdegree
        simp only [hiv, and_true]
        omega
      · rw [if_neg hiv] at hdegree
        simp only [hiv, and_false, or_false]
        omega
    · simp [hv]
  · intro v hv
    have hcount := h.count v hv
    have hdegree := hdegree v hv
    rw [horder, List.filter_append, List.length_append]
    by_cases hiv : i ∈ deps v
    · rw [if_pos hiv] at hdegree
      rw [List.filter_cons_of_pos (by simpa using hiv), List.filter_nil,
        List.length_singleton]
      omega
    · rw [if_neg hiv] at hdegree
      rw [List.filter_cons_of_neg (by simpa using hiv), List.filter_nil,
        List.length_nil]
      omega
  · intro q v hq w hw
    rw [horder] at hq ⊢
    exact earlier_append h hi hzero hq hw

-- ================================================================ the sort

/-- The state before the first round. -/
theorem sorting_start {vertices : List V} (hvertices : vertices.Nodup)
    (hall : ∀ v, needed v = true → v ∈ vertices) {indegree : V → Nat}
    (hdegree : ∀ v, needed v = true → indegree v = (deps v).length) :
    Sorting deps needed
      { indegree := indegree
        queue := vertices.filter fun v => needed v && indegree v == 0
        order := [] } where
  nodup := hvertices.filter _
  mem v := by
    rw [List.nil_append, List.mem_filter, Bool.and_eq_true, beq_iff_eq]
    exact and_iff_right_of_imp fun hv => hall v hv.1
  count v hv := hdegree v hv
  earlier q v hq := by cases hq

/-- Enough rounds empty the queue. -/
theorem sorting_sort [Fintype V]
    (hwaits : ∀ i j, needed i = true → needed j = true →
      (waits j i = true ↔ i ∈ deps j))
    {vertices : List V} (hvertices : vertices.Nodup)
    (hall : ∀ v, needed v = true → v ∈ vertices) {fuel : Nat}
    (h : Sorting deps needed s)
    (hfuel : Fintype.card V ≤ s.order.length + fuel) :
    Sorting deps needed (s.sort needed waits vertices fuel)
      ∧ (s.sort needed waits vertices fuel).queue = [] := by
  induction fuel generalizing s with
  | zero =>
      refine ⟨h, List.eq_nil_of_length_eq_zero ?_⟩
      have hle := h.nodup.length_le_card
      rw [List.length_append] at hle
      change s.queue.length = 0
      omega
  | succ fuel ih =>
      rw [State.sort]
      cases hqueue : s.queue with
      | nil => exact ⟨h, hqueue⟩
      | cons i queue =>
          have hround := round_release h hwaits hvertices hall hqueue
          refine ih (sorting_round h hqueue hround) ?_
          rw [hround.order, List.length_append, List.length_singleton]
          omega

theorem needed_of_mem_order (h : Sorting deps needed s) {v : V}
    (hv : v ∈ s.order) : needed v = true :=
  ((h.mem v).mp (List.mem_append_left _ hv)).1

/-- The length tells whether all that is needed is in order. -/
theorem length_eq_iff (h : Sorting deps needed s) {all : List V}
    (hall : all.Nodup) (hmem : ∀ v, v ∈ all ↔ needed v = true) :
    s.order.length = all.length ↔ ∀ v, needed v = true → v ∈ s.order := by
  have horder : s.order.Nodup := (List.nodup_append.mp h.nodup).1
  have hsub : s.order ⊆ all := fun v hv =>
    (hmem v).mpr (needed_of_mem_order h hv)
  constructor
  · intro hlen v hv
    rw [(perm_of_length_le horder hsub hlen.ge).mem_iff, hmem]
    exact hv
  · intro hin
    refine Nat.le_antisymm (List.subperm_of_subset horder hsub).length_le ?_
    exact (List.subperm_of_subset hall fun v hv =>
      hin v ((hmem v).mp hv)).length_le

/-- Along a path the places in the order fall. -/
theorem earlier_of_path (h : Sorting deps needed s) {v w : V}
    (hpath : TransGen (fun v w => w ∈ deps v) v w) {q : Nat}
    (hq : s.order[q]? = some v) : ∃ p, p < q ∧ s.order[p]? = some w := by
  induction hpath with
  | single hw => exact h.earlier q v hq _ hw
  | tail _ hw ih =>
      obtain ⟨p, hp, hpv⟩ := ih
      obtain ⟨p', hp', hpw⟩ := h.earlier p _ hpv _ hw
      exact ⟨p', hp'.trans hp, hpw⟩

/-- With the queue empty, all that is needed is in order exactly when no
needed vertex repeats an entry and none waits for itself, however far
round. -/
theorem Sorting.complete_iff [Fintype V] (h : Sorting deps needed s)
    (hqueue : s.queue = [])
    (hclosed : ∀ v, needed v = true → ∀ w ∈ deps v, needed w = true) :
    (∀ v, needed v = true → v ∈ s.order)
      ↔ (∀ v, needed v = true → (deps v).Nodup)
        ∧ ∀ v, needed v = true → ¬ TransGen (fun v w => w ∈ deps v) v v := by
  have hmem : ∀ v, v ∈ s.order ↔ needed v = true ∧ s.indegree v = 0 := by
    intro v
    rw [← h.mem, hqueue, List.append_nil]
  constructor
  · intro hall
    refine ⟨fun v hv => ?_, fun v hv hcycle => ?_⟩
    · have hperm := met_perm h hv ((hmem v).mp (hall v hv)).2
      exact hperm.nodup_iff.mp ((List.nodup_append.mp h.nodup).1.filter _)
    · -- a vertex on a cycle would stand before itself
      obtain ⟨q, hq, hqv⟩ := List.mem_iff_getElem.mp (hall v hv)
      have hq' : s.order[q]? = some v := by
        rw [List.getElem?_eq_getElem hq, hqv]
      obtain ⟨p, hp, hpv⟩ := earlier_of_path h hcycle hq'
      have horder : s.order.Nodup := (List.nodup_append.mp h.nodup).1
      obtain ⟨hp', hpv⟩ := List.getElem?_eq_some_iff.mp hpv
      have := (horder.getElem_inj_iff).mp (hpv.trans hqv.symm)
      omega
  · rintro ⟨hdistinct, hacyclic⟩ v
    let r : V → V → Prop := fun w v =>
      needed v = true ∧ TransGen (fun v w => w ∈ deps v) v w
    have : IsTrans V r := ⟨fun _ _ _ hab hbc => ⟨hbc.1, hbc.2.trans hab.2⟩⟩
    have : Std.Irrefl r := ⟨fun v hv => hacyclic v hv.1 hv.2⟩
    -- induction along the entries: all of them are in order already
    induction v using (Finite.wellFounded_of_trans_of_irrefl r).induction with
    | _ v ih =>
        intro hv
        have hmet : deps v ⊆ s.order.filter (· ∈ deps v) := by
          intro w hw
          have hin := ih w ⟨hv, .single hw⟩ (hclosed v hv w hw)
          exact List.mem_filter.mpr ⟨hin, by simpa using hw⟩
        have hlen := ((hdistinct v hv).subperm hmet).length_le
        have hcount := h.count v hv
        exact (hmem v).mpr ⟨hv, by omega⟩

end Lib.Kahn
