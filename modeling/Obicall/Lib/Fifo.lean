/-
A bounded queue in a circular buffer of `n` slots with a head and a tail
index and no count: equal indices mean empty, and the slot before the
head stays unused, so it is full at `n - 1`.

# As a list

`contents` reads the buffer from the head up to the tail. Putting into a
queue that is not full appends to it, taking from one that is not empty
takes its first entry off, and the two boundary tests are about its
length (`put_contents`, `contents_of_head_ne`, `length_contents_lt`).
`drain` is the loop that takes everything out.
-/
import Mathlib.Algebra.Group.Fin.Basic
import Mathlib.Algebra.GroupWithZero.Nat
import Mathlib.Data.List.Basic
import Mathlib.Logic.Function.Basic

namespace Lib.Fifo

variable {α : Type} {n : Nat} [NeZero n]

-- ============================================================= the buffer

structure Queue (α : Type) (n : Nat) where
  slots : Fin n → α
  head : Fin n
  tail : Fin n

/-- The queue with nothing in it. -/
def Queue.empty (n : Nat) [NeZero n] (z : α) : Queue α n := ⟨fun _ => z, 0, 0⟩

/-- No room: the tail would run into the head. -/
def Queue.full (q : Queue α n) : Bool := q.tail + 1 = q.head

/-- Put at the tail; a full queue drops the entry. -/
def Queue.put (q : Queue α n) (x : α) : Queue α n :=
  if q.full then q
  else { q with slots := Function.update q.slots q.tail x, tail := q.tail + 1 }

/-- Take at most `fuel` entries, oldest first. -/
def Queue.drain : Nat → Queue α n → List α × Queue α n
  | 0, q => ([], q)
  | fuel + 1, q =>
      if q.head = q.tail then ([], q)
      else
        let (xs, q') := drain fuel { q with head := q.head + 1 }
        (q.slots q.head :: xs, q')

/-- How many entries are queued. -/
def Queue.size (q : Queue α n) : Nat := (q.tail - q.head).val

/-- The entries queued, oldest first. -/
def Queue.contents (q : Queue α n) : List α :=
  (List.range q.size).map fun k => q.slots (q.head + Fin.ofNat n k)

-- ================================================================ indices

/-- One more than an index that is not the last. -/
theorem val_add_one {a : Fin n} (h : a + 1 ≠ 0) : (a + 1).val = a.val + 1 := by
  have hmod : (a + 1).val = (a.val + 1) % n := by
    rw [Fin.val_add, Fin.val_one', Nat.add_mod_mod]
  rcases Nat.lt_or_ge (a.val + 1) n with hlt | hge
  · rw [hmod, Nat.mod_eq_of_lt hlt]
  · exfalso
    apply h
    apply Fin.ext
    have hn : a.val + 1 = n := Nat.le_antisymm a.isLt hge
    rw [hmod, hn, Nat.mod_self, Fin.val_zero]

theorem length_contents (q : Queue α n) : q.contents.length = q.size := by
  unfold Queue.contents
  rw [List.length_map, List.length_range]

/-- A queue never holds `n` entries. -/
theorem length_contents_lt (q : Queue α n) : q.contents.length < n := by
  rw [length_contents]
  exact (q.tail - q.head).isLt

@[simp] theorem contents_empty (z : α) :
    (Queue.empty n z).contents = [] := by
  unfold Queue.contents Queue.size Queue.empty
  rw [sub_self, Fin.val_zero]
  rfl

-- ==================================================================== put

theorem put_of_full {q : Queue α n} (h : q.full = true) (x : α) :
    q.put x = q := by
  unfold Queue.put
  rw [if_pos h]

/-- Putting appends. -/
theorem put_contents {q : Queue α n} (h : q.full = false) (x : α) :
    (q.put x).contents = q.contents ++ [x] := by
  have hne : q.tail + 1 ≠ q.head := by
    unfold Queue.full at h
    exact of_decide_eq_false h
  have hput : q.put x
      = { q with
          slots := Function.update q.slots q.tail x
          tail := q.tail + 1 } := by
    unfold Queue.put
    rw [if_neg (by rw [h]; exact Bool.false_ne_true)]
  have hshift : q.tail + 1 - q.head = (q.tail - q.head) + 1 :=
    (sub_add_eq_add_sub q.tail q.head 1).symm
  have hsize : (q.put x).size = q.size + 1 := by
    unfold Queue.size
    rw [hput]
    dsimp only
    rw [hshift, val_add_one]
    rw [← hshift]
    exact sub_ne_zero.mpr hne
  unfold Queue.contents
  rw [hsize, List.range_succ, List.map_append, List.map_singleton, hput]
  dsimp only
  have hlast : q.head + Fin.ofNat n q.size = q.tail := by
    have hof : Fin.ofNat n q.size = q.tail - q.head := by
      apply Fin.ext
      exact Nat.mod_eq_of_lt (q.tail - q.head).isLt
    rw [hof, add_sub_cancel]
  congr 1
  · apply List.map_congr_left
    intro k hk
    have hlt : k < q.size := List.mem_range.mp hk
    -- the slot written is past all the queued ones
    have hother : q.head + Fin.ofNat n k ≠ q.tail := by
      intro heq
      rw [← hlast] at heq
      have hval := congrArg Fin.val (add_left_cancel heq)
      have hsize_lt : q.size < n := (q.tail - q.head).isLt
      change k % n = q.size % n at hval
      rw [Nat.mod_eq_of_lt (by omega), Nat.mod_eq_of_lt hsize_lt] at hval
      omega
    rw [Function.update_of_ne hother]
  · rw [hlast, Function.update_self]

/-- Putting adds at most one entry. -/
theorem length_put_contents_le (q : Queue α n) (x : α) :
    (q.put x).contents.length ≤ q.contents.length + 1 := by
  cases hfull : q.full with
  | true =>
      rw [put_of_full hfull]
      omega
  | false =>
      rw [put_contents hfull, List.length_append, List.length_singleton]

-- =================================================================== take

theorem contents_of_head_eq {q : Queue α n} (h : q.head = q.tail) :
    q.contents = [] := by
  unfold Queue.contents Queue.size
  rw [h, sub_self, Fin.val_zero]
  rfl

/-- The oldest entry is at the head, the others follow it. -/
theorem contents_of_head_ne {q : Queue α n} (h : q.head ≠ q.tail) :
    q.contents
      = q.slots q.head :: Queue.contents { q with head := q.head + 1 } := by
  have hshift : q.tail - q.head = (q.tail - (q.head + 1)) + 1 := by
    rw [sub_add_eq_sub_sub, sub_add_cancel]
  have hsize : q.size = Queue.size { q with head := q.head + 1 } + 1 := by
    unfold Queue.size
    dsimp only
    rw [hshift, val_add_one]
    rw [← hshift]
    exact sub_ne_zero.mpr h.symm
  unfold Queue.contents
  rw [hsize, List.range_succ_eq_map, List.map_cons, List.map_map]
  congr 1
  · have hzero : Fin.ofNat n 0 = 0 := rfl
    rw [hzero, add_zero]
  · apply List.map_congr_left
    intro k _
    have hsucc : Fin.ofNat n (k + 1) = 1 + Fin.ofNat n k := by
      apply Fin.ext
      rw [Fin.val_add, Fin.val_one']
      show (k + 1) % n = (1 % n + k % n) % n
      rw [← Nat.add_mod, Nat.add_comm]
    show q.slots (q.head + Fin.ofNat n (k + 1)) = _
    rw [hsucc, ← add_assoc]

/-- With fuel for all of it, draining takes the contents and leaves
nothing. -/
theorem drain_eq (fuel : Nat) (q : Queue α n) (h : q.contents.length ≤ fuel) :
    (q.drain fuel).1 = q.contents ∧ (q.drain fuel).2.contents = [] := by
  induction fuel generalizing q with
  | zero =>
      have hnil := List.eq_nil_of_length_eq_zero (Nat.le_zero.mp h)
      exact ⟨hnil.symm, hnil⟩
  | succ fuel ih =>
      unfold Queue.drain
      by_cases hempty : q.head = q.tail
      · rw [if_pos hempty]
        exact ⟨(contents_of_head_eq hempty).symm, contents_of_head_eq hempty⟩
      · rw [if_neg hempty]
        have hcons := contents_of_head_ne hempty
        rw [hcons, List.length_cons] at h
        obtain ⟨hxs, hq⟩ := ih { q with head := q.head + 1 } (by omega)
        rw [hcons]
        exact ⟨congrArg (q.slots q.head :: ·) hxs, hq⟩

end Lib.Fifo
