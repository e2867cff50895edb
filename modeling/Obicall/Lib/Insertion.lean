/-
Insertion sort from the right: of a sorted list, the elements at the end
that belong behind the key are moved up by one, and the key goes into the
gap.

What "belongs behind" means is a Boolean test. `Decides` says which order
the test stands for: elements are compared by a transitive relation, and
the test holds only of an element the key comes before, and fails only of
one that comes before the key. Elements that come before each other are
left in the order they were inserted in.
-/
import Mathlib.Data.List.DropRight
import Mathlib.Data.List.Perm.Basic

namespace Lib.Insertion

variable {α : Type} {behind : α → α → Bool} {r : α → α → Prop}

/-- The key, in front of the elements at the end that belong behind it. -/
def insert (behind : α → α → Bool) (sorted : List α) (key : α) : List α :=
  sorted.rdropWhile (behind key) ++ key :: sorted.rtakeWhile (behind key)

/-- All elements inserted, one after the other. -/
def sort (behind : α → α → Bool) (l : List α) : List α :=
  l.foldl (insert behind) []

/-- The test decides the order `r`. -/
structure Decides (behind : α → α → Bool) (r : α → α → Prop) : Prop where
  trans : ∀ {x y z}, r x y → r y z → r x z
  of_behind : ∀ {key cur}, behind key cur = true → r key cur
  of_not_behind : ∀ {key cur}, behind key cur = false → r cur key

-- ============================================================ permutation

theorem insert_perm (sorted : List α) (key : α) :
    (insert behind sorted key).Perm (key :: sorted) := by
  refine List.perm_middle.trans ?_
  rw [List.rdropWhile_append_rtakeWhile]

theorem sort_perm (l : List α) : (sort behind l).Perm l := by
  have hrun : ∀ sorted : List α,
      (l.foldl (insert behind) sorted).Perm (sorted ++ l) := by
    induction l with
    | nil => exact fun sorted => by rw [List.append_nil]; rfl
    | cons key l ih =>
        intro sorted
        refine (ih _).trans ?_
        exact ((insert_perm sorted key).append_right l).trans
          List.perm_middle.symm
  exact hrun []

-- ================================================================== order

/-- What is left of the gap comes before the key: its last element does,
and the others come before that one. -/
theorem Decides.before_key (h : Decides behind r) {sorted : List α}
    (hsorted : sorted.Pairwise r) (key : α) :
    ∀ x ∈ sorted.rdropWhile (behind key), r x key := by
  intro x hx
  have hne : sorted.rdropWhile (behind key) ≠ [] := List.ne_nil_of_mem hx
  have hlast : r ((sorted.rdropWhile (behind key)).getLast hne) key :=
    h.of_not_behind (Bool.not_eq_true _ ▸ List.rdropWhile_last_not _ _ hne)
  have hprefix : (sorted.rdropWhile (behind key)).Pairwise r :=
    hsorted.sublist (List.rdropWhile_prefix _ _).sublist
  rw [← List.dropLast_append_getLast hne] at hx hprefix
  rcases List.mem_append.mp hx with hx | hx
  · exact h.trans ((List.pairwise_append.mp hprefix).2.2 x hx _
      (List.mem_singleton_self _)) hlast
  · rwa [List.mem_singleton.mp hx]

/-- Inserting keeps a list sorted. -/
theorem Decides.pairwise_insert (h : Decides behind r) {sorted : List α}
    (hsorted : sorted.Pairwise r) (key : α) :
    (insert behind sorted key).Pairwise r := by
  have hbefore := h.before_key hsorted key
  have hbehind : ∀ x ∈ sorted.rtakeWhile (behind key), r key x :=
    fun x hx => h.of_behind (List.mem_rtakeWhile_imp hx)
  rw [← List.rdropWhile_append_rtakeWhile (p := behind key) (l := sorted)]
    at hsorted
  obtain ⟨hleft, hright, hacross⟩ := List.pairwise_append.mp hsorted
  refine List.pairwise_append.mpr
    ⟨hleft, List.pairwise_cons.mpr ⟨hbehind, hright⟩, fun x hx y hy => ?_⟩
  rcases List.mem_cons.mp hy with rfl | hy
  · exact hbefore x hx
  · exact hacross x hx y hy

theorem Decides.pairwise_sort (h : Decides behind r) (l : List α) :
    (sort behind l).Pairwise r := by
  have hrun : ∀ sorted : List α, sorted.Pairwise r →
      (l.foldl (insert behind) sorted).Pairwise r := by
    induction l with
    | nil => exact fun _ hsorted => hsorted
    | cons key l ih =>
        exact fun _ hsorted => ih _ (h.pairwise_insert hsorted key)
  exact hrun [] List.Pairwise.nil

/-- Two lists whose elements stand for the same things sort to the same,
where the order tells these things apart. -/
theorem map_sort_eq {β γ : Type} {behind' : β → β → Bool}
    {r' : β → β → Prop} (h : Decides behind r) (h' : Decides behind' r')
    {R : γ → γ → Prop} {f : α → γ} {g : β → γ}
    (hf : ∀ x y, r x y → R (f x) (f y)) (hg : ∀ x y, r' x y → R (g x) (g y))
    {l : List α} {l' : List β} (hperm : (l.map f).Perm (l'.map g))
    (hanti : ∀ a b, a ∈ l.map f → b ∈ l.map f → R a b → R b a → a = b) :
    (sort behind l).map f = (sort behind' l').map g := by
  have hleft : ((sort behind l).map f).Perm (l.map f) := (sort_perm l).map f
  have hright : ((sort behind' l').map g).Perm (l.map f) :=
    ((sort_perm l').map g).trans hperm.symm
  refine List.Perm.eq_of_pairwise
    (fun a b ha hb => hanti a b (hleft.subset ha) (hright.subset hb)) ?_ ?_
    (hleft.trans hright.symm)
  · rw [List.pairwise_map]
    exact (h.pairwise_sort l).imp fun {x y} hxy => hf x y hxy
  · rw [List.pairwise_map]
    exact (h'.pairwise_sort l').imp fun {x y} hxy => hg x y hxy

end Lib.Insertion
