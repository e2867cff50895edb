/-
First-come tables of bounded size: a name takes an entry when it first
appears, and keeps it; once the table is full nobody else gets one.

# The rules

- `foldl_enter`: after a sequence of names the table is the old one and
  the first new names of the sequence, as many as there was room for.
- `hasRoom_foldl_enter`: a name still finds a place after the sequence
  exactly when it had one before or is among these.
- `nodup_enter`: nobody has two entries.
- `lastOf_append`: what was last recorded under a name.
-/
import Mathlib.Data.List.Induction

namespace Lib.Table

variable {α : Type} [DecidableEq α]

/-- A name is there, or there is room for it. -/
def HasRoom (cap : Nat) (t : List α) (x : α) : Prop :=
  x ∈ t ∨ t.length < cap

instance (cap : Nat) (t : List α) (x : α) : Decidable (HasRoom cap t x) :=
  inferInstanceAs (Decidable (_ ∨ _))

/-- The table after a name was looked up. -/
def enter (cap : Nat) (t : List α) (x : α) : List α :=
  if x ∈ t ∨ cap ≤ t.length then t else t ++ [x]

/-- The names that are not in the table, each where it first appears. -/
def fresh (t : List α) : List α → List α
  | [] => []
  | x :: xs => if x ∈ t then fresh t xs else x :: fresh (t ++ [x]) xs

/-- A table is filled with the first new names. -/
theorem foldl_enter (cap : Nat) (t xs : List α) :
    xs.foldl (enter cap) t = t ++ (fresh t xs).take (cap - t.length) := by
  induction xs generalizing t with
  | nil => simp [fresh]
  | cons x xs ih =>
      rw [List.foldl_cons, enter, fresh]
      by_cases hx : x ∈ t
      · rw [if_pos (.inl hx), if_pos hx, ih]
      · rw [if_neg hx]
        by_cases hfull : cap ≤ t.length
        · rw [if_pos (.inr hfull), ih, Nat.sub_eq_zero_of_le hfull,
            List.take_zero, List.take_zero]
        · have hroom : cap - t.length = cap - (t.length + 1) + 1 := by omega
          rw [if_neg (not_or.mpr ⟨hx, hfull⟩), ih, List.length_append,
            List.length_singleton, hroom, List.take_succ_cons,
            List.append_assoc]
          rfl

/-- A name that finds a place is in the table afterwards. -/
theorem mem_enter {cap : Nat} {t : List α} {x : α} :
    x ∈ enter cap t x ↔ HasRoom cap t x := by
  rw [enter, HasRoom]
  by_cases hx : x ∈ t
  · rw [if_pos (.inl hx)]
    exact iff_of_true hx (.inl hx)
  · by_cases hfull : cap ≤ t.length
    · rw [if_pos (.inr hfull)]
      exact iff_of_false hx (not_or.mpr ⟨hx, by omega⟩)
    · rw [if_neg (not_or.mpr ⟨hx, hfull⟩)]
      exact iff_of_true (by simp) (.inr (by omega))

/-- Who still finds a place after a sequence of names. -/
theorem hasRoom_foldl_enter {cap : Nat} {t xs : List α} {x : α} :
    HasRoom cap (xs.foldl (enter cap) t) x
      ↔ x ∈ t ∨ x ∈ (fresh t (xs ++ [x])).take (cap - t.length) := by
  rw [← mem_enter]
  have hlast : enter cap (xs.foldl (enter cap) t) x
      = (xs ++ [x]).foldl (enter cap) t := by
    rw [List.foldl_append]
    rfl
  rw [hlast, foldl_enter, List.mem_append]

/-- Nobody finds a place later who would not have found one before. -/
theorem hasRoom_of_foldl_enter {cap : Nat} {t xs : List α} {x : α}
    (h : HasRoom cap (xs.foldl (enter cap) t) x) : HasRoom cap t x := by
  rw [hasRoom_foldl_enter] at h
  rcases h with hx | htake
  · exact .inl hx
  · by_contra hno
    have hfull : cap - t.length = 0 := by
      have := (not_or.mp hno).2
      omega
    rw [hfull, List.take_zero] at htake
    cases htake

theorem nodup_enter {cap : Nat} {t : List α} (h : t.Nodup) (x : α) :
    (enter cap t x).Nodup := by
  rw [enter]
  split
  · exact h
  next hno =>
    rw [List.nodup_append]
    refine ⟨h, List.pairwise_singleton _ x, fun y hy z hz heq => ?_⟩
    exact (not_or.mp hno).1 (List.mem_singleton.mp hz ▸ heq ▸ hy)

-- =============================================================== records

variable {β : Type}

/-- What was last recorded under a name. -/
def lastOf (records : List (α × β)) (x : α) : Option β :=
  records.foldl (fun last r => if r.1 = x then some r.2 else last) none

theorem lastOf_append (records : List (α × β)) (r : α × β) (x : α) :
    lastOf (records ++ [r]) x
      = if r.1 = x then some r.2 else lastOf records x :=
  List.foldl_append

/-- It was recorded. -/
theorem lastOf_mem {records : List (α × β)} {x : α} {y : β}
    (h : lastOf records x = some y) {P : β → Prop}
    (hP : ∀ r ∈ records, P r.2) : P y := by
  induction records using List.reverseRecOn with
  | nil => cases h
  | append_singleton records r ih =>
      rw [lastOf_append] at h
      split at h
      · exact Option.some.inj h ▸ hP r (by simp)
      · exact ih h fun r hr => hP r (List.mem_append_left _ hr)

end Lib.Table
