/-
Files read through the standard library, and what is left of a file that
was cut short.

# The rules

- `fread` takes the next bytes and moves the position behind them, `fseek`
  puts it back; a reader is known by its `unread` bytes and its position
  (`unread_fread`, `pos_fread`).
- `whole ps n` counts the parts of a concatenation that lie within its
  first `n` bytes (`lt_whole_iff`). What the first `n` bytes hold besides
  these is nothing, or a proper piece of the next part (`take_flatten`),
  and a proper piece ends where no part does (`Torn.ne_boundary`).
-/
import Mathlib.Data.List.Basic

namespace Lib.File

-- =============================================================== reading

/-- A file open for reading: its bytes, the position and the end-of-file
indicator. -/
structure OpenFile where
  bytes : List UInt8
  pos : Nat
  eof : Bool
  deriving DecidableEq

namespace OpenFile

/-- A file just opened. -/
def opened (bytes : List UInt8) : OpenFile := ⟨bytes, 0, false⟩

/-- What is still to be read. -/
def unread (f : OpenFile) : List UInt8 := f.bytes.drop f.pos

def ftell (f : OpenFile) : Nat := f.pos

def feof (f : OpenFile) : Bool := f.eof

/-- `fread` of `n` bytes: what it got, and the reader behind it. -/
def fread (f : OpenFile) (n : Nat) : List UInt8 × OpenFile :=
  let got := f.unread.take n
  (got, { f with pos := f.pos + got.length, eof := f.eof || got.length < n })

/-- `fseek` from the start of the file. -/
def fseek (f : OpenFile) (pos : Nat) : OpenFile := { f with pos, eof := false }

variable (f : OpenFile) (n : Nat)

@[simp] theorem unread_opened (bytes : List UInt8) :
    (opened bytes).unread = bytes := List.drop_zero

@[simp] theorem fread_fst : (f.fread n).1 = f.unread.take n := rfl

@[simp] theorem pos_fread :
    (f.fread n).2.pos = f.pos + (f.unread.take n).length := rfl

/-- Reading takes the bytes off the front of the unread ones. -/
@[simp] theorem unread_fread : (f.fread n).2.unread = f.unread.drop n := by
  show f.bytes.drop (f.pos + (f.unread.take n).length) = f.unread.drop n
  rw [← List.drop_drop]
  show f.unread.drop (f.unread.take n).length = f.unread.drop n
  by_cases h : n ≤ f.unread.length
  · rw [List.length_take, Nat.min_eq_left h]
  · have hle : f.unread.length ≤ n := by omega
    rw [List.take_of_length_le hle, List.drop_length,
      List.drop_of_length_le hle]

end OpenFile

-- ================================================================== cuts

variable {α : Type}

/-- How many parts, from the first, lie within the first `n` elements of
their concatenation. -/
def whole : List (List α) → Nat → Nat
  | [], _ => 0
  | p :: ps, n => if p.length ≤ n then whole ps (n - p.length) + 1 else 0

theorem whole_le (ps : List (List α)) (n : Nat) : whole ps n ≤ ps.length := by
  induction ps generalizing n with
  | nil => exact Nat.le_refl _
  | cons p ps ih =>
      rw [whole]
      split
      · exact Nat.succ_le_succ (ih _)
      · exact Nat.zero_le _

/-- A part is among them when it ends within the first `n` elements. -/
theorem lt_whole_iff {ps : List (List α)} {n j : Nat} (hj : j < ps.length) :
    j < whole ps n ↔ (ps.take (j + 1)).flatten.length ≤ n := by
  induction ps generalizing n j with
  | nil => cases hj
  | cons p ps ih =>
      rw [whole, List.take_succ_cons, List.flatten_cons, List.length_append]
      cases j with
      | zero =>
          rw [List.take_zero, List.flatten_nil, List.length_nil]
          split
          · exact iff_of_true (Nat.succ_pos _) (by omega)
          · exact iff_of_false (Nat.lt_irrefl 0) (by omega)
      | succ j =>
          split
          next hp =>
            rw [Nat.succ_lt_succ_iff, ih (Nat.lt_of_succ_lt_succ hj)]
            omega
          next hp => exact iff_of_false (Nat.not_lt_zero _) (by omega)

/-- What is cut off in the middle: a proper piece of the part at `k`. -/
def Torn (ps : List (List α)) (k : Nat) (rest : List α) : Prop :=
  ∃ p i, ps[k]? = some p ∧ 0 < i ∧ i < p.length ∧ rest = p.take i

/-- A cut leaves the whole parts and at most a piece of the next. -/
theorem take_flatten (ps : List (List α)) (n : Nat) :
    ∃ rest, ps.flatten.take n = (ps.take (whole ps n)).flatten ++ rest
      ∧ (rest = [] ∨ Torn ps (whole ps n) rest) := by
  induction ps generalizing n with
  | nil => exact ⟨[], List.take_nil, .inl rfl⟩
  | cons p ps ih =>
      rw [whole, List.flatten_cons]
      split
      next hp =>
        obtain ⟨rest, htake, hrest⟩ := ih (n - p.length)
        refine ⟨rest, ?_, hrest⟩
        rw [List.take_append, List.take_of_length_le hp, htake,
          List.take_succ_cons, List.flatten_cons, List.append_assoc]
      next hp =>
        refine ⟨p.take n, ?_, ?_⟩
        · rw [List.take_append_of_le_length (by omega), List.take_zero,
            List.flatten_nil, List.nil_append]
        · by_cases hn : n = 0
          · rw [hn, List.take_zero]
            exact .inl rfl
          · exact .inr ⟨p, n, rfl, by omega, by omega, rfl⟩

/-- The concatenation of fewer parts is no longer. -/
theorem length_flatten_take_mono (ps : List (List α)) {i j : Nat}
    (h : i ≤ j) :
    (ps.take i).flatten.length ≤ (ps.take j).flatten.length := by
  obtain ⟨d, rfl⟩ := Nat.exists_eq_add_of_le h
  rw [List.take_add, List.flatten_append, List.length_append]
  exact Nat.le_add_right _ _

/-- A torn piece ends where no part does. -/
theorem Torn.ne_boundary {ps : List (List α)} {k : Nat} {rest : List α}
    (h : Torn ps k rest) (j : Nat) :
    (ps.take k).flatten.length + rest.length
      ≠ (ps.take j).flatten.length := by
  obtain ⟨p, i, hp, hpos, hlt, rfl⟩ := h
  have hpiece : (p.take i).length = i := by
    rw [List.length_take]
    omega
  rw [hpiece]
  rcases Nat.lt_or_ge k j with hj | hj
  · have hnext := length_flatten_take_mono ps (Nat.succ_le_of_lt hj)
    rw [List.take_add_one, hp, List.flatten_append, List.length_append]
      at hnext
    have hlast : (some p).toList.flatten.length = p.length := by simp
    omega
  · have hbefore := length_flatten_take_mono ps hj
    omega

end Lib.File
