/-
Text at an offset of a buffer, for scanners that walk a buffer by index.

`Placed buf pos text` says that `text` stands in `buf` from `pos` on. The
rules take a text apart where a scanner does: at its next symbol
(`placed_cons`) and between two parts (`placed_append`).
-/
import Mathlib.Data.List.Basic

namespace Lib.Buffer

variable {α : Type} {buf text : List α} {pos : Nat}

/-- `text` stands in `buf` from `pos` on. -/
def Placed (buf : List α) (pos : Nat) (text : List α) : Prop :=
  text <+: buf.drop pos

theorem placed_nil : Placed buf pos [] := List.nil_prefix

theorem placed_cons {x : α} :
    Placed buf pos (x :: text)
      ↔ buf[pos]? = some x ∧ Placed buf (pos + 1) text := by
  unfold Placed
  rcases Nat.lt_or_ge pos buf.length with hlt | hge
  · rw [List.drop_eq_getElem_cons hlt, List.cons_prefix_cons,
      List.getElem?_eq_getElem hlt, Option.some.injEq, eq_comm]
  · rw [List.drop_eq_nil_of_le hge, List.getElem?_eq_none hge]
    simp

theorem placed_append {a b : List α} :
    Placed buf pos (a ++ b)
      ↔ Placed buf pos a ∧ Placed buf (pos + a.length) b := by
  induction a generalizing pos with
  | nil => simp [placed_nil]
  | cons x a ih =>
      rw [List.cons_append, placed_cons, placed_cons, ih, and_assoc,
        List.length_cons, show pos + 1 + a.length = pos + (a.length + 1) by
          omega]

theorem Placed.head {x : α} (h : Placed buf pos (x :: text)) :
    buf[pos]? = some x := (placed_cons.mp h).1

theorem Placed.tail {x : α} (h : Placed buf pos (x :: text)) :
    Placed buf (pos + 1) text := (placed_cons.mp h).2

theorem Placed.left {a b : List α} (h : Placed buf pos (a ++ b)) :
    Placed buf pos a := (placed_append.mp h).1

theorem Placed.right {a b : List α} (h : Placed buf pos (a ++ b)) :
    Placed buf (pos + a.length) b := (placed_append.mp h).2

/-- The text read back from its place. -/
theorem Placed.take (h : Placed buf pos text) :
    (buf.drop pos).take text.length = text :=
  (List.prefix_iff_eq_take.mp h).symm

/-- A text that is not empty ends inside the buffer. -/
theorem Placed.le (h : Placed buf pos text) (hne : text ≠ []) :
    pos + text.length ≤ buf.length := by
  have hlen := h.length_le
  have hpos := List.length_pos_of_ne_nil hne
  rw [List.length_drop] at hlen
  omega

/-- A text stands behind what precedes it. -/
theorem placed_length (a text b : List α) :
    Placed (a ++ (text ++ b)) a.length text := by
  unfold Placed
  rw [List.drop_left]
  exact List.prefix_append text b

end Lib.Buffer
