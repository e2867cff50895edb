/-
Pieces joined with a separator, one after the other.

`push` puts a piece behind a text, with the separator between them where
there is a text already, and `build` does so with a list of pieces. What is
built is the `List.intercalate` of the pieces, up to the empty ones that
come before all text (`build_eq`), and it only grows (`prefix_build`).
Where no piece holds the separator, splitting gives the pieces back, which
is `List.splitOn_intercalate`; it gives no other (`not_mem_of_mem_splitOn`).
-/
import Mathlib.Data.List.Basic
import Mathlib.Data.List.Induction

namespace Lib.Joined

variable {α : Type} (sep : α)

/-- A piece behind a text. -/
def push (text piece : List α) : List α :=
  text ++ ((if 0 < text.length then [sep] else []) ++ piece)

def build (pieces : List (List α)) : List α := pieces.foldl (push sep) []

theorem push_of_ne {text : List α} (h : text ≠ []) (piece : List α) :
    push sep text piece = text ++ sep :: piece := by
  rw [push, if_pos (List.length_pos_of_ne_nil h)]
  rfl

theorem build_append (xs ys : List (List α)) :
    build sep (xs ++ ys) = ys.foldl (push sep) (build sep xs) :=
  List.foldl_append

-- ================================================================== growth

theorem prefix_foldl_push (pieces : List (List α)) (text : List α) :
    text <+: pieces.foldl (push sep) text := by
  induction pieces generalizing text with
  | nil => exact List.prefix_rfl
  | cons piece pieces ih =>
      exact (List.prefix_append text _).trans (ih (push sep text piece))

theorem prefix_build (xs ys : List (List α)) :
    build sep xs <+: build sep (xs ++ ys) := by
  rw [build_append]
  exact prefix_foldl_push sep ys _

theorem mem_push {text piece : List α} {x : α} (h : x ∈ push sep text piece) :
    x ∈ text ∨ x = sep ∨ x ∈ piece := by
  rw [push, List.mem_append, List.mem_append] at h
  rcases h with h | h | h
  · exact .inl h
  · split at h
    · exact .inr (.inl (List.mem_singleton.mp h))
    · cases h
  · exact .inr (.inr h)

/-- Nothing but the separator comes in between. -/
theorem mem_build {pieces : List (List α)} {x : α} (h : x ∈ build sep pieces) :
    x = sep ∨ ∃ piece ∈ pieces, x ∈ piece := by
  induction pieces using List.reverseRecOn with
  | nil => cases h
  | append_singleton pieces piece ih =>
      rw [build_append] at h
      rcases mem_push sep h with hx | rfl | hx
      · rcases ih hx with rfl | ⟨p, hp, hx⟩
        · exact .inl rfl
        · exact .inr ⟨p, List.mem_append_left _ hp, hx⟩
      · exact .inl rfl
      · exact .inr ⟨piece, List.mem_append_right _ List.mem_cons_self, hx⟩

-- ============================================================= intercalation

theorem foldl_push_of_ne (pieces : List (List α)) {text : List α}
    (h : text ≠ []) :
    pieces.foldl (push sep) text = text ++ pieces.flatMap (sep :: ·) := by
  induction pieces generalizing text with
  | nil => exact (List.append_nil text).symm
  | cons piece pieces ih =>
      rw [List.foldl_cons, push_of_ne sep h,
        ih (List.append_ne_nil_of_left_ne_nil h _), List.flatMap_cons,
        List.append_assoc]

theorem intercalate_cons (piece : List α) (pieces : List (List α)) :
    List.intercalate [sep] (piece :: pieces)
      = piece ++ pieces.flatMap (sep :: ·) := by
  induction pieces generalizing piece with
  | nil => rw [List.intercalate_singleton]; exact (List.append_nil piece).symm
  | cons x xs ih =>
      rw [List.intercalate_cons_cons, ih, List.flatMap_cons]
      simp only [List.append_assoc, List.cons_append, List.nil_append]

/-- Empty pieces in front of the others leave nothing. -/
theorem build_eq (pieces : List (List α)) :
    build sep pieces
      = List.intercalate [sep] (pieces.dropWhile List.isEmpty) := by
  induction pieces with
  | nil => rfl
  | cons piece pieces ih =>
      cases piece with
      | nil => exact ih
      | cons x xs =>
          rw [List.dropWhile_cons_of_neg Bool.false_ne_true, intercalate_cons]
          exact foldl_push_of_ne sep pieces (List.cons_ne_nil x xs)

/-- Where no piece is empty nothing is dropped. -/
theorem build_of_ne {pieces : List (List α)} (h : ∀ piece ∈ pieces, piece ≠ []) :
    build sep pieces = List.intercalate [sep] pieces := by
  rw [build_eq]
  cases pieces with
  | nil => rfl
  | cons piece pieces =>
      rw [List.dropWhile_cons_of_neg]
      rw [List.isEmpty_iff]
      exact h piece List.mem_cons_self

-- ================================================================ splitting

/-- Splitting leaves no separator. -/
theorem not_mem_of_mem_splitOn [DecidableEq α] {text piece : List α}
    (h : piece ∈ text.splitOn sep) : sep ∉ piece := by
  rw [List.splitOn_eq_splitOnP] at h
  induction text generalizing piece with
  | nil =>
      rw [List.splitOnP_nil, List.mem_singleton] at h
      rw [h]
      exact List.not_mem_nil
  | cons c text ih =>
      obtain ⟨first, rest, hsplit⟩ := List.exists_cons_of_ne_nil
        (List.splitOnP_ne_nil (· == sep) text)
      rw [List.splitOnP_cons_eq_if_modifyHead] at h
      split at h
      next =>
        rcases List.mem_cons.mp h with rfl | hrest
        · exact List.not_mem_nil
        · exact ih hrest
      next hc =>
        rw [hsplit] at h ih
        rcases List.mem_cons.mp h with rfl | hrest
        · rw [List.mem_cons, not_or]
          exact ⟨fun heq => hc (beq_iff_eq.mpr heq.symm), ih List.mem_cons_self⟩
        · exact ih (List.mem_cons_of_mem _ hrest)

end Lib.Joined
