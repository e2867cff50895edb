/-
Texts written into an array of fixed size, one over another.

`place off text out` is the array with `text` in it from `off` on, as far
as there are places; what is not written keeps its value. Where several
texts are written from the first place on, a place holds what the newest
one that reaches it has there: `newest`.

# What is used of it

- `mem_place_iff`, `mem_foldl_place_iff`: whether a value is left anywhere
  in the array, for one text and for several.
- `place_append`: a text is written in two parts.
- `takeWhile_place`: the part in front of a marker is read back.
-/
import Mathlib.Data.List.Basic
import Mathlib.Data.Vector.Basic

namespace Lib.Overlay

variable {α : Type} {n : Nat}

/-- `out` with `text` from `off` on. -/
def place (off : Nat) (text : List α) (out : Vector α n) : Vector α n :=
  Vector.ofFn fun i =>
    if off ≤ i.val then (text[i.val - off]?).getD (out.get i) else out.get i

/-- What stands at `i` when the texts are written one over another, where
`x` was. -/
def newest (x : α) (texts : List (List α)) (i : Nat) : α :=
  texts.foldl (fun y text => (text[i]?).getD y) x

-- ============================================================ place by place

theorem get_place (off : Nat) (text : List α) (out : Vector α n) (i : Fin n) :
    (place off text out).get i
      = if off ≤ i.val then (text[i.val - off]?).getD (out.get i)
        else out.get i := by
  show (Vector.ofFn _)[i.val] = _
  rw [Vector.getElem_ofFn]

theorem get_place_zero (text : List α) (out : Vector α n) (i : Fin n) :
    (place 0 text out).get i = (text[i.val]?).getD (out.get i) := by
  rw [get_place, if_pos (Nat.zero_le _), Nat.sub_zero]

theorem ext_get {u v : Vector α n} (h : ∀ i, u.get i = v.get i) : u = v :=
  Vector.ext fun i hi => h ⟨i, hi⟩

theorem mem_iff_get {v : Vector α n} {x : α} : x ∈ v ↔ ∃ i, v.get i = x := by
  rw [Vector.mem_iff_getElem]
  exact ⟨fun ⟨i, hi, h⟩ => ⟨⟨i, hi⟩, h⟩, fun ⟨i, h⟩ => ⟨i.val, i.isLt, h⟩⟩

theorem get_replicate (x : α) (i : Fin n) : (Vector.replicate n x).get i = x := by
  show (Vector.replicate n x)[i.val] = x
  rw [Vector.getElem_replicate]

theorem place_nil (off : Nat) (out : Vector α n) : place off [] out = out := by
  refine ext_get fun i => ?_
  rw [get_place, List.getElem?_nil, Option.getD_none, ite_self]

/-- What does not fit is not written. -/
theorem place_take (text : List α) (out : Vector α n) :
    place 0 (text.take n) out = place 0 text out := by
  refine ext_get fun i => ?_
  rw [get_place_zero, get_place_zero, List.getElem?_take, if_pos i.isLt]

/-- A text is written in two parts, the second one behind the first, over
whatever stands there. -/
theorem place_append (a b c : List α) (out : Vector α n) (h : c.length ≤ b.length) :
    place a.length b (place 0 (a ++ c) out) = place 0 (a ++ b) out := by
  refine ext_get fun i => ?_
  rw [get_place, get_place_zero, get_place_zero]
  rcases Nat.lt_or_ge i.val a.length with hlt | hge
  · rw [if_neg (Nat.not_le.mpr hlt), List.getElem?_append_left hlt,
      List.getElem?_append_left hlt]
  · rw [if_pos hge, List.getElem?_append_right hge,
      List.getElem?_append_right hge]
    rcases Nat.lt_or_ge (i.val - a.length) b.length with hb | hb
    · rw [List.getElem?_eq_getElem hb, Option.getD_some, Option.getD_some]
    · rw [List.getElem?_eq_none hb, List.getElem?_eq_none (h.trans hb)]
      rfl

-- ============================================================ what is left

/-- With `x` in the last place, a text leaves an `x` where it is too short
to reach it or brings one. -/
theorem mem_place_iff {x : α} {text : List α} {out : Vector α n} (hn : 0 < n)
    (hlast : out.get ⟨n - 1, Nat.sub_lt hn Nat.one_pos⟩ = x) :
    x ∈ place 0 text out ↔ text.length < n ∨ x ∈ text.take n := by
  rw [mem_iff_get]
  constructor
  · rintro ⟨i, hi⟩
    rw [get_place_zero] at hi
    rcases Nat.lt_or_ge i.val text.length with hlt | hge
    · rw [List.getElem?_eq_getElem hlt, Option.getD_some] at hi
      refine .inr (List.mem_take_iff_getElem.mpr ⟨i.val, ?_, hi⟩)
      have := i.isLt
      omega
    · have := i.isLt
      exact .inl (by omega)
  · rintro (hshort | hmem)
    · refine ⟨⟨n - 1, Nat.sub_lt hn Nat.one_pos⟩, ?_⟩
      rw [get_place_zero, List.getElem?_eq_none (by show _ ≤ n - 1; omega),
        Option.getD_none, hlast]
    · obtain ⟨i, hi, hx⟩ := List.mem_take_iff_getElem.mp hmem
      refine ⟨⟨i, by omega⟩, ?_⟩
      rw [get_place_zero, List.getElem?_eq_getElem (by show i < _; omega),
        Option.getD_some]
      exact hx

/-- A marker behind a text that leaves room for it is in the array. -/
theorem marker_mem_place {text : List α} {marker : α} (h : text.length < n)
    (out : Vector α n) : marker ∈ place 0 (text ++ [marker]) out := by
  refine mem_iff_get.mpr ⟨⟨text.length, h⟩, ?_⟩
  rw [get_place_zero, List.getElem?_append_right (Nat.le_refl _), Nat.sub_self]
  rfl

theorem get_foldl_place (texts : List (List α)) (out : Vector α n) (i : Fin n) :
    (texts.foldl (fun out text => place 0 text out) out).get i
      = newest (out.get i) texts i.val := by
  induction texts generalizing out with
  | nil => rfl
  | cons text texts ih => rw [List.foldl_cons, ih, get_place_zero]; rfl

/-- Several texts over an array of `z`s leave an `x` where the newest text
that reaches a place has one, or none reaches it and `z` is `x`. -/
theorem mem_foldl_place_iff {x z : α} {texts : List (List α)} :
    x ∈ texts.foldl (fun out text => place 0 text out) (Vector.replicate n z)
      ↔ ∃ i < n, newest z texts i = x := by
  rw [mem_iff_get]
  constructor
  · rintro ⟨i, hi⟩
    rw [get_foldl_place, get_replicate] at hi
    exact ⟨i.val, i.isLt, hi⟩
  · rintro ⟨i, hn, hi⟩
    refine ⟨⟨i, hn⟩, ?_⟩
    rw [get_foldl_place, get_replicate]
    exact hi

-- ============================================================== read back

/-- What stands in front of the marker is read back. -/
theorem takeWhile_place {p : α → Bool} {text : List α} {marker : α}
    (htext : ∀ x ∈ text, p x = true) (hmarker : p marker = false)
    (hlen : text.length < n) (out : Vector α n) :
    (place 0 (text ++ [marker]) out).toList.takeWhile p = text := by
  have hprefix : text ++ [marker] <+: (place 0 (text ++ [marker]) out).toList := by
    refine List.prefix_iff_getElem?.mpr fun i hi => ?_
    have hin : i < n := by
      rw [List.length_append, List.length_singleton] at hi
      omega
    have hget := get_place_zero (text ++ [marker]) out ⟨i, hin⟩
    rw [List.getElem?_eq_getElem hi, Option.getD_some] at hget
    rw [List.getElem?_eq_getElem (by rw [Vector.length_toList]; exact hin),
      Vector.getElem_toList]
    exact congrArg some hget
  obtain ⟨rest, hrest⟩ := hprefix
  rw [← hrest, List.append_assoc, List.takeWhile_append_of_pos htext,
    List.singleton_append, List.takeWhile_cons_of_neg
      (by rw [hmarker]; exact Bool.false_ne_true), List.append_nil]

end Lib.Overlay
