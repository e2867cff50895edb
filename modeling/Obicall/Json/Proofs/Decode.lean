/-
`json_decode_string` by what stands in the text: `unescape` reads a text
from the front, without an index and without an end of the room, and
`jsonDecodeString_eq` says what the function makes of it. The bytes of the
text, with a `NUL` behind them where the text is whole, are written as far
as the capacity goes, and the function succeeds where all of them fit.

The induction follows the loop. A turn moves one byte of `unescape` to the
written ones; the room runs out where these are as many as the capacity.
-/
import Obicall.Core.Json

namespace Obicall

open Lib.Json

-- ========================================================= the bytes of a text

/-- The bytes a text stands for, up to the first escape that is none, and
whether there is none such. -/
structure Unescaped where
  bytes : List UInt8
  whole : Bool
  deriving DecidableEq

/-- Bytes in front of others. -/
def Unescaped.prepend (out : List UInt8) (u : Unescaped) : Unescaped :=
  ⟨out ++ u.bytes, u.whole⟩

/-- The bytes a text stands for, a `\u` escape for a question mark. -/
def unescape : List UInt8 → Unescaped
  | [] => ⟨[], true⟩
  | c :: rest =>
      if c = backslashByte then
        match rest with
        | [] => ⟨[], false⟩
        | esc :: rest =>
            if esc = 0x75 then
              match rest with
              | _ :: _ :: _ :: _ :: rest => (unescape rest).prepend [0x3F]
              | _ => ⟨[], false⟩
            else
              match decodeEscape esc with
              | none => ⟨[], false⟩
              | some decoded => (unescape rest).prepend [decoded]
      else (unescape rest).prepend [c]

/-- The bytes with the `NUL` that ends a whole text. -/
def Unescaped.stored (u : Unescaped) : List UInt8 :=
  if u.whole then u.bytes ++ [0] else u.bytes

/-- What is written of them into `cap` bytes, and what is returned. -/
def Unescaped.into (u : Unescaped) (cap : Nat) : Decoded where
  written := u.stored.take cap
  result := if u.whole ∧ u.bytes.length < cap then asInt u.bytes.length
    else none

namespace Unescaped

variable {out : List UInt8} {cap : Nat}

theorem prepend_prepend (a b : List UInt8) (u : Unescaped) :
    (u.prepend b).prepend a = u.prepend (a ++ b) :=
  congrArg (Unescaped.mk · u.whole) (List.append_assoc a b u.bytes).symm

theorem nil_prepend (u : Unescaped) : u.prepend [] = u := rfl

/-- Nothing is written behind the room. -/
theorem into_full (u : Unescaped) (h : out.length = cap) :
    (u.prepend out).into cap = ⟨out, none⟩ := by
  have hfits : ¬ ((u.prepend out).bytes.length < cap) := by
    rw [prepend, List.length_append]
    omega
  have hstored : ∃ rest, (u.prepend out).stored = out ++ rest := by
    unfold stored prepend
    split
    · exact ⟨u.bytes ++ [0], List.append_assoc ..⟩
    · exact ⟨u.bytes, rfl⟩
  obtain ⟨rest, hrest⟩ := hstored
  rw [into, hrest, ← h, List.take_left, h, if_neg (fun hw => hfits hw.2)]

/-- An escape that is none ends the text. -/
theorem into_bad (h : out.length ≤ cap) :
    (prepend out ⟨[], false⟩).into cap = ⟨out, none⟩ := by
  rw [prepend, List.append_nil, into, stored, if_neg Bool.false_ne_true,
    List.take_of_length_le h, if_neg (fun hw => Bool.false_ne_true hw.1)]

/-- The end of a text that fits. -/
theorem into_end (h : out.length < cap) :
    (prepend out ⟨[], true⟩).into cap = ⟨out ++ [0], asInt out.length⟩ := by
  have hlen : (out ++ [(0 : UInt8)]).length ≤ cap := by
    rw [List.length_append, List.length_singleton]
    exact h
  rw [prepend, List.append_nil, into, stored, if_pos rfl,
    List.take_of_length_le hlen, if_pos ⟨rfl, h⟩]

end Unescaped

-- ================================================================ one turn

section Turn

variable {c esc decoded : UInt8} {rest : List UInt8}

theorem unescape_raw (h : c ≠ backslashByte) :
    unescape (c :: rest) = (unescape rest).prepend [c] := by
  rw [unescape.eq_def]
  exact if_neg h

theorem unescape_escape (hu : esc ≠ 0x75) (h : decodeEscape esc = some decoded) :
    unescape (backslashByte :: esc :: rest)
      = (unescape rest).prepend [decoded] := by
  rw [unescape.eq_def]
  simp only [if_true, if_neg hu, h]

theorem unescape_bad (hu : esc ≠ 0x75) (h : decodeEscape esc = none) :
    unescape (backslashByte :: esc :: rest) = ⟨[], false⟩ := by
  rw [unescape.eq_def]
  simp only [if_true, if_neg hu, h]

theorem unescape_unicode (a b c d : UInt8) :
    unescape (backslashByte :: 0x75 :: a :: b :: c :: d :: rest)
      = (unescape rest).prepend [0x3F] := by
  rw [unescape.eq_def]
  simp only [if_true]

theorem unescape_cut (h : rest.length < 4) :
    unescape (backslashByte :: 0x75 :: rest) = ⟨[], false⟩ := by
  rw [unescape.eq_def]
  simp only [if_true]
  match rest, h with
  | [], _ | [_], _ | [_, _], _ | [_, _, _], _ => rfl

end Turn

-- ================================================================= the loop

variable {json : List UInt8} {cap : Nat}

/-- The loop goes on with the bytes of what is left. -/
theorem decodeFrom_eq (i : Nat) (out : List UInt8) (hout : out.length ≤ cap) :
    decodeFrom json cap i out
      = ((unescape (json.drop i)).prepend out).into cap := by
  have hput : ∀ (out : List UInt8) (c : UInt8), ¬ out.length ≥ cap →
      (out ++ [c]).length ≤ cap := fun out c hroom => by
    rw [List.length_append, List.length_singleton]
    omega
  have hdrop : ∀ {i : Nat} {esc : UInt8} (h : i < json.length),
      json[i] = backslashByte → json[i + 1]? = some esc →
        json.drop i = backslashByte :: esc :: json.drop (i + 2) := by
    intro i esc h hslash hesc
    obtain ⟨hlt, rfl⟩ := List.getElem?_eq_some_iff.mp hesc
    rw [List.drop_eq_getElem_cons h, hslash, List.drop_eq_getElem_cons hlt]
  fun_induction decodeFrom json cap i out with
  | case1 i out h _ hslash hnone =>
      have hend : json.drop (i + 1) = [] :=
        List.drop_eq_nil_of_le (List.getElem?_eq_none_iff.mp hnone)
      rw [List.drop_eq_getElem_cons h, hend,
        show json[i] = backslashByte from hslash]
      exact (Unescaped.into_bad hout).symm
  | case2 i out h _ hslash hgive hesc =>
      rw [hdrop h hslash hesc]
      rcases hgive with hcut | hfull
      · rw [unescape_cut (by rw [List.length_drop]; omega)]
        exact (Unescaped.into_bad hout).symm
      · exact (Unescaped.into_full _ (Nat.le_antisymm hout hfull)).symm
  | case3 i out h _ hslash hgive hesc ih =>
      obtain ⟨hlen, hroom⟩ := not_or.mp hgive
      have hdigits : json.drop (i + 2) = json[i + 2] :: json[i + 3]
          :: json[i + 4] :: json[i + 5] :: json.drop (i + 6) := by
        rw [List.drop_eq_getElem_cons, List.drop_eq_getElem_cons,
          List.drop_eq_getElem_cons, List.drop_eq_getElem_cons]
      rw [ih (hput out _ hroom), hdrop h hslash hesc, hdigits,
        unescape_unicode, Unescaped.prepend_prepend]
  | case4 i out h _ hslash esc hesc hu hbad =>
      rw [hdrop h hslash hesc, unescape_bad hu hbad]
      exact (Unescaped.into_bad hout).symm
  | case5 i out h _ hslash esc hesc hu decoded hdecoded hfull =>
      exact (Unescaped.into_full _ (Nat.le_antisymm hout hfull)).symm
  | case6 i out h _ hslash esc hesc hu decoded hdecoded hroom ih =>
      rw [ih (hput out _ hroom), hdrop h hslash hesc,
        unescape_escape hu hdecoded, Unescaped.prepend_prepend]
  | case7 i out h _ hslash hfull =>
      exact (Unescaped.into_full _ (Nat.le_antisymm hout hfull)).symm
  | case8 i out h _ hslash hroom ih =>
      rw [ih (hput out _ hroom), List.drop_eq_getElem_cons h,
        unescape_raw hslash, Unescaped.prepend_prepend]
  | case9 i out h hfull =>
      exact (Unescaped.into_full _ (Nat.le_antisymm hout hfull)).symm
  | case10 i out h hroom =>
      rw [List.drop_eq_nil_of_le (Nat.not_lt.mp h)]
      exact (Unescaped.into_end (Nat.not_le.mp hroom)).symm

/-- `json_decode_string` by the bytes of its text. -/
theorem jsonDecodeString_eq (text : List UInt8) (cap : Nat) :
    jsonDecodeString text cap = (unescape text).into cap := by
  rw [jsonDecodeString, decodeFrom_eq 0 [] (Nat.zero_le _), List.drop_zero,
    Unescaped.nil_prepend]

/-- It succeeds where the text is whole and fits, unless the length is no
`int`. -/
theorem isSome_jsonDecodeString {text : List UInt8} (hcap : cap ≤ 2 ^ 31) :
    (jsonDecodeString text cap).result.isSome = true
      ↔ (unescape text).whole = true ∧ (unescape text).bytes.length < cap := by
  rw [jsonDecodeString_eq, Unescaped.into]
  constructor
  · intro h
    by_contra hnot
    rw [if_neg hnot] at h
    cases h
  · intro h
    rw [if_pos h, asInt_of_lt (Nat.lt_of_lt_of_le h.2 hcap)]
    rfl

end Obicall
