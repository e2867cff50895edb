/-
What `json_escape` writes is a JSON string, and `json_decode_string` reads
the bytes of the C string back from it, without the control characters that
are left out.

The text is `Str.text` of one piece for each byte that is written
(`jsonEscape_eq`); the loop never cuts a piece. So the facts about strings
hold of it: it ends at its quote (`stringBody_text`), and it is decoded to
its characters (`jsonDecodeString_text`).
-/
import Obicall.Cli.Escape
import Obicall.Json.Proofs.Fields
import Obicall.Lib.Fill

namespace Obicall

open Lib.Fill Lib.Json

-- ================================================================ one byte

/-- The piece a byte is written as. -/
def escapePiece (p : UInt8) : Option Piece :=
  if hq : p = quoteByte then some (.escape .quote)
  else if hb : p = backslashByte then some (.escape .backslash)
  else if p = 0x0A then some (.escape .n)
  else if hp : 0x20 ≤ p then some (.raw p ⟨hq, hb, hp⟩)
  else none

/-- A byte that is not left out. -/
def isWritten (p : UInt8) : Bool := 0x20 ≤ p ∨ p = 0x0A

/-- A byte is written as a piece that is decoded to it, or left out. -/
theorem escapePiece_spec (p : UInt8) :
    (∃ piece, escapePiece p = some piece ∧ piece.text = escapeByte p
      ∧ Piece.decoded piece = p ∧ isWritten p = true)
    ∨ (escapePiece p = none ∧ escapeByte p = [] ∧ isWritten p = false) := by
  unfold escapePiece
  by_cases hq : p = quoteByte
  · subst hq
    exact .inl ⟨.escape .quote, rfl, rfl, rfl, rfl⟩
  by_cases hb : p = backslashByte
  · subst hb
    exact .inl ⟨.escape .backslash, rfl, rfl, rfl, rfl⟩
  by_cases hn : p = 0x0A
  · subst hn
    exact .inl ⟨.escape .n, rfl, rfl, rfl, rfl⟩
  rw [dif_neg hq, dif_neg hb, if_neg hn, escapeByte,
    if_neg (not_or.mpr ⟨hq, hb⟩), if_neg hn]
  by_cases hp : 0x20 ≤ p
  · rw [dif_pos hp, if_pos hp]
    exact .inl ⟨_, rfl, rfl, rfl, decide_eq_true (.inl hp)⟩
  · rw [dif_neg hp, if_neg hp]
    exact .inr ⟨rfl, rfl, decide_eq_false (not_or.mpr ⟨hp, hn⟩)⟩

theorem length_escapeByte (p : UInt8) : (escapeByte p).length ≤ 2 := by
  unfold escapeByte
  split_ifs
  · exact Nat.le_refl 2
  · exact Nat.le_refl 2
  · exact Nat.le_succ 1
  · exact Nat.zero_le 2

-- ================================================================ the text

/-- The bytes as a JSON string. -/
def escapeStr (bytes : List UInt8) : Str := bytes.filterMap escapePiece

theorem text_escapeStr (bytes : List UInt8) :
    Str.text (escapeStr bytes) = bytes.flatMap escapeByte := by
  induction bytes with
  | nil => rfl
  | cons p bytes ih =>
      rw [List.flatMap_cons, ← ih, escapeStr, escapeStr]
      rcases escapePiece_spec p with ⟨piece, hpiece, htext, -⟩ | ⟨hnone, htext, -⟩
      · rw [List.filterMap_cons_some hpiece, ← htext]
        exact List.flatMap_cons
      · rw [List.filterMap_cons_none hnone, htext, List.nil_append]

theorem decoded_escapeStr (bytes : List UInt8) :
    Str.decoded (escapeStr bytes) = bytes.filter isWritten := by
  induction bytes with
  | nil => rfl
  | cons p bytes ih =>
      rw [escapeStr]
      rcases escapePiece_spec p with
        ⟨piece, hpiece, -, hdecoded, hwritten⟩ | ⟨hnone, -, hleft⟩
      · rw [List.filterMap_cons_some hpiece, List.filter_cons_of_pos hwritten, ← ih]
        exact congrArg (· :: _) hdecoded
      · rw [List.filterMap_cons_none hnone,
          List.filter_cons_of_neg (by rw [hleft]; decide)]
        exact ih

-- ================================================================= the loop

/-- The C string at `s`. -/
def cStringOf (s : List UInt8) : List UInt8 := s.takeWhile (· != 0)

theorem escapeFrom_eq (outCap : Nat) (s out : List UInt8) :
    escapeFrom outCap s out = fill escapeByte 2 outCap (cStringOf s) out := by
  induction s generalizing out with
  | nil => rfl
  | cons p s ih =>
      by_cases hp : p = 0
      · have hend : cStringOf (p :: s) = [] :=
          List.takeWhile_cons_of_neg fun hne => bne_iff_ne.mp hne hp
        rw [hend, escapeFrom, fill]
        exact if_neg fun h => h.1 hp
      · have hnext : cStringOf (p :: s) = p :: cStringOf s :=
          List.takeWhile_cons_of_pos (bne_iff_ne.mpr hp)
        rw [hnext, escapeFrom, fill, ih]
        simp only [ne_eq, hp, not_false_eq_true, true_and]

/-- What is written: the first bytes of the string as a JSON string, and
behind them the `NUL`. -/
theorem jsonEscape_eq (s : List UInt8) (outCap : Nat) :
    ∃ taken, taken <+: cStringOf s
      ∧ jsonEscape (some s) outCap = Str.text (escapeStr taken) ++ [0]
      ∧ (2 * (cStringOf s).length < outCap → taken = cStringOf s) := by
  obtain ⟨taken, htaken, heq, hall⟩ :=
    fill_eq length_escapeByte outCap (cStringOf s) []
  rw [List.nil_append] at heq
  rw [List.length_nil, Nat.zero_add] at hall
  refine ⟨taken, htaken, ?_, hall⟩
  rw [jsonEscape, Option.getD_some, escapeFrom_eq, heq, text_escapeStr]

theorem length_jsonEscape {outCap : Nat} (hpos : 0 < outCap)
    (s : Option (List UInt8)) : (jsonEscape s outCap).length ≤ outCap := by
  rw [jsonEscape, escapeFrom_eq, List.length_append, List.length_singleton]
  exact length_fill_lt length_escapeByte _ hpos

-- ============================================================= read back

/-- For every string and every room: the room is kept to; the text has no
control character and ends where its string does; and it is decoded, unless
the length is no `int`, to the first bytes of the string without those left
out, and to all of them where there is room for two bytes each. -/
theorem jsonDecodeString_jsonEscape (s : List UInt8) (outCap : Nat)
    (hpos : 1 ≤ outCap) :
    (jsonEscape (some s) outCap).length ≤ outCap
      ∧ ∃ text decoded, jsonEscape (some s) outCap = text ++ [0]
        ∧ (∀ b ∈ text, 0x20 ≤ b) ∧ StringBody text
        ∧ decoded <+: (cStringOf s).filter isWritten
        ∧ (2 * (cStringOf s).length + 2 ≤ outCap →
            decoded = (cStringOf s).filter isWritten)
        ∧ (decoded.length < 2 ^ 31 → ∀ room, decoded.length < room →
            jsonDecodeString text room
              = ⟨decoded ++ [0], some decoded.length⟩) := by
  obtain ⟨taken, htaken, heq, hall⟩ := jsonEscape_eq s outCap
  refine ⟨length_jsonEscape hpos _, Str.text (escapeStr taken),
    Str.decoded (escapeStr taken), heq, fun _ hb => space_le_of_mem_text hb,
    stringBody_text _, ?_, ?_, ?_⟩
  · rw [decoded_escapeStr]
    exact htaken.filter isWritten
  · intro hwide
    rw [decoded_escapeStr, hall (by omega)]
  · intro hint room hroom
    exact jsonDecodeString_text hint hroom

/-- A quote, a line feed and a bell, in a buffer of eight bytes. -/
theorem jsonDecodeString_jsonEscape_three :
    ∃ text, jsonEscape (some [0x22, 0x0A, 0x07]) 8 = text ++ [0]
      ∧ jsonDecodeString text 3 = ⟨[0x22, 0x0A, 0], some 2⟩ := by
  obtain ⟨-, text, decoded, heq, -, -, -, hall, hdecode⟩ :=
    jsonDecodeString_jsonEscape [0x22, 0x0A, 0x07] 8 (by decide)
  have hdecoded : decoded = [0x22, 0x0A] := hall (by decide)
  subst hdecoded
  exact ⟨text, heq, hdecode (by decide) 3 (by decide)⟩

/-- Cut in front of an escape: the room for it would be there, but not for
the `NUL` behind it. -/
example : jsonEscape (some [0x61, 0x22]) 3 = [0x61, 0] := by decide

-- ============================================================ long strings

section Long

variable {n : Nat}

theorem cStringOf_replicate {b : UInt8} (hb : b ≠ 0) :
    cStringOf (List.replicate n b) = List.replicate n b := by
  apply List.takeWhile_eq_self_iff.mpr
  intro x hx
  rw [List.eq_of_mem_replicate hx]
  exact bne_iff_ne.mpr hb

/-- `n` times the letter `a`, as a JSON string. -/
theorem text_letters :
    Str.text (escapeStr (List.replicate n 0x61)) = List.replicate n 0x61 := by
  rw [text_escapeStr, List.flatMap_replicate]
  exact List.flatten_replicate_singleton

theorem jsonEscape_letters {outCap : Nat} (hwide : 2 * n < outCap) :
    jsonEscape (some (List.replicate n 0x61)) outCap
      = List.replicate n 0x61 ++ [0] := by
  have hstring : cStringOf (List.replicate n 0x61) = List.replicate n 0x61 :=
    cStringOf_replicate (by decide)
  obtain ⟨taken, -, heq, hall⟩ :=
    jsonEscape_eq (List.replicate n 0x61) outCap
  rw [hstring, List.length_replicate] at hall
  rw [heq, hall hwide, text_letters]

theorem jsonDecodeString_letters (hlong : 2 ^ 31 ≤ n) (room : Nat) :
    (jsonDecodeString (List.replicate n 0x61) room).result = none := by
  rw [← text_letters]
  apply result_jsonDecodeString_beyond
  rw [decoded_escapeStr, List.filter_replicate_of_pos (by decide),
    List.length_replicate]
  exact hlong

end Long

/-- 2^31 letters are written whole, and no room is enough to read them
back: their number is no `int`. -/
theorem jsonDecodeString_jsonEscape_beyond :
    jsonEscape (some (List.replicate (2 ^ 31) 0x61)) (2 ^ 32 + 2)
        = List.replicate (2 ^ 31) 0x61 ++ [0]
      ∧ ∀ room, (jsonDecodeString (List.replicate (2 ^ 31) 0x61) room).result
        = none :=
  ⟨jsonEscape_letters (by omega), jsonDecodeString_letters (Nat.le_refl _)⟩

end Obicall
