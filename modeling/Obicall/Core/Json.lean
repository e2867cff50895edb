/-
`json_min.c`: the bounded JSON reader of the manifests and configurations.
Values are located by walking the buffer; nothing is built.

A buffer is its bytes, `len` is their number, and a read of `buf[pos]`
behind its test `pos < len` is `buf[pos]?`. Offsets are numbers: a
`uint32_t` offset stays below `2 ^ 32` in every buffer that ends six bytes
before that, and the bracket depth an `int` in every one below `2 ^ 31`.
A scan ends at an offset that it returns as an `int`, which every caller
takes for a failure where it is negative: `asInt` is `none` there.
-/
import Mathlib.Algebra.GroupWithZero.Nat
import Mathlib.Data.List.Basic
import Obicall.Lib.Json

namespace Obicall

open Lib.Json

-- ============================================================ the offsets

/-- `(int)n`, where a negative number is a failure: from `2 ^ 31` on the
conversion gives one. -/
def asInt (n : Nat) : Option Nat := if n < 2 ^ 31 then some n else none

/-- The difference of two `uint32_t`. -/
def u32Sub (a b : Nat) : Nat := (a + 2 ^ 32 - b) % 2 ^ 32

theorem asInt_eq_some {n m : Nat} : asInt n = some m ↔ n < 2 ^ 31 ∧ n = m := by
  unfold asInt
  split
  next h => exact ⟨fun hn => ⟨h, Option.some.inj hn⟩, fun hn => congrArg _ hn.2⟩
  next h => exact ⟨fun hn => (by cases hn), fun hn => absurd hn.1 h⟩

theorem asInt_of_lt {n : Nat} (h : n < 2 ^ 31) : asInt n = some n :=
  if_pos h

theorem asInt_of_le {n : Nat} (h : 2 ^ 31 ≤ n) : asInt n = none :=
  if_neg (Nat.not_lt.mpr h)

theorem u32Sub_of_le {a b : Nat} (h : b ≤ a) (ha : a < 2 ^ 32) :
    u32Sub a b = a - b := by
  unfold u32Sub
  omega

-- ========================================================= blanks, strings

/-- `is_ws`. -/
def isWs (c : UInt8) : Bool :=
  c == 0x20 || c == 0x09 || c == 0x0A || c == 0x0D

/-- The loop `while (pos < len && is_ws(buf[pos])) pos++`. -/
def skipWs (buf : List UInt8) (pos : Nat) : Nat :=
  if h : pos < buf.length then
    if isWs buf[pos] then skipWs buf (pos + 1) else pos
  else pos
termination_by buf.length - pos

/-- The loop of `skip_string`, from behind the opening quote. -/
def skipStringFrom (buf : List UInt8) (pos : Nat) : Option Nat :=
  if h : pos < buf.length then
    let ch := buf[pos]
    if ch = quoteByte then asInt (pos + 1)
    else if ch = backslashByte then
      if pos + 1 ≥ buf.length then none
      else if buf[pos + 1]? = some 0x75 then
        if pos + 6 > buf.length then none
        else skipStringFrom buf (pos + 6)
      else skipStringFrom buf (pos + 2)
    else skipStringFrom buf (pos + 1)
  else none
termination_by buf.length - pos

/-- `skip_string`. -/
def skipString (buf : List UInt8) (pos : Nat) : Option Nat :=
  if buf[pos]? = some quoteByte then skipStringFrom buf (pos + 1) else none

theorem skipStringFrom_lt {buf : List UInt8} {pos r : Nat}
    (h : skipStringFrom buf pos = some r) : pos < r := by
  fun_induction skipStringFrom buf pos with
  | case1 pos _ ch _ =>
      have := asInt_eq_some.mp h
      omega
  | case2 | case3 | case7 => cases h
  | case4 pos _ _ _ _ _ _ _ ih | case5 pos _ _ _ _ _ _ ih
  | case6 pos _ _ _ _ ih =>
      have := ih h
      omega

theorem skipString_lt {buf : List UInt8} {pos r : Nat}
    (h : skipString buf pos = some r) : pos < r := by
  unfold skipString at h
  split at h
  · have := skipStringFrom_lt h
    omega
  · cases h

-- ================================================================= values

/-- The loop over a bracketed value: only `open` and `close` count, and
strings are skipped. -/
def scanNested (buf : List UInt8) (opening closing : UInt8) (pos depth : Nat) :
    Option Nat :=
  if depth = 0 then asInt pos
  else if h : pos < buf.length then
    let c := buf[pos]
    if c = quoteByte then
      match _ : skipString buf pos with
      | none => none
      | some r => scanNested buf opening closing r depth
    else
      scanNested buf opening closing (pos + 1)
        (if c = opening then depth + 1
          else if c = closing then depth - 1 else depth)
  else none
termination_by buf.length - pos
decreasing_by
  · have := skipString_lt ‹_›
    omega
  · omega

/-- `memcmp` with one of the three words, after the test of the length. -/
def scanWord (buf : List UInt8) (pos : Nat) (word : List UInt8) : Option Nat :=
  if pos + word.length ≤ buf.length
      ∧ (buf.drop pos).take word.length = word then
    asInt (pos + word.length)
  else none

def isDigit (c : UInt8) : Bool := 0x30 ≤ c && c ≤ 0x39

/-- The loop `while (pos < len && buf[pos] >= '0' && buf[pos] <= '9') pos++`. -/
def scanDigits (buf : List UInt8) (pos : Nat) : Nat :=
  if h : pos < buf.length then
    if isDigit buf[pos] then scanDigits buf (pos + 1) else pos
  else pos
termination_by buf.length - pos

/-- The fraction of a number, where there is one. -/
def scanFraction (buf : List UInt8) (pos : Nat) : Nat :=
  if buf[pos]? = some 0x2E then scanDigits buf (pos + 1) else pos

/-- The sign of an exponent, where there is one. -/
def scanSign (buf : List UInt8) (pos : Nat) : Nat :=
  if buf[pos]? = some 0x2B ∨ buf[pos]? = some 0x2D then pos + 1 else pos

/-- The exponent of a number, where there is one. -/
def scanExponent (buf : List UInt8) (pos : Nat) : Nat :=
  if buf[pos]? = some 0x65 ∨ buf[pos]? = some 0x45 then
    scanDigits buf (scanSign buf (pos + 1))
  else pos

/-- The minus of a number, where there is one. -/
def scanMinus (buf : List UInt8) (pos : Nat) : Nat :=
  if buf[pos]? = some 0x2D then pos + 1 else pos

/-- The number branch of `scan_value`. -/
def scanNumber (buf : List UInt8) (start : Nat) : Option Nat :=
  let pos := scanMinus buf start
  let pos := scanDigits buf pos
  let pos := scanFraction buf pos
  let pos := scanExponent buf pos
  if pos = start then none else asInt pos

/-- The bracket that closes `ch`. -/
def closingOf (ch : UInt8) : UInt8 :=
  if ch = openBrace then closeBrace else closeBracket

/-- `scan_value` behind the blanks: one past the end of the value, and
whether it is a string. -/
def scanValueAt (buf : List UInt8) (pos : Nat) : Option (Nat × Bool) :=
  match buf[pos]? with
  | none => none
  | some ch =>
      if ch = quoteByte then (skipString buf pos).map (·, true)
      else if ch = openBrace ∨ ch = openBracket then
        (scanNested buf ch (closingOf ch) (pos + 1) 1).map (·, false)
      else if ch = 0x74 then (scanWord buf pos trueText).map (·, false)
      else if ch = 0x66 then (scanWord buf pos falseText).map (·, false)
      else if ch = 0x6E then (scanWord buf pos nullText).map (·, false)
      else if ch = 0x2D ∨ isDigit ch then
        (scanNumber buf pos).map (·, false)
      else none

/-- `scan_value`. -/
def scanValue (buf : List UInt8) (pos : Nat) : Option (Nat × Bool) :=
  scanValueAt buf (skipWs buf pos)
-- =============================================================== progress

theorem le_skipWs (buf : List UInt8) (pos : Nat) : pos ≤ skipWs buf pos := by
  fun_induction skipWs buf pos with
  | case1 pos _ _ ih => omega
  | case2 | case3 => exact Nat.le_refl _

theorem scanNested_le {buf : List UInt8} {opening closing : UInt8}
    {pos depth r : Nat}
    (h : scanNested buf opening closing pos depth = some r) : pos ≤ r := by
  fun_induction scanNested buf opening closing pos depth with
  | case1 pos =>
      have := asInt_eq_some.mp h
      omega
  | case2 | case5 => cases h
  | case3 pos _ _ _ _ _ r hskip ih =>
      have := skipString_lt hskip
      have := ih h
      omega
  | case4 pos _ _ _ _ _ ih =>
      have := ih h
      omega

theorem scanWord_lt {buf word : List UInt8} {pos r : Nat} (hne : word ≠ [])
    (h : scanWord buf pos word = some r) : pos < r := by
  have hpos := List.length_pos_of_ne_nil hne
  unfold scanWord at h
  split at h
  · have := asInt_eq_some.mp h
    omega
  · cases h

theorem le_scanDigits (buf : List UInt8) (pos : Nat) :
    pos ≤ scanDigits buf pos := by
  fun_induction scanDigits buf pos with
  | case1 pos _ _ ih => omega
  | case2 | case3 => exact Nat.le_refl _

theorem scanNumber_lt {buf : List UInt8} {pos r : Nat}
    (h : scanNumber buf pos = some r) : pos < r := by
  have hminus : pos ≤ scanMinus buf pos := by
    unfold scanMinus
    split <;> omega
  have hint := le_scanDigits buf (scanMinus buf pos)
  have hfraction : ∀ p, p ≤ scanFraction buf p := by
    intro p
    have := le_scanDigits buf (p + 1)
    unfold scanFraction
    split <;> omega
  have hexponent : ∀ p, p ≤ scanExponent buf p := by
    intro p
    have := le_scanDigits buf (scanSign buf (p + 1))
    have : p + 1 ≤ scanSign buf (p + 1) := by
      unfold scanSign
      split <;> omega
    unfold scanExponent
    split <;> omega
  have hfrac := hfraction (scanDigits buf (scanMinus buf pos))
  have hexp := hexponent (scanFraction buf (scanDigits buf (scanMinus buf pos)))
  simp only [scanNumber] at h
  split at h
  · cases h
  · have := asInt_eq_some.mp h
    omega

theorem scanValueAt_lt {buf : List UInt8} {pos r : Nat} {isString : Bool}
    (h : scanValueAt buf pos = some (r, isString)) : pos < r := by
  unfold scanValueAt at h
  split at h
  · cases h
  · split_ifs at h <;>
      obtain ⟨q, hq, heq⟩ := Option.map_eq_some_iff.mp h <;> cases heq
    · exact skipString_lt hq
    · exact Nat.lt_of_succ_le (scanNested_le hq)
    · exact scanWord_lt (List.cons_ne_nil _ _) hq
    · exact scanWord_lt (List.cons_ne_nil _ _) hq
    · exact scanWord_lt (List.cons_ne_nil _ _) hq
    · exact scanNumber_lt hq

/-- A value ends behind where it was looked for. -/
theorem scanValue_lt {buf : List UInt8} {pos r : Nat} {isString : Bool}
    (h : scanValue buf pos = some (r, isString)) : pos < r :=
  Nat.lt_of_le_of_lt (le_skipWs buf pos) (scanValueAt_lt h)

-- ================================================================ objects

/-- `json_span_t`. -/
structure JsonSpan where
  off : Nat
  len : Nat
  isString : Bool
  deriving DecidableEq

/-- The bytes a span stands for. -/
def JsonSpan.read (span : JsonSpan) (json : List UInt8) : List UInt8 :=
  (json.drop span.off).take span.len

/-- `span_from_value`. -/
def spanFromValue (valueStart valueEnd : Nat) (isStr : Bool) : JsonSpan :=
  if isStr then
    ⟨valueStart + 1, u32Sub (u32Sub valueEnd 1) (valueStart + 1), isStr⟩
  else ⟨valueStart, u32Sub valueEnd valueStart, isStr⟩

/-- One member as `json_object_find` reads it. -/
structure ScannedMember where
  keyStart : Nat
  keyStrLen : Nat
  valueStart : Nat
  valueEnd : Nat
  isStr : Bool

/-- The body of the loop of `json_object_find` up to the comparison. -/
def scanMember (json : List UInt8) (pos : Nat) : Option ScannedMember :=
  let pos := skipWs json pos
  match skipString json pos with
  | none => none
  | some keyEnd =>
      let colon := skipWs json keyEnd
      if json[colon]? = some colonByte then
        let valueStart := skipWs json (colon + 1)
        (scanValue json valueStart).map fun (valueEnd, isStr) =>
          { keyStart := pos + 1,
            keyStrLen := u32Sub (u32Sub keyEnd 1) (pos + 1),
            valueStart, valueEnd, isStr }
      else none

theorem scanMember_lt {json : List UInt8} {pos : Nat} {m : ScannedMember}
    (h : scanMember json pos = some m) : pos < m.valueEnd := by
  unfold scanMember at h
  simp only at h
  split at h
  · cases h
  · rename_i keyEnd hkey
    split_ifs at h
    obtain ⟨⟨r, isStr⟩, hvalue, rfl⟩ := Option.map_eq_some_iff.mp h
    have := le_skipWs json pos
    have := skipString_lt hkey
    have := le_skipWs json keyEnd
    have := le_skipWs json (skipWs json keyEnd + 1)
    have := scanValue_lt hvalue
    show pos < r
    omega

/-- The loop of `json_object_find`. A key is compared as it is written. -/
def findMember (json key : List UInt8) (pos : Nat) : Option JsonSpan :=
  match _ : scanMember json pos with
  | none => none
  | some m =>
      if m.keyStrLen = key.length
          ∧ (json.drop m.keyStart).take key.length = key then
        some (spanFromValue m.valueStart m.valueEnd m.isStr)
      else
        let next := skipWs json m.valueEnd
        if _ : json[next]? = some commaByte then findMember json key (next + 1)
        else none
termination_by json.length - pos
decreasing_by
  have := scanMember_lt ‹_›
  have := le_skipWs json m.valueEnd
  have := (List.getElem?_eq_some_iff.mp ‹json[next]? = some commaByte›).1
  simp only [next] at *
  omega

/-- `json_object_find`; `key` is what stands before the `NUL`. -/
def jsonObjectFind (json key : List UInt8) : Option JsonSpan :=
  let pos := skipWs json 0
  if json[pos]? = some openBrace then findMember json key (pos + 1) else none

-- ================================================================= arrays

/-- `array_open`. -/
def arrayOpen (json : List UInt8) : Option Nat :=
  let pos := skipWs json 0
  if json[pos]? = some openBracket then some (pos + 1) else none

/-- The loop of `json_array_count`. -/
def countElements (json : List UInt8) (pos count : Nat) : Option Nat :=
  let start := skipWs json pos
  if json[start]? = some closeBracket then some count
  else
    match _ : scanValue json start with
    | none => none
    | some (valueEnd, _) =>
        let next := skipWs json valueEnd
        if _ : json[next]? = some commaByte then
          countElements json (next + 1) (count + 1)
        else if json[next]? = some closeBracket then some (count + 1)
        else none
termination_by json.length - pos
decreasing_by
  have := scanValue_lt ‹_›
  have := le_skipWs json pos
  have := le_skipWs json valueEnd
  have := (List.getElem?_eq_some_iff.mp ‹json[next]? = some commaByte›).1
  simp only [start, next] at *
  omega

/-- `json_array_count`; `none` for -1. -/
def jsonArrayCount (json : List UInt8) : Option Nat :=
  (arrayOpen json).bind fun pos => countElements json pos 0

/-- The loop of `json_array_get`. -/
def getElement (json : List UInt8) (index pos i : Nat) : Option JsonSpan :=
  let valueStart := skipWs json pos
  if json[valueStart]? = some closeBracket then none
  else
    match _ : scanValue json valueStart with
    | none => none
    | some (valueEnd, isStr) =>
        if i = index then some (spanFromValue valueStart valueEnd isStr)
        else
          let next := skipWs json valueEnd
          if _ : json[next]? = some commaByte then
            getElement json index (next + 1) (i + 1)
          else none
termination_by json.length - pos
decreasing_by
  have := scanValue_lt ‹_›
  have := le_skipWs json pos
  have := le_skipWs json valueEnd
  have := (List.getElem?_eq_some_iff.mp ‹json[next]? = some commaByte›).1
  simp only [valueStart, next] at *
  omega

/-- `json_array_get`. -/
def jsonArrayGet (json : List UInt8) (index : Nat) : Option JsonSpan :=
  (arrayOpen json).bind fun pos => getElement json index pos 0

-- ================================================================ decoding

/-- The `switch` of `json_decode_string`. -/
def decodeEscape (esc : UInt8) : Option UInt8 :=
  if esc = quoteByte then some quoteByte
  else if esc = backslashByte then some backslashByte
  else if esc = 0x2F then some 0x2F
  else if esc = 0x6E then some 0x0A
  else if esc = 0x74 then some 0x09
  else if esc = 0x72 then some 0x0D
  else if esc = 0x62 then some 0x08
  else if esc = 0x66 then some 0x0C
  else none

/-- What `json_decode_string` leaves: the bytes it has written to `out`,
from the first on, and what it returns. -/
structure Decoded where
  written : List UInt8
  result : Option Nat
  deriving DecidableEq

/-- The loop of `json_decode_string`; `out` is what is written so far. -/
def decodeFrom (json : List UInt8) (outCap i : Nat) (out : List UInt8) :
    Decoded :=
  if h : i < json.length then
    let ch := json[i]
    if ch = backslashByte then
      match json[i + 1]? with
      | none => ⟨out, none⟩
      | some esc =>
          if esc = 0x75 then
            if i + 6 > json.length ∨ out.length ≥ outCap then ⟨out, none⟩
            else decodeFrom json outCap (i + 6) (out ++ [0x3F])
          else
            match decodeEscape esc with
            | none => ⟨out, none⟩
            | some decoded =>
                if out.length ≥ outCap then ⟨out, none⟩
                else decodeFrom json outCap (i + 2) (out ++ [decoded])
    else if out.length ≥ outCap then ⟨out, none⟩
    else decodeFrom json outCap (i + 1) (out ++ [ch])
  else if out.length ≥ outCap then ⟨out, none⟩
  else ⟨out ++ [0], asInt out.length⟩
termination_by json.length - i

/-- `json_decode_string`. -/
def jsonDecodeString (json : List UInt8) (outCap : Nat) : Decoded :=
  decodeFrom json outCap 0 []

end Obicall
