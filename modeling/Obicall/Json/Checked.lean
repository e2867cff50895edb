/-
`json_min.c` on checked memory: the same loops as in `Core.Json`, one
machine step at a time.

A load behind the buffer, a store behind the output, a `uint32_t` sum or
difference that would wrap, an `int` that would overflow and a loop that
is not left after so many turns end the run (`none`). What the C function
returns is inside: its own failure, -1 or 0, is again a `none`.
-/
import Obicall.Core.Json
import Obicall.Lib.Checked

namespace Obicall.Checked

open Lib.Json Lib.Checked

-- ================================================================ machine

/-- `buf[pos]`. -/
def load (buf : List UInt8) (pos : Nat) : Option UInt8 := buf[pos]?

/-- The `n` bytes that `memcmp` looks at from `buf + pos` on. -/
def loadRange (buf : List UInt8) (pos n : Nat) : Option (List UInt8) :=
  if pos + n ≤ buf.length then some ((buf.drop pos).take n) else none

/-- `a + b` on `uint32_t`. -/
def add32 (a b : Nat) : Option Nat := if a + b < 2 ^ 32 then some (a + b) else none

/-- `a - b` on `uint32_t`. -/
def sub32 (a b : Nat) : Option Nat := if b ≤ a then some (a - b) else none

/-- `(int)n`. -/
def toInt (n : Nat) : Option Nat := if n < 2 ^ 31 then some n else none

/-- `out[oi++] = c`. -/
def putByte (outCap : Nat) (out : List UInt8) (c : UInt8) :
    Option (List UInt8) :=
  if out.length < outCap then some (out ++ [c]) else none

-- ================================================================ scanning

/-- `while (pos < len && is_ws(buf[pos])) pos++`. -/
def skipWsTurn (buf : List UInt8) (pos : Nat) : Option (Turn Nat Nat) :=
  if pos < buf.length then do
    let c ← load buf pos
    if isWs c then return .next (← add32 pos 1) else return .done pos
  else return .done pos

def skipWs (turns : Nat) (buf : List UInt8) (pos : Nat) : Option Nat :=
  loop (skipWsTurn buf) turns pos

/-- The test `pos < len && buf[pos] == c`. -/
def standsAt (buf : List UInt8) (pos : Nat) (c : UInt8) : Option Bool :=
  if pos < buf.length then do return (← load buf pos) == c
  else return false

/-- One turn of the loop of `skip_string`. -/
def skipStringTurn (buf : List UInt8) (pos : Nat) :
    Option (Turn Nat (Option Nat)) :=
  if pos < buf.length then do
    let ch ← load buf pos
    if ch = quoteByte then return .done (some (← toInt (← add32 pos 1)))
    else if ch = backslashByte then
      let next ← add32 pos 1
      if next ≥ buf.length then return .done none
      else
        let esc ← load buf next
        if esc = 0x75 then
          let past ← add32 pos 6
          if past > buf.length then return .done none
          else return .next past
        else return .next (← add32 pos 2)
    else return .next (← add32 pos 1)
  else return .done none

/-- `skip_string`. -/
def skipString (turns : Nat) (buf : List UInt8) (pos : Nat) :
    Option (Option Nat) := do
  if ← standsAt buf pos quoteByte then
    loop (skipStringTurn buf) turns (← add32 pos 1)
  else return none

/-- The depth behind a byte of a bracketed value; it is an `int`. -/
def stepDepth (opening closing c : UInt8) (depth : Nat) : Option Nat :=
  if c = opening then toInt (depth + 1)
  else if c = closing then sub32 depth 1
  else some depth

/-- One turn of the loop over a bracketed value. -/
def scanNestedTurn (turns : Nat) (buf : List UInt8) (opening closing : UInt8)
    (s : Nat × Nat) : Option (Turn (Nat × Nat) (Option Nat)) :=
  let (pos, depth) := s
  if depth = 0 then do return .done (some (← toInt pos))
  else if pos < buf.length then do
    let c ← load buf pos
    if c = quoteByte then
      match ← skipString turns buf pos with
      | none => return .done none
      | some r => return .next (r, depth)
    else
      let depth ← stepDepth opening closing c depth
      return .next (← add32 pos 1, depth)
  else return .done none

/-- `pos + n <= len && memcmp(buf + pos, word, n) == 0`. -/
def scanWord (buf : List UInt8) (pos : Nat) (word : List UInt8) :
    Option (Option Nat) := do
  let past ← add32 pos word.length
  if past ≤ buf.length then
    if (← loadRange buf pos word.length) = word then return some (← toInt past)
    else return none
  else return none

/-- `while (pos < len && buf[pos] >= '0' && buf[pos] <= '9') pos++`. -/
def scanDigitsTurn (buf : List UInt8) (pos : Nat) : Option (Turn Nat Nat) :=
  if pos < buf.length then do
    let c ← load buf pos
    if isDigit c then return .next (← add32 pos 1) else return .done pos
  else return .done pos

def scanDigits (turns : Nat) (buf : List UInt8) (pos : Nat) : Option Nat :=
  loop (scanDigitsTurn buf) turns pos

/-- One past the byte, if it stands there. -/
def skipByte (buf : List UInt8) (pos : Nat) (c : UInt8) : Option Nat := do
  if ← standsAt buf pos c then add32 pos 1 else return pos

def scanFraction (turns : Nat) (buf : List UInt8) (pos : Nat) :
    Option Nat := do
  if ← standsAt buf pos 0x2E then scanDigits turns buf (← add32 pos 1)
  else return pos

def scanSign (buf : List UInt8) (pos : Nat) : Option Nat := do
  if ← standsAt buf pos 0x2B then add32 pos 1 else skipByte buf pos 0x2D

def scanExponent (turns : Nat) (buf : List UInt8) (pos : Nat) :
    Option Nat := do
  if (← standsAt buf pos 0x65) || (← standsAt buf pos 0x45) then
    scanDigits turns buf (← scanSign buf (← add32 pos 1))
  else return pos

/-- The number branch of `scan_value`. -/
def scanNumber (turns : Nat) (buf : List UInt8) (start : Nat) :
    Option (Option Nat) := do
  let pos ← skipByte buf start 0x2D
  let pos ← scanDigits turns buf pos
  let pos ← scanFraction turns buf pos
  let pos ← scanExponent turns buf pos
  if pos = start then return none else return some (← toInt pos)

/-- `scan_value` behind the blanks. -/
def scanValueAt (turns : Nat) (buf : List UInt8) (pos : Nat) :
    Option (Option (Nat × Bool)) :=
  if pos < buf.length then do
    let ch ← load buf pos
    if ch = quoteByte then
      return (← skipString turns buf pos).map (·, true)
    else if ch = openBrace ∨ ch = openBracket then
      return (← loop (scanNestedTurn turns buf ch (closingOf ch)) turns
        (← add32 pos 1, 1)).map (·, false)
    else if ch = 0x74 then return (← scanWord buf pos trueText).map (·, false)
    else if ch = 0x66 then return (← scanWord buf pos falseText).map (·, false)
    else if ch = 0x6E then return (← scanWord buf pos nullText).map (·, false)
    else if ch = 0x2D ∨ isDigit ch then
      return (← scanNumber turns buf pos).map (·, false)
    else return none
  else return none

/-- `scan_value`. -/
def scanValue (turns : Nat) (buf : List UInt8) (pos : Nat) :
    Option (Option (Nat × Bool)) := do
  scanValueAt turns buf (← skipWs turns buf pos)

-- ================================================================= lookups

/-- `span_from_value`. -/
def spanFromValue (valueStart valueEnd : Nat) (isStr : Bool) :
    Option JsonSpan := do
  if isStr then
    let off ← add32 valueStart 1
    return ⟨off, ← sub32 (← sub32 valueEnd 1) off, isStr⟩
  else return ⟨valueStart, ← sub32 valueEnd valueStart, isStr⟩

/-- `key_str_len == key_len && memcmp(json + key_start, key, key_len) == 0`. -/
def keyMatches (json key : List UInt8) (keyStart keyStrLen : Nat) :
    Option Bool :=
  if keyStrLen = key.length then do
    return (← loadRange json keyStart key.length) == key
  else return false

/-- One turn of the loop of `json_object_find`. -/
def findMemberTurn (turns : Nat) (json key : List UInt8) (pos : Nat) :
    Option (Turn Nat (Option JsonSpan)) := do
  let pos ← skipWs turns json pos
  match ← skipString turns json pos with
  | none => return .done none
  | some keyEnd =>
      let keyStart ← add32 pos 1
      let keyStrLen ← sub32 (← sub32 keyEnd 1) keyStart
      let colon ← skipWs turns json keyEnd
      if ← standsAt json colon colonByte then
        let valueStart ← skipWs turns json (← add32 colon 1)
        match ← scanValue turns json valueStart with
        | none => return .done none
        | some (valueEnd, isStr) =>
            if ← keyMatches json key keyStart keyStrLen then
              return .done (some (← spanFromValue valueStart valueEnd isStr))
            else
              let next ← skipWs turns json valueEnd
              if ← standsAt json next commaByte then
                return .next (← add32 next 1)
              else return .done none
      else return .done none

/-- `json_object_find`. -/
def jsonObjectFind (turns : Nat) (json key : List UInt8) :
    Option (Option JsonSpan) := do
  let pos ← skipWs turns json 0
  if ← standsAt json pos openBrace then
    loop (findMemberTurn turns json key) turns (← add32 pos 1)
  else return none

/-- `array_open`. -/
def arrayOpen (turns : Nat) (json : List UInt8) : Option (Option Nat) := do
  let pos ← skipWs turns json 0
  if ← standsAt json pos openBracket then return some (← add32 pos 1)
  else return none

/-- One turn of the loop of `json_array_count`; `count` is an `int`. -/
def countElementsTurn (turns : Nat) (json : List UInt8) (s : Nat × Nat) :
    Option (Turn (Nat × Nat) (Option Nat)) := do
  let (pos, count) := s
  let start ← skipWs turns json pos
  if ← standsAt json start closeBracket then return .done (some count)
  else
    match ← scanValue turns json start with
    | none => return .done none
    | some (valueEnd, _) =>
        let count ← toInt (count + 1)
        let next ← skipWs turns json valueEnd
        if ← standsAt json next commaByte then
          return .next (← add32 next 1, count)
        else if ← standsAt json next closeBracket then
          return .done (some count)
        else return .done none

/-- `json_array_count`. -/
def jsonArrayCount (turns : Nat) (json : List UInt8) :
    Option (Option Nat) := do
  match ← arrayOpen turns json with
  | none => return none
  | some pos => loop (countElementsTurn turns json) turns (pos, 0)

/-- One turn of the loop of `json_array_get`. -/
def getElementTurn (turns : Nat) (json : List UInt8) (index : Nat)
    (s : Nat × Nat) : Option (Turn (Nat × Nat) (Option JsonSpan)) := do
  let (pos, i) := s
  let valueStart ← skipWs turns json pos
  if ← standsAt json valueStart closeBracket then return .done none
  else
    match ← scanValue turns json valueStart with
    | none => return .done none
    | some (valueEnd, isStr) =>
        if i = index then
          return .done (some (← spanFromValue valueStart valueEnd isStr))
        else
          let i ← add32 i 1
          let next ← skipWs turns json valueEnd
          if ← standsAt json next commaByte then
            return .next (← add32 next 1, i)
          else return .done none

/-- `json_array_get`. -/
def jsonArrayGet (turns : Nat) (json : List UInt8) (index : Nat) :
    Option (Option JsonSpan) := do
  match ← arrayOpen turns json with
  | none => return none
  | some pos => loop (getElementTurn turns json index) turns (pos, 0)

-- ================================================================ decoding

/-- One turn of the loop of `json_decode_string`; `out` is what is written
so far. -/
def decodeTurn (json : List UInt8) (outCap : Nat) (s : Nat × List UInt8) :
    Option (Turn (Nat × List UInt8) Decoded) :=
  let (i, out) := s
  if i < json.length then do
    let ch ← load json i
    if ch = backslashByte then
      let next ← add32 i 1
      if next ≥ json.length then return .done ⟨out, none⟩
      else
        let esc ← load json next
        if esc = 0x75 then
          let past ← add32 i 6
          if past > json.length ∨ out.length ≥ outCap then
            return .done ⟨out, none⟩
          else return .next (past, ← putByte outCap out 0x3F)
        else
          match decodeEscape esc with
          | none => return .done ⟨out, none⟩
          | some decoded =>
              if out.length ≥ outCap then return .done ⟨out, none⟩
              else return .next (← add32 i 2, ← putByte outCap out decoded)
    else if out.length ≥ outCap then return .done ⟨out, none⟩
    else return .next (← add32 i 1, ← putByte outCap out ch)
  else if out.length ≥ outCap then return .done ⟨out, none⟩
  else do
    return .done ⟨← putByte outCap out 0, some (← toInt out.length)⟩

/-- `json_decode_string`. -/
def jsonDecodeString (turns : Nat) (json : List UInt8) (outCap : Nat) :
    Option Decoded :=
  loop (decodeTurn json outCap) turns (0, [])

end Obicall.Checked
