/-
`json_escape` (`main.c` of the CLI): a C string written between the quotes
of a JSON string, and cut where the buffer ends. A turn may write two bytes,
so the loop wants room for them and for the `NUL`.
-/
import Obicall.Lib.Json

namespace Obicall

open Lib.Json

/-- What a turn of the loop writes for a byte. -/
def escapeByte (p : UInt8) : List UInt8 :=
  if p = quoteByte ∨ p = backslashByte then [backslashByte, p]
  else if p = 0x0A then [backslashByte, 0x6E]
  else if p ≥ 0x20 then [p]
  else []

/-- The loop of `json_escape`; `out` is what is written so far. -/
def escapeFrom (outCap : Nat) : List UInt8 → List UInt8 → List UInt8
  | [], out => out
  | p :: rest, out =>
      if p ≠ 0 ∧ out.length + 2 < outCap then
        escapeFrom outCap rest (out ++ escapeByte p)
      else out

/-- `json_escape`: the bytes it writes to `out`, from the first on. The
string ends at its first `NUL`, or with the list; `none` is a null
pointer. -/
def jsonEscape (s : Option (List UInt8)) (outCap : Nat) : List UInt8 :=
  escapeFrom outCap (s.getD []) [] ++ [0]

end Obicall
