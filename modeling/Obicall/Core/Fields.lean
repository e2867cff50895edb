/-
The fields of a JSON object as `manifest.c` and `pipeline_config.c` read
them: a member is looked up by its key, and its text becomes a string in an
array of the caller, a number or a truth value.

Both files have these readers as `static` functions of their own, with the
same bodies: `find_field_str` and `get_str`, `find_field_num` and `get_num`.

# Strings

`json_decode_string` writes while it scans, and a reader that is told that
the string does not fit, or is malformed, finds its array written up to
there and not terminated. The array is what a reader returns, next to
whether it has succeeded.

# Numbers

`strtod` and the conversions of a `double` to an integer type are
`DoubleText`; where C leaves a conversion undefined, because the number is
out of range, so does the class.
-/
import Mathlib.Data.List.TakeWhile
import Obicall.Core.Binary64
import Obicall.Core.Json
import Obicall.Lib.Overlay

namespace Obicall

open Lib.Json Lib.Overlay

variable {F : Type} {n : Nat}

/-- The bytes of a string literal. -/
def ascii (s : String) : List UInt8 := s.toUTF8.data.toList

-- ================================================================ members

/-- A span as its readers use it: whether it is a string, and `json + off`
with `len` as a buffer of its own. -/
structure JsonText where
  isString : Bool
  text : List UInt8
  deriving DecidableEq

def JsonSpan.within (json : List UInt8) (sp : JsonSpan) : JsonText :=
  ⟨sp.isString, sp.read json⟩

/-- `json_object_find` with the span read. -/
def findText (json key : List UInt8) : Option JsonText :=
  (jsonObjectFind json key).map (JsonSpan.within json)

/-- `json_array_get` with the span read. -/
def elementText (json : List UInt8) (index : Nat) : Option JsonText :=
  (jsonArrayGet json index).map (JsonSpan.within json)

/-- The text of the member where it is a string. -/
def stringText (json key : List UInt8) : Option (List UInt8) :=
  (findText json key).bind fun t => if t.isString then some t.text else none

/-- The text of the member where it is no string. -/
def plainText (json key : List UInt8) : Option (List UInt8) :=
  (findText json key).bind fun t => if t.isString then none else some t.text

-- ================================================================ strings

/-- `json_decode_string` into an array of the caller, with what the array
holds afterwards and whether the result is not negative. -/
def decodeInto (text : List UInt8) (out : Vector UInt8 n) :
    Vector UInt8 n × Bool :=
  let decoded := jsonDecodeString text n
  (place 0 decoded.written out, decoded.result.isSome)

/-- `find_field_str`. -/
def findFieldStr (json key : List UInt8) (out : Vector UInt8 n) :
    Vector UInt8 n × Bool :=
  match stringText json key with
  | none => (out, false)
  | some text => decodeInto text out

/-- `get_str`. -/
abbrev getStr (json key : List UInt8) (out : Vector UInt8 n) :
    Vector UInt8 n × Bool :=
  findFieldStr json key out

/-- The string a local array of `cap` bytes holds after the element at
`index` is decoded into it, where the element is a string and fits. -/
def elementName (array : List UInt8) (index cap : Nat) : Option (List UInt8) :=
  (elementText array index).bind fun elem =>
    let decoded := jsonDecodeString elem.text cap
    if elem.isString && decoded.result.isSome then
      some (decoded.written.takeWhile (· != 0))
    else none

/-- An array after `memset(.., 0, ..)`. -/
def zeroBytes (n : Nat) : Vector UInt8 n := Vector.replicate n 0

-- ================================================================ numbers

/-- `strtod` on the text up to its end, `none` where it converts nothing;
the conversions `(uint32_t)`, `(uint64_t)` and `(int64_t)`. -/
class DoubleText (F : Type) where
  strtod : List UInt8 → Option F
  toUInt32 : F → UInt32
  toUInt64 : F → UInt64
  toInt64 : F → Int64

/-- `json_parse_number`. -/
def jsonParseNumber [DoubleText F] (json : List UInt8) : Option F :=
  if 64 ≤ json.length then none else DoubleText.strtod json

/-- `find_field_num`. -/
def findFieldNum [DoubleText F] (json key : List UInt8) : Option F :=
  (plainText json key).bind jsonParseNumber

/-- `get_num`. -/
abbrev getNum [DoubleText F] (json key : List UInt8) : Option F :=
  findFieldNum json key

-- ================================================= truth values and objects

/-- `json_span_is_true`. -/
def jsonSpanIsTrue (json : List UInt8) : Bool := json == trueText

/-- `json_span_is_false`. -/
def jsonSpanIsFalse (json : List UInt8) : Bool := json == falseText

/-- `get_bool`, with `out` for what it leaves untouched. -/
def getBool (json key : List UInt8) (out : Bool) : Bool :=
  match plainText json key with
  | none => out
  | some text =>
      if jsonSpanIsTrue text then true
      else if jsonSpanIsFalse text then false
      else out

/-- `get_obj`. -/
abbrev getObj (json key : List UInt8) : Option (List UInt8) :=
  plainText json key

-- ========================================================= `strtod`, decimal

namespace Binary64

/-- The number a list of digits writes. -/
def digitsValue (digits : List UInt8) : Nat :=
  digits.foldl (fun n c => 10 * n + (c.toNat - 0x30)) 0

/-- A sign in front of a text, and the text behind it. -/
def signed? (text : List UInt8) : Bool × List UInt8 :=
  match text with
  | [] => (false, [])
  | c :: rest =>
      if c = 0x2D then (true, rest)
      else if c = 0x2B then (false, rest)
      else (false, c :: rest)

/-- The digits in front of a text, and the text behind them. -/
def digits (text : List UInt8) : List UInt8 × List UInt8 :=
  (text.takeWhile isDigit, text.dropWhile isDigit)

/-- The digits behind a point, and the text behind them. -/
def fractionDigits (text : List UInt8) : List UInt8 × List UInt8 :=
  match text with
  | [] => ([], [])
  | c :: rest => if c = 0x2E then digits rest else ([], c :: rest)

/-- The exponent in front of a text; 0 where it has none. -/
def exponentValue (text : List UInt8) : Int :=
  match text with
  | [] => 0
  | c :: rest =>
      if c = 0x65 ∨ c = 0x45 then
        let s := signed? rest
        let value := digitsValue (digits s.2).1
        if s.1 then -value else value
      else 0

/-- `strtod` on a decimal number, which is all that a JSON value is that it
converts. Exponents beyond the range of a text of 63 characters are cut. -/
def strtod (text : List UInt8) : Option Binary64 :=
  let s := signed? text
  let int := digits s.2
  let fraction := fractionDigits int.2
  if int.1 = [] ∧ fraction.1 = [] then none
  else
    let e := max (-500) (min 500
      (exponentValue fraction.2 - fraction.1.length))
    let m := digitsValue (int.1 ++ fraction.1)
    some (round s.1 (m * 10 ^ e.toNat) (10 ^ (-e).toNat) 0)

/-- The integer part of a finite number. -/
def trunc (x : Binary64) : Int :=
  let body := x.significand * 2 ^ x.exponent.toNat / 2 ^ (-x.exponent).toNat
  if x.negative then -body else body

end Binary64

instance : DoubleText Binary64 where
  strtod := Binary64.strtod
  toUInt32 x := UInt32.ofInt x.trunc
  toUInt64 x := UInt64.ofInt x.trunc
  toInt64 x := Int64.ofInt x.trunc

example : Binary64.strtod (ascii "-1.5e2") = some ⟨0xC062C00000000000⟩
    ∧ (Binary64.strtod (ascii "2000.9")).map Binary64.trunc = some 2000
    ∧ Binary64.strtod (ascii "true") = none := by decide +kernel

end Obicall
