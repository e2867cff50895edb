/-
What a process is told on its command line (`procutil.c`): options with
values, numbers in decimal, and byte strings in hexadecimal.

`argv` is the list of the strings, the program's own name first. The
floating-point texts are written by `%.9g` and read by `strtod`, which are
the C library's: `DoublePrint`.
-/
import Mathlib.Data.List.Basic
import Obicall.Core.Fields
import Obicall.Lib.Decimal
import Obicall.Lib.Hex
import Obicall.Lib.Options

namespace Obicall

open Lib.Options

-- ============================================================= hexadecimal

/-- `hexchars`. -/
def hexChars : List UInt8 := ascii "0123456789abcdef"

/-- `procutil_hex_encode`: the string it writes, `none` for its -1. -/
def procutilHexEncode (data : List UInt8) (outCap : UInt32) :
    Option (List UInt8) :=
  if outCap < UInt32.ofNat data.length * 2 + 1 then none
  else some (data.flatMap fun (b : UInt8) =>
    [hexChars.getD (b >>> 4).toNat 0, hexChars.getD (b &&& 0xF).toNat 0])

/-- `hex_val`. -/
def hexVal (c : UInt8) : Option UInt8 :=
  if c ≥ 0x30 ∧ c ≤ 0x39 then some (c - 0x30)
  else if c ≥ 0x61 ∧ c ≤ 0x66 then some (c - 0x61 + 10)
  else if c ≥ 0x41 ∧ c ≤ 0x46 then some (c - 0x41 + 10)
  else none

/-- The loop of `procutil_hex_decode`: whether it came through, and the
bytes it wrote. -/
def hexDecodeLoop : List UInt8 → Bool × List UInt8
  | hi :: lo :: rest =>
      match hexVal hi, hexVal lo with
      | some h, some l =>
          let more := hexDecodeLoop rest
          (more.1, (h <<< 4 ||| l) :: more.2)
      | _, _ => (false, [])
  | _ => (true, [])

/-- `procutil_hex_decode`. -/
def procutilHexDecode (hex : List UInt8) (outLen : UInt32) :
    Bool × List UInt8 :=
  if UInt32.ofNat hex.length ≠ outLen * 2 then (false, [])
  else hexDecodeLoop hex

-- ================================================================= options

/-- `find_arg`. -/
def findArg (argv : List (List UInt8)) (name : List UInt8) :
    Option (List UInt8) := valueAfter name argv.tail

/-- `procutil_arg_str` with a default. -/
def procutilArgStr (argv : List (List UInt8)) (name dflt : List UInt8) :
    List UInt8 := (findArg argv name).getD dflt

/-- `procutil_arg_flag`. -/
def procutilArgFlag (argv : List (List UInt8)) (name : List UInt8) : Bool :=
  argv.tail.any (· == name)

/-- `strtoll(v, NULL, 10)`. -/
def strtoll (v : List UInt8) : Int64 :=
  match Lib.Decimal.readInt v with
  | none => 0
  | some n => Int64.ofInt (max (-2 ^ 63) (min n (2 ^ 63 - 1)))

/-- `procutil_arg_i64`. -/
def procutilArgI64 (argv : List (List UInt8)) (name : List UInt8)
    (dflt : Int64) : Int64 := ((findArg argv name).map strtoll).getD dflt

/-- A word that could be taken for an option's name: it begins with two
dashes. -/
def OptionLike (w : List UInt8) : Prop := w.take 2 = [0x2D, 0x2D]

instance (w : List UInt8) : Decidable (OptionLike w) :=
  inferInstanceAs (Decidable (_ = _))

/-- `%.9g`, and `strtod` on a whole string. What `%.9g` writes is a number,
which has one sign at most. -/
class DoublePrint (F : Type) where
  printG9 : F → List UInt8
  strtodPrefix : List UInt8 → F
  printG9_plain : ∀ x, ¬ OptionLike (printG9 x)

/-- `procutil_arg_f64`. -/
def procutilArgF64 {F : Type} [DoublePrint F] (argv : List (List UInt8))
    (name : List UInt8) (dflt : F) : F :=
  ((findArg argv name).map DoublePrint.strtodPrefix).getD dflt

/-- The string that `snprintf` leaves in an array of `cap` characters. -/
def cut (cap : Nat) (text : List UInt8) : List UInt8 := text.take (cap - 1)

/-- `num_to_buf`. -/
def numToBuf (cap : Nat) (v : Int64) : List UInt8 :=
  cut cap (Lib.Decimal.showInt v.toInt)

/-- `f64_to_buf`. -/
def f64ToBuf {F : Type} [DoublePrint F] (cap : Nat) (v : F) : List UInt8 :=
  cut cap (DoublePrint.printG9 v)

end Obicall
