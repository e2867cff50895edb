/-
The command line of a child process on Windows (`osal_process.c`).

An argument is the string's bytes before its NUL. The command line is
built in a buffer of fixed size; what no longer fits ends the build.
-/
import Mathlib.Data.List.Basic

namespace Obicall

/-- `out[pos++] = c`, with room left for the NUL. -/
def putChar (cap : Nat) (out : List UInt8) (c : UInt8) : Option (List UInt8) :=
  if out.length + 1 ≥ cap then none else some (out ++ [c])

/-- The space in front of all but the first. -/
def putSpace (cap : Nat) (out : List UInt8) (i : Nat) : Option (List UInt8) :=
  if i > 0 then putChar cap out 0x20 else some out

/-- One turn of the loop of `build_command_line`. -/
def putArg (cap : Nat) (out : List UInt8) (i : Nat) (arg : List UInt8) :
    Option (List UInt8) := do
  let out ← putSpace cap out i
  let out ← putChar cap out 0x22
  let out ← arg.foldlM (putChar cap) out
  putChar cap out 0x22

/-- `build_command_line`: the string in `out`, or `none` for a return
of 0. -/
def buildCommandLine (cap : Nat) (argv : List (List UInt8)) :
    Option (List UInt8) := do
  let out ← argv.zipIdx.foldlM (fun out a => putArg cap out a.2 a.1) []
  if out.length ≥ cap then none else some out

end Obicall
