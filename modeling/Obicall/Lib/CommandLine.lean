/-
How a program started by the Microsoft C runtime splits its command line
into arguments.

Arguments are separated by blanks. A quote starts and ends a quotation, in
which blanks are plain. Backslashes are plain too, but in front of a
quote: `2n` of them give `n`, and the quote is a delimiter; `2n + 1` give
`n`, and the quote is plain. Two points differ between versions and
accounts of the rules, and `Rules` leaves them open: whether the first
argument is read as a program name, in which no backslash is special, and
whether a quotation's closing quote with another one behind it is a plain
quote, in a quotation that goes on.

# What is used of the reader

- `readFrom_quotation`: inside a quotation all characters but quotes are
  read as they are; what is left open are the backslashes at the end.
- `readFrom_arg`: what an argument has been read as stays its beginning.
-/
import Mathlib.Data.List.Induction

namespace Lib.CommandLine

/-- `\`, `"` and a space. -/
abbrev backslash : UInt8 := 0x5c
abbrev quote : UInt8 := 0x22
abbrev space : UInt8 := 0x20

def blank (c : UInt8) : Bool := c == space || c == 0x09

structure Rules where
  /-- the first argument is a program name -/
  programName : Bool
  /-- a doubled quote in a quotation is a plain one -/
  pairs : Bool

/-- An argument being read, without the backslashes at its end. -/
structure Reading where
  arg : List UInt8
  slashes : Nat
  quoted : Bool
  /-- the character before closed a quotation -/
  closed : Bool

def Reading.start : Reading := ⟨[], 0, false, false⟩

/-- With the backslashes, which turn out to be plain. -/
def Reading.whole (r : Reading) : List UInt8 :=
  r.arg ++ List.replicate r.slashes backslash

/-- The next character, unless it ends the argument. -/
def Reading.step (pairs : Bool) (r : Reading) (c : UInt8) : Option Reading :=
  if c == backslash then
    some { r with slashes := r.slashes + 1, closed := false }
  else if c == quote then
    if pairs && r.closed then some ⟨r.arg ++ [quote], 0, true, false⟩
    else if r.slashes % 2 == 1 then
      some
        ⟨r.arg ++ List.replicate (r.slashes / 2) backslash ++ [quote], 0,
          r.quoted, false⟩
    else
      some
        ⟨r.arg ++ List.replicate (r.slashes / 2) backslash, 0, !r.quoted,
          r.quoted⟩
  else if !r.quoted && blank c then none
  else some ⟨r.whole ++ [c], 0, r.quoted, false⟩

/-- The arguments, from the middle of one or from between two. -/
def readFrom (pairs : Bool) : Option Reading → List UInt8 → List (List UInt8)
  | none, [] => []
  | some r, [] => [r.whole]
  | none, c :: cs =>
      if blank c then readFrom pairs none cs
      else readFrom pairs (Reading.start.step pairs c) cs
  | some r, c :: cs =>
      match r.step pairs c with
      | some r => readFrom pairs (some r) cs
      | none => r.whole :: readFrom pairs none cs

/-- The arguments, from the middle of the program name. -/
def readProgram (pairs : Bool) :
    Bool → List UInt8 → List UInt8 → List (List UInt8)
  | _, name, [] => [name]
  | quoted, name, c :: cs =>
      if c == quote then readProgram pairs (!quoted) name cs
      else if !quoted && blank c then name :: readFrom pairs none cs
      else readProgram pairs quoted (name ++ [c]) cs

/-- The arguments of a command line. -/
def Rules.split (rules : Rules) (line : List UInt8) : List (List UInt8) :=
  if rules.programName then readProgram rules.pairs false [] line
  else readFrom rules.pairs none line

-- ================================================================ reading

variable {pairs : Bool}

/-- What has been read stays. -/
theorem Reading.arg_step {r r' : Reading} {c : UInt8}
    (h : r.step pairs c = some r') : ∃ more, r'.arg = r.arg ++ more := by
  rw [step] at h
  split at h
  · obtain rfl := Option.some.inj h
    exact ⟨[], (List.append_nil _).symm⟩
  split at h
  · split at h
    · obtain rfl := Option.some.inj h
      exact ⟨_, rfl⟩
    split at h
    · obtain rfl := Option.some.inj h
      exact ⟨_, List.append_assoc _ _ _⟩
    · obtain rfl := Option.some.inj h
      exact ⟨_, rfl⟩
  split at h
  · cases h
  · obtain rfl := Option.some.inj h
    exact ⟨_, List.append_assoc _ _ _⟩

theorem readFrom_arg (r : Reading) (line : List UInt8) :
    ∃ more args, readFrom pairs (some r) line = (r.arg ++ more) :: args := by
  induction line generalizing r with
  | nil => exact ⟨_, [], rfl⟩
  | cons c cs ih =>
      rw [readFrom]
      cases hstep : r.step pairs c with
      | none => exact ⟨_, _, rfl⟩
      | some r' =>
          obtain ⟨more, hmore⟩ := Reading.arg_step hstep
          obtain ⟨more', args, hrest⟩ := ih r'
          rw [hmore, List.append_assoc] at hrest
          exact ⟨_, _, hrest⟩

/-- Inside a quotation. -/
theorem Reading.step_quoted {r : Reading} (h : r.quoted = true) {c : UInt8}
    (hc : c ≠ quote) :
    ∃ r', r.step pairs c = some r' ∧ r'.quoted = true ∧ r'.closed = false
      ∧ r'.whole = r.whole ++ [c] ∧ (0 < r'.slashes ↔ c = backslash) := by
  rw [step]
  by_cases hslash : c = backslash
  · rw [if_pos (beq_iff_eq.mpr hslash)]
    refine ⟨_, rfl, h, rfl, ?_, iff_of_true (Nat.succ_pos _) hslash⟩
    rw [whole, whole, List.replicate_succ', hslash, List.append_assoc]
  · rw [if_neg (fun he => hslash (beq_iff_eq.mp he)),
      if_neg (fun he => hc (beq_iff_eq.mp he)), h, Bool.not_true,
      Bool.false_and, if_neg Bool.false_ne_true]
    exact ⟨_, rfl, rfl, rfl, List.append_nil _,
      iff_of_false (Nat.lt_irrefl 0) hslash⟩

/-- The text of a quotation, from the quote before it. -/
theorem readFrom_quotation {text : List UInt8} (h : quote ∉ text) :
    ∃ r : Reading,
      (∀ rest, readFrom pairs (some ⟨[], 0, true, false⟩) (text ++ rest)
        = readFrom pairs (some r) rest)
        ∧ r.quoted = true ∧ r.closed = false ∧ r.whole = text
        ∧ (0 < r.slashes ↔ text.getLast? = some backslash) := by
  induction text using List.reverseRecOn with
  | nil => exact ⟨_, fun _ => rfl, rfl, rfl, rfl, by simp⟩
  | append_singleton text c ih =>
      rw [List.mem_append, not_or, List.mem_singleton] at h
      obtain ⟨r, hread, hquoted, -, hwhole, -⟩ := ih h.1
      obtain ⟨r', hstep, hquoted', hclosed', hwhole', hslashes⟩ :=
        Reading.step_quoted hquoted (Ne.symm h.2)
      refine ⟨r', fun rest => ?_, hquoted', hclosed', ?_, ?_⟩
      · rw [List.append_assoc, hread, List.singleton_append, readFrom, hstep]
      · rw [hwhole', hwhole]
      · rw [hslashes, List.getLast?_append, List.getLast?_singleton,
          Option.some_or, Option.some.injEq]

end Lib.CommandLine
