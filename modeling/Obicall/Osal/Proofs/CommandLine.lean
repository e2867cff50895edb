/-
What a child makes of the command line it is started with.

The builder quotes every argument and writes nothing else, so what it
builds is the quoted arguments with a space between them, if that fits
(`buildCommandLine_eq_some`). A quoted argument is read back as it was
unless it ends with a backslash, which then stands in front of the closing
quote (`readFrom_quoteArg`, `readFrom_quoteArg_ne`).
-/
import Obicall.Lib.CommandLine
import Obicall.Osal.CommandLine

namespace Obicall

open Lib.CommandLine

-- ================================================================== build

/-- An argument in quotes. -/
def quoteArg (arg : List UInt8) : List UInt8 := quote :: (arg ++ [quote])

/-- The arguments behind the first. -/
def furtherArgs (argv : List (List UInt8)) : List UInt8 :=
  argv.flatMap fun arg => space :: quoteArg arg

/-- The command line, whatever its length. -/
def commandLine : List (List UInt8) → List UInt8
  | [] => []
  | arg :: argv => quoteArg arg ++ furtherArgs argv

/-- What a successful step leaves behind `out`. -/
theorem putChar_eq_some {cap : Nat} {out out' : List UInt8} {c : UInt8}
    (h : putChar cap out c = some out') : out' = out ++ [c] := by
  rw [putChar] at h
  split at h
  · cases h
  · exact (Option.some.inj h).symm

theorem foldlM_putChar_eq_some {cap : Nat} {arg out out' : List UInt8}
    (h : arg.foldlM (putChar cap) out = some out') : out' = out ++ arg := by
  induction arg generalizing out with
  | nil =>
      obtain rfl := Option.some.inj h
      exact (List.append_nil _).symm
  | cons c arg ih =>
      rw [List.foldlM_cons] at h
      obtain ⟨next, hput, hrest⟩ := Option.bind_eq_some_iff.mp h
      rw [ih hrest, putChar_eq_some hput, List.append_assoc]
      rfl

theorem putArg_eq_some {cap i : Nat} {arg out out' : List UInt8}
    (h : putArg cap out i arg = some out') :
    out' = out ++ ((if i > 0 then [space] else []) ++ quoteArg arg) := by
  rw [putArg] at h
  obtain ⟨out₁, h₁, h⟩ := Option.bind_eq_some_iff.mp h
  obtain ⟨out₂, h₂, h⟩ := Option.bind_eq_some_iff.mp h
  obtain ⟨out₃, h₃, h₄⟩ := Option.bind_eq_some_iff.mp h
  have hspace : out₁ = out ++ if i > 0 then [space] else [] := by
    rw [putSpace] at h₁
    split at h₁
    next hi => rw [if_pos hi, putChar_eq_some h₁]
    next hi => rw [if_neg hi, List.append_nil, Option.some.inj h₁]
  rw [putChar_eq_some h₄, foldlM_putChar_eq_some h₃, putChar_eq_some h₂,
    hspace, quoteArg]
  simp

/-- What is built is the whole command line. -/
theorem buildCommandLine_eq_some {cap : Nat} {argv : List (List UInt8)}
    {line : List UInt8} (h : buildCommandLine cap argv = some line) :
    line = commandLine argv := by
  have hfurther : ∀ (argv : List (List UInt8)) (i : Nat) (out out' : List UInt8),
      0 < i → (argv.zipIdx i).foldlM (fun out a => putArg cap out a.2 a.1) out
        = some out' → out' = out ++ furtherArgs argv := by
    intro argv
    induction argv with
    | nil =>
        intro i out out' _ hout
        obtain rfl := Option.some.inj hout
        exact (List.append_nil _).symm
    | cons arg argv ih =>
        intro i out out' hi hout
        rw [List.zipIdx_cons, List.foldlM_cons] at hout
        obtain ⟨next, hput, hrest⟩ := Option.bind_eq_some_iff.mp hout
        rw [ih (i + 1) next out' (Nat.succ_pos i) hrest, putArg_eq_some hput,
          if_pos hi, furtherArgs, furtherArgs, List.flatMap_cons]
        simp
  rw [buildCommandLine] at h
  obtain ⟨out, hout, hcap⟩ := Option.bind_eq_some_iff.mp h
  split at hcap
  · cases hcap
  obtain rfl := Option.some.inj hcap
  cases argv with
  | nil => exact (Option.some.inj hout).symm
  | cons arg argv =>
      rw [List.zipIdx_cons, List.foldlM_cons] at hout
      obtain ⟨next, hput, hrest⟩ := Option.bind_eq_some_iff.mp hout
      rw [hfurther argv 1 next out Nat.one_pos hrest, putArg_eq_some hput]
      rfl

-- ==================================================================== read

variable {pairs : Bool}

/-- Between two arguments, or at the end. -/
def AtEnd (rest : List UInt8) : Prop :=
  rest = [] ∨ ∃ rest', rest = space :: rest'

theorem atEnd_furtherArgs (argv : List (List UInt8)) :
    AtEnd (furtherArgs argv) := by
  cases argv with
  | nil => exact .inl rfl
  | cons arg argv => exact .inr ⟨_, rfl⟩

/-- A closed quotation with the end of its argument behind it. -/
theorem readFrom_closed (arg : List UInt8) {rest : List UInt8}
    (h : AtEnd rest) :
    readFrom pairs (some ⟨arg, 0, false, true⟩) rest
      = arg :: readFrom pairs none rest := by
  have hwhole : Reading.whole ⟨arg, 0, false, true⟩ = arg := List.append_nil _
  rcases h with rfl | ⟨rest, rfl⟩
  · rw [readFrom, readFrom, hwhole]
  · have hstep : Reading.step pairs ⟨arg, 0, false, true⟩ space = none := rfl
    have hskip : readFrom pairs none (space :: rest) = readFrom pairs none rest :=
      rfl
    rw [hskip, readFrom, hstep, hwhole]

/-- The closing quote behind the text of a quotation. -/
theorem readFrom_quoteArg_step (arg rest : List UInt8) (h : quote ∉ arg) :
    ∃ r : Reading, r.quoted = true ∧ r.closed = false ∧ r.whole = arg
      ∧ (0 < r.slashes ↔ arg.getLast? = some backslash)
      ∧ readFrom pairs none (quoteArg arg ++ rest)
        = readFrom pairs (some r) (quote :: rest) := by
  obtain ⟨r, hread, hquoted, hclosed, hwhole, hslashes⟩ :=
    @readFrom_quotation pairs arg h
  have hopen : Reading.step pairs .start quote
      = some ⟨[], 0, true, false⟩ := by
    rw [Reading.step, Reading.start, Bool.and_false]
    rfl
  refine ⟨r, hquoted, hclosed, hwhole, hslashes, ?_⟩
  rw [← hread, quoteArg, List.cons_append, List.append_assoc, readFrom,
    if_neg (by decide), hopen]
  rfl

/-- An argument that does not end with a backslash is read back. -/
theorem readFrom_quoteArg {arg rest : List UInt8} (h : quote ∉ arg)
    (hlast : arg.getLast? ≠ some backslash) (hrest : AtEnd rest) :
    readFrom pairs none (quoteArg arg ++ rest)
      = arg :: readFrom pairs none rest := by
  obtain ⟨r, hquoted, hclosed, hwhole, hslashes, hread⟩ :=
    @readFrom_quoteArg_step pairs arg rest h
  have hzero : r.slashes = 0 := by
    have hno := mt hslashes.mp hlast
    omega
  have harg : r.arg = arg := by
    rw [← hwhole, Reading.whole, hzero, List.replicate_zero, List.append_nil]
  have hstep : r.step pairs quote = some ⟨arg, 0, false, true⟩ := by
    rw [Reading.step, if_neg (by decide), if_pos (beq_self_eq_true quote),
      hclosed, Bool.and_false,
      if_neg Bool.false_ne_true, hzero, if_neg (by decide), hquoted, harg]
    simp
  rw [hread, readFrom, hstep]
  exact readFrom_closed arg hrest

/-- One that does is not. -/
theorem readFrom_quoteArg_ne {arg rest : List UInt8} (h : quote ∉ arg)
    (hlast : arg.getLast? = some backslash) (hrest : AtEnd rest) :
    ∃ arg' args, arg' ≠ arg
      ∧ readFrom pairs none (quoteArg arg ++ rest) = arg' :: args := by
  obtain ⟨r, hquoted, hclosed, hwhole, hslashes, hread⟩ :=
    @readFrom_quoteArg_step pairs arg rest h
  have hpos := hslashes.mpr hlast
  have hlen : arg.length = r.arg.length + r.slashes := by
    rw [← hwhole, Reading.whole, List.length_append, List.length_replicate]
  rw [hread, readFrom]
  by_cases hodd : r.slashes % 2 = 1
  · -- the closing quote is a plain one, and the arguments have none
    have hstep : r.step pairs quote
        = some ⟨r.arg ++ List.replicate (r.slashes / 2) backslash ++ [quote], 0,
          r.quoted, false⟩ := by
      rw [Reading.step, if_neg (by decide), if_pos (beq_self_eq_true quote),
      hclosed,
        Bool.and_false, if_neg Bool.false_ne_true,
        if_pos (beq_iff_eq.mpr hodd)]
    rw [hstep]
    obtain ⟨more, args, hmore⟩ := @readFrom_arg pairs _ rest
    refine ⟨_, args, fun heq => h ?_, hmore⟩
    rw [← heq]
    simp
  · -- half of the backslashes are gone
    have hstep : r.step pairs quote
        = some ⟨r.arg ++ List.replicate (r.slashes / 2) backslash, 0, false,
          true⟩ := by
      rw [Reading.step, if_neg (by decide), if_pos (beq_self_eq_true quote),
      hclosed,
        Bool.and_false, if_neg Bool.false_ne_true,
        if_neg (fun he => hodd (beq_iff_eq.mp he)), hquoted]
      rfl
    rw [hstep]
    refine ⟨_, _, fun heq => ?_, readFrom_closed _ hrest⟩
    have hcut := congrArg List.length heq
    rw [List.length_append, List.length_replicate, hlen] at hcut
    omega

/-- The arguments behind the first are read back when none of them ends
with a backslash. -/
theorem readFrom_furtherArgs_iff {argv : List (List UInt8)}
    (h : ∀ arg ∈ argv, quote ∉ arg) :
    readFrom pairs none (furtherArgs argv) = argv
      ↔ ∀ arg ∈ argv, arg.getLast? ≠ some backslash := by
  induction argv with
  | nil => simp [furtherArgs, readFrom]
  | cons arg argv ih =>
      obtain ⟨harg, hargv⟩ := List.forall_mem_cons.mp h
      have hskip : readFrom pairs none (furtherArgs (arg :: argv))
          = readFrom pairs none (quoteArg arg ++ furtherArgs argv) := rfl
      rw [hskip, List.forall_mem_cons]
      by_cases hlast : arg.getLast? = some backslash
      · obtain ⟨arg', args, hne, hread⟩ := @readFrom_quoteArg_ne pairs _ _ harg
          hlast (atEnd_furtherArgs argv)
        rw [hread, List.cons.injEq]
        exact iff_of_false (fun hand => hne hand.1) (fun hand => hand.1 hlast)
      · rw [readFrom_quoteArg harg hlast (atEnd_furtherArgs argv),
          List.cons.injEq, ih hargv]
        exact and_congr (iff_of_true rfl hlast) Iff.rfl

/-- A program name is read back in any case. -/
theorem readProgram_quoteArg {arg : List UInt8} (h : quote ∉ arg)
    {rest : List UInt8} (hrest : AtEnd rest) :
    readProgram pairs false [] (quoteArg arg ++ rest)
      = arg :: readFrom pairs none rest := by
  have htext : ∀ (text name : List UInt8), quote ∉ text →
      readProgram pairs true name (text ++ quote :: rest)
        = readProgram pairs false (name ++ text) rest := by
    intro text
    induction text with
    | nil =>
        intro name _
        rw [List.nil_append, readProgram, if_pos (beq_self_eq_true quote),
          List.append_nil]
        rfl
    | cons c text ih =>
        intro name htext
        rw [List.mem_cons, not_or] at htext
        rw [List.cons_append, readProgram,
          if_neg (fun he => htext.1 (beq_iff_eq.mp he).symm), Bool.not_true,
          Bool.false_and, if_neg Bool.false_ne_true, ih _ htext.2,
          List.append_assoc]
        rfl
  have hopen : readProgram pairs false [] (quoteArg arg ++ rest)
      = readProgram pairs true [] (arg ++ quote :: rest) := by
    rw [quoteArg, List.cons_append, List.append_assoc]
    rfl
  rw [hopen, htext arg [] h, List.nil_append]
  rcases hrest with rfl | ⟨rest, rfl⟩
  · rfl
  · rfl

-- ================================================================= result

/-- The arguments in which the rules look at backslashes. -/
def escapedArgs (rules : Rules) (argv : List (List UInt8)) :
    List (List UInt8) :=
  if rules.programName then argv.tail else argv

/-- For arguments without quotes whose command line fits the buffer: the
child splits it into the same arguments exactly when none of them ends
with a backslash, but for the first where it is read as a program name
(which then there has to be). -/
theorem split_buildCommandLine_iff (rules : Rules) (argv : List (List UInt8))
    (line : List UInt8) (hquote : ∀ arg ∈ argv, quote ∉ arg)
    (hline : buildCommandLine 8192 argv = some line) :
    rules.split line = argv
      ↔ (rules.programName = true → argv ≠ [])
        ∧ ∀ arg ∈ escapedArgs rules argv, arg.getLast? ≠ some backslash := by
  rw [buildCommandLine_eq_some hline, Rules.split, escapedArgs]
  cases argv with
  | nil =>
      cases rules.programName with
      | true => simp [commandLine, readProgram]
      | false => simp [commandLine, readFrom]
  | cons arg argv =>
      obtain ⟨harg, hargv⟩ := List.forall_mem_cons.mp hquote
      have hargs := @readFrom_furtherArgs_iff rules.pairs argv hargv
      have hne : rules.programName = true → arg :: argv ≠ [] :=
        fun _ => List.cons_ne_nil arg argv
      rw [and_iff_right hne, commandLine]
      cases rules.programName with
      | true =>
          rw [if_pos rfl, if_pos rfl,
            readProgram_quoteArg harg (atEnd_furtherArgs argv),
            List.cons.injEq, hargs]
          exact and_iff_right rfl
      | false =>
          have hall := @readFrom_furtherArgs_iff rules.pairs (arg :: argv) hquote
          rw [if_neg Bool.false_ne_true, if_neg Bool.false_ne_true]
          exact hall

/-- `gate "C:\r\"`: a directory that ends with a backslash. -/
theorem split_buildCommandLine_directory :
    ∃ line,
      buildCommandLine 8192
          [[0x67, 0x61, 0x74, 0x65], [0x43, 0x3a, 0x5c, 0x72, 0x5c]] = some line
        ∧ ∀ rules : Rules, rules.split line
          ≠ [[0x67, 0x61, 0x74, 0x65], [0x43, 0x3a, 0x5c, 0x72, 0x5c]] := by
  refine ⟨_, rfl, fun rules => ?_⟩
  obtain ⟨programName, pairs⟩ := rules
  cases programName <;> cases pairs <;> decide

/-- The same directory without it. -/
theorem split_buildCommandLine_without :
    Rules.split ⟨true, true⟩
        (commandLine [[0x67, 0x61, 0x74, 0x65], [0x43, 0x3a, 0x5c, 0x72]])
      = [[0x67, 0x61, 0x74, 0x65], [0x43, 0x3a, 0x5c, 0x72]] := by
  refine (split_buildCommandLine_iff ⟨true, true⟩
    [[0x67, 0x61, 0x74, 0x65], [0x43, 0x3a, 0x5c, 0x72]] _ (by decide)
    rfl).mpr ?_
  exact ⟨fun _ => List.cons_ne_nil _ _, by decide⟩

end Obicall
