/-
The JSON reader is safe on every buffer shorter than 2^31 bytes, whatever
its bytes: the run on checked memory never fails and comes to what the
plain function says (`jsonReader_safe`).

# Why no step fails

- Every load stands behind a test of its offset, and every offset that a
  scan goes on from is inside the buffer or at its end (`skipWs_le`,
  `skipString_le`, `scanValue_le`): sums stay below 2^32 and what is
  returned below 2^31.
- A string ends two bytes behind its first quote at the earliest
  (`skipString_le`), so that the span without its quotes has no negative
  length.
- Each turn of a loop moves the offset on, so that a loop is left within
  one turn more than there are bytes; depth and counts grow by one a turn
  at the most, and fit an `int`.
-/
import Obicall.Json.Checked
import Obicall.Json.Proofs.Lookup

namespace Obicall

open Lib.Json

-- ================================================================== bounds

section bounds

variable {buf : List UInt8} {pos r : Nat}

theorem skipWs_le (h : pos ≤ buf.length) : skipWs buf pos ≤ buf.length := by
  fun_induction skipWs buf pos with
  | case1 pos hlt _ ih => exact ih hlt
  | case2 | case3 => exact h

theorem skipStringFrom_le (h : skipStringFrom buf pos = some r) :
    r ≤ buf.length := by
  fun_induction skipStringFrom buf pos with
  | case1 pos hlt ch _ =>
      have := asInt_eq_some.mp h
      omega
  | case2 | case3 | case7 => cases h
  | case4 pos _ _ _ _ _ _ _ ih | case5 pos _ _ _ _ _ _ ih
  | case6 pos _ _ _ _ ih => exact ih h

theorem skipString_le (h : skipString buf pos = some r) :
    pos + 2 ≤ r ∧ r ≤ buf.length := by
  rw [skipString] at h
  split at h
  · exact ⟨skipStringFrom_lt h, skipStringFrom_le h⟩
  · cases h

theorem scanNested_le_length {opening closing : UInt8} {depth : Nat}
    (hpos : pos ≤ buf.length)
    (h : scanNested buf opening closing pos depth = some r) :
    r ≤ buf.length := by
  fun_induction scanNested buf opening closing pos depth with
  | case1 pos =>
      have := asInt_eq_some.mp h
      omega
  | case2 | case5 => cases h
  | case3 pos _ _ _ _ _ r hskip ih => exact ih (skipString_le hskip).2 h
  | case4 pos _ _ hlt _ _ ih => exact ih hlt h

theorem scanWord_le {word : List UInt8} (h : scanWord buf pos word = some r) :
    r ≤ buf.length := by
  rw [scanWord] at h
  split at h
  next hword =>
    have := asInt_eq_some.mp h
    omega
  · cases h

theorem scanDigits_le (h : pos ≤ buf.length) :
    scanDigits buf pos ≤ buf.length := by
  fun_induction scanDigits buf pos with
  | case1 pos hlt _ ih => exact ih hlt
  | case2 | case3 => exact h

theorem lt_of_standing {c : UInt8} (h : buf[pos]? = some c) :
    pos < buf.length := (List.getElem?_eq_some_iff.mp h).1

theorem scanFraction_le (h : pos ≤ buf.length) :
    scanFraction buf pos ≤ buf.length := by
  rw [scanFraction]
  split
  next hdot => exact scanDigits_le (lt_of_standing hdot)
  · exact h

theorem scanSign_le (h : pos ≤ buf.length) : scanSign buf pos ≤ buf.length := by
  rw [scanSign]
  split
  next hsign => exact hsign.elim lt_of_standing lt_of_standing
  · exact h

theorem scanExponent_le (h : pos ≤ buf.length) :
    scanExponent buf pos ≤ buf.length := by
  rw [scanExponent]
  split
  next he =>
    exact scanDigits_le (scanSign_le (he.elim lt_of_standing lt_of_standing))
  · exact h

theorem scanMinus_le (h : pos ≤ buf.length) : scanMinus buf pos ≤ buf.length := by
  rw [scanMinus]
  split
  next hminus => exact lt_of_standing hminus
  · exact h

theorem scanNumber_le (hpos : pos ≤ buf.length)
    (h : scanNumber buf pos = some r) : r ≤ buf.length := by
  rw [scanNumber] at h
  split at h
  · cases h
  · have hend := scanExponent_le (scanFraction_le (scanDigits_le
      (scanMinus_le hpos)))
    have := asInt_eq_some.mp h
    omega

/-- A value ends inside the buffer, and a string two bytes behind its
start at the earliest. -/
theorem scanValue_le {isString : Bool}
    (h : scanValue buf pos = some (r, isString)) :
    r ≤ buf.length ∧ (isString = true → pos + 2 ≤ r) := by
  have hstart := le_skipWs buf pos
  rw [scanValue, scanValueAt] at h
  split at h
  · cases h
  next ch hch =>
    have hlt := lt_of_standing hch
    split_ifs at h <;>
      obtain ⟨q, hq, heq⟩ := Option.map_eq_some_iff.mp h <;> cases heq
    · have hskip := skipString_le hq
      exact ⟨hskip.2, fun _ => by omega⟩
    · exact ⟨scanNested_le_length hlt hq, fun hno => by cases hno⟩
    · exact ⟨scanWord_le hq, fun hno => by cases hno⟩
    · exact ⟨scanWord_le hq, fun hno => by cases hno⟩
    · exact ⟨scanWord_le hq, fun hno => by cases hno⟩
    · exact ⟨scanNumber_le (Nat.le_of_lt hlt) hq, fun hno => by cases hno⟩

end bounds

-- ================================================================ machine

namespace Checked

theorem add32_eq {a b : Nat} (h : a + b < 2 ^ 32) : add32 a b = some (a + b) :=
  if_pos h

theorem sub32_eq {a b : Nat} (h : b ≤ a) : sub32 a b = some (a - b) := if_pos h

theorem toInt_eq {n : Nat} (h : n < 2 ^ 31) : toInt n = some n := if_pos h

variable {buf : List UInt8} {pos : Nat}

theorem load_eq (h : pos < buf.length) : load buf pos = some buf[pos] :=
  List.getElem?_eq_getElem h

theorem standsAt_eq (c : UInt8) :
    standsAt buf pos c = some (decide (buf[pos]? = some c)) := by
  rw [standsAt]
  split
  next h => simp [load, h, beq_eq_decide]
  next h =>
    have hnone : buf[pos]? = none := List.getElem?_eq_none (by omega)
    simp [hnone]

end Checked

-- ================================================================= scanning

section scanning

open Lib.Checked

variable {buf : List UInt8} {turns pos : Nat}

theorem skipWs_safe (hlen : buf.length < 2 ^ 31) (hturns : buf.length < turns)
    (hpos : pos ≤ buf.length) :
    Checked.skipWs turns buf pos = some (skipWs buf pos) := by
  refine @loop_eq_some _ _ _ (· ≤ buf.length) (buf.length - ·) (skipWs buf)
    (fun pos hpos => ?_) turns pos hpos (by omega)
  rw [Checked.skipWsTurn]
  by_cases hlt : pos < buf.length
  · rw [if_pos hlt, Checked.load_eq hlt, Checked.add32_eq (by omega)]
    have hplain := skipWs.eq_def buf pos
    rw [dif_pos hlt] at hplain
    cases hws : isWs buf[pos] with
    | true =>
        rw [hws, if_pos rfl] at hplain
        simp only [hws, Option.bind_eq_bind, Option.bind_some, if_true]
        exact .next hlt (by omega) hplain.symm
    | false =>
        rw [hws, if_neg Bool.false_ne_true] at hplain
        simp only [hws, Option.bind_eq_bind, Option.bind_some,
          Bool.false_eq_true, if_false]
        exact .done hplain.symm
  · rw [if_neg hlt]
    refine .done ?_
    rw [skipWs, dif_neg hlt]

theorem skipStringTurn_ok (hlen : buf.length < 2 ^ 31) (pos : Nat) :
    TurnOk (fun _ => True) (buf.length - ·) (skipStringFrom buf) pos
      (Checked.skipStringTurn buf pos) := by
  rw [Checked.skipStringTurn]
  have hplain := skipStringFrom.eq_def buf pos
  by_cases hlt : pos < buf.length
  · have hint : pos + 1 < 2 ^ 31 := by omega
    have hone : Checked.add32 pos 1 = some (pos + 1) := Checked.add32_eq (by omega)
    have htwo : Checked.add32 pos 2 = some (pos + 2) := Checked.add32_eq (by omega)
    have hsix : Checked.add32 pos 6 = some (pos + 6) := Checked.add32_eq (by omega)
    rw [if_pos hlt, Checked.load_eq hlt]
    rw [dif_pos hlt, asInt_of_lt hint] at hplain
    simp only [Option.bind_eq_bind, Option.bind_some, hone, htwo, hsix,
      Checked.toInt_eq hint] at hplain ⊢
    by_cases hquote : buf[pos] = quoteByte
    · rw [if_pos hquote] at hplain ⊢
      exact .done hplain.symm
    rw [if_neg hquote] at hplain ⊢
    by_cases hslash : buf[pos] = backslashByte
    · rw [if_pos hslash] at hplain ⊢
      by_cases hlast : pos + 1 ≥ buf.length
      · rw [if_pos hlast] at hplain ⊢
        exact .done hplain.symm
      have hnext : pos + 1 < buf.length := Nat.not_le.mp hlast
      rw [if_neg hlast, List.getElem?_eq_getElem hnext] at hplain
      rw [if_neg hlast, Checked.load_eq hnext]
      simp only [Option.bind_some, Option.some.injEq] at hplain ⊢
      by_cases hu : buf[pos + 1] = 0x75
      · rw [if_pos hu] at hplain ⊢
        by_cases hpast : pos + 6 > buf.length
        · rw [if_pos hpast] at hplain ⊢
          exact .done hplain.symm
        · rw [if_neg hpast] at hplain ⊢
          exact .next trivial (by omega) hplain.symm
      · rw [if_neg hu] at hplain ⊢
        exact .next trivial (by omega) hplain.symm
    · rw [if_neg hslash] at hplain ⊢
      exact .next trivial (by omega) hplain.symm
  · rw [dif_neg hlt] at hplain
    rw [if_neg hlt]
    exact .done hplain.symm

theorem skipString_safe (hlen : buf.length < 2 ^ 31)
    (hturns : buf.length < turns) :
    Checked.skipString turns buf pos = some (skipString buf pos) := by
  rw [Checked.skipString, skipString, Checked.standsAt_eq]
  by_cases h : buf[pos]? = some quoteByte
  · have hlt := lt_of_standing h
    simp only [h, decide_true, Option.bind_eq_bind, Option.bind_some, if_true]
    rw [Checked.add32_eq (by omega), Option.bind_some]
    exact loop_eq_some (fun pos _ => skipStringTurn_ok hlen pos) trivial
      (by omega)
  · simp only [h, decide_false, Option.bind_eq_bind, Option.bind_some,
      Bool.false_eq_true, if_false]
    rfl

theorem Checked.stepDepth_eq (opening closing c : UInt8) {depth : Nat}
    (hpos : 0 < depth) (hdepth : depth + 1 < 2 ^ 31) :
    Checked.stepDepth opening closing c depth
      = some (if c = opening then depth + 1
          else if c = closing then depth - 1 else depth) := by
  rw [Checked.stepDepth, Checked.toInt_eq hdepth, Checked.sub32_eq hpos]
  split
  · rfl
  · split <;> rfl

/-- The depth stays below the offset. -/
theorem scanNestedTurn_ok (hlen : buf.length < 2 ^ 31)
    (hturns : buf.length < turns) (opening closing : UInt8) (s : Nat × Nat)
    (hs : s.1 ≤ buf.length ∧ s.2 ≤ s.1) :
    TurnOk (fun s => s.1 ≤ buf.length ∧ s.2 ≤ s.1) (fun s => buf.length - s.1)
      (fun s => scanNested buf opening closing s.1 s.2) s
      (Checked.scanNestedTurn turns buf opening closing s) := by
  obtain ⟨pos, depth⟩ := s
  obtain ⟨hpos, hdepth⟩ := hs
  dsimp only at hpos hdepth ⊢
  rw [Checked.scanNestedTurn]
  by_cases hzero : depth = 0
  · rw [if_pos hzero, Checked.toInt_eq (by omega), hzero]
    refine .done ?_
    rw [scanNested_zero, asInt_of_lt (by omega)]
  have hd : 1 ≤ depth := Nat.pos_of_ne_zero hzero
  rw [if_neg hzero]
  by_cases hlt : pos < buf.length
  · have hbyte : buf[pos]? = some buf[pos] := List.getElem?_eq_getElem hlt
    have hstep := Checked.stepDepth_eq opening closing buf[pos] hd (by omega)
    have hone : Checked.add32 pos 1 = some (pos + 1) := Checked.add32_eq (by omega)
    rw [if_pos hlt, Checked.load_eq hlt]
    simp only [Option.bind_eq_bind, Option.bind_some, hstep, hone,
      skipString_safe hlen hturns]
    by_cases hquote : buf[pos] = quoteByte
    · have hplain := @scanNested_quote _ _ opening closing _ hd
        (hquote ▸ hbyte)
      rw [if_pos hquote]
      cases hskip : skipString buf pos with
      | none =>
          rw [hskip] at hplain
          exact .done hplain.symm
      | some r =>
          rw [hskip] at hplain
          have hr := skipString_le hskip
          refine .next ⟨hr.2, ?_⟩ ?_ hplain.symm
          · dsimp only
            omega
          · dsimp only
            omega
    · rw [if_neg hquote]
      refine .next ⟨hlt, ?_⟩ (by dsimp only; omega)
        (scanNested_byte hd hbyte hquote).symm
      dsimp only
      split
      · omega
      · split <;> omega
  · rw [if_neg hlt]
    refine .done ?_
    rw [scanNested, if_neg hzero, dif_neg hlt]

theorem scanWord_safe (hlen : buf.length < 2 ^ 31) (hpos : pos ≤ buf.length)
    {word : List UInt8} (hword : word.length ≤ 5) :
    Checked.scanWord buf pos word = some (scanWord buf pos word) := by
  rw [Checked.scanWord, scanWord, Checked.add32_eq (by omega), Checked.loadRange]
  simp only [Option.bind_eq_bind, Option.bind_some]
  by_cases hroom : pos + word.length ≤ buf.length
  · rw [if_pos hroom, if_pos hroom, Option.bind_some, Checked.toInt_eq (by omega),
      asInt_of_lt (by omega)]
    by_cases heq : (buf.drop pos).take word.length = word
    · rw [if_pos heq, if_pos ⟨hroom, heq⟩]
      rfl
    · rw [if_neg heq, if_neg (fun hand => heq hand.2)]
      rfl
  · rw [if_neg hroom, if_neg (fun hand => hroom hand.1)]
    rfl

theorem scanDigits_safe (hlen : buf.length < 2 ^ 31)
    (hturns : buf.length < turns) (hpos : pos ≤ buf.length) :
    Checked.scanDigits turns buf pos = some (scanDigits buf pos) := by
  refine @loop_eq_some _ _ _ (· ≤ buf.length) (buf.length - ·) (scanDigits buf)
    (fun pos hpos => ?_) turns pos hpos (by omega)
  rw [Checked.scanDigitsTurn]
  by_cases hlt : pos < buf.length
  · rw [if_pos hlt, Checked.load_eq hlt, Checked.add32_eq (by omega)]
    have hplain := scanDigits.eq_def buf pos
    rw [dif_pos hlt] at hplain
    cases hdigit : isDigit buf[pos] with
    | true =>
        rw [hdigit, if_pos rfl] at hplain
        simp only [hdigit, Option.bind_eq_bind, Option.bind_some, if_true]
        exact .next hlt (by omega) hplain.symm
    | false =>
        rw [hdigit, if_neg Bool.false_ne_true] at hplain
        simp only [hdigit, Option.bind_eq_bind, Option.bind_some,
          Bool.false_eq_true, if_false]
        exact .done hplain.symm
  · rw [if_neg hlt]
    refine .done ?_
    rw [scanDigits, dif_neg hlt]

/-- A byte that may stand there. -/
theorem skipByte_safe (hlen : buf.length < 2 ^ 31) (c : UInt8) :
    Checked.skipByte buf pos c
      = some (if buf[pos]? = some c then pos + 1 else pos) := by
  rw [Checked.skipByte, Checked.standsAt_eq]
  by_cases h : buf[pos]? = some c
  · have hlt := lt_of_standing h
    simp only [h, decide_true, Option.bind_eq_bind, Option.bind_some, if_true]
    exact Checked.add32_eq (by omega)
  · simp only [h, decide_false, Option.bind_eq_bind, Option.bind_some,
      Bool.false_eq_true, if_false]
    rfl

theorem scanFraction_safe (hlen : buf.length < 2 ^ 31)
    (hturns : buf.length < turns) :
    Checked.scanFraction turns buf pos = some (scanFraction buf pos) := by
  rw [Checked.scanFraction, scanFraction, Checked.standsAt_eq]
  by_cases h : buf[pos]? = some 0x2E
  · have hlt := lt_of_standing h
    simp only [h, decide_true, Option.bind_eq_bind, Option.bind_some, if_true]
    rw [Checked.add32_eq (by omega), Option.bind_some]
    exact scanDigits_safe hlen hturns hlt
  · simp only [h, decide_false, Option.bind_eq_bind, Option.bind_some,
      Bool.false_eq_true, if_false]
    rfl

theorem scanSign_safe (hlen : buf.length < 2 ^ 31) :
    Checked.scanSign buf pos = some (scanSign buf pos) := by
  rw [Checked.scanSign, scanSign, Checked.standsAt_eq, skipByte_safe hlen]
  by_cases h : buf[pos]? = some 0x2B
  · have hlt := lt_of_standing h
    simp only [h, decide_true, Option.bind_eq_bind, Option.bind_some, if_true,
      true_or]
    exact Checked.add32_eq (by omega)
  · simp only [h, decide_false, Option.bind_eq_bind, Option.bind_some,
      Bool.false_eq_true, if_false, false_or]

theorem scanExponent_safe (hlen : buf.length < 2 ^ 31)
    (hturns : buf.length < turns) :
    Checked.scanExponent turns buf pos = some (scanExponent buf pos) := by
  rw [Checked.scanExponent, scanExponent, Checked.standsAt_eq, Checked.standsAt_eq]
  simp only [Option.bind_eq_bind, Option.bind_some, ← Bool.decide_or,
    decide_eq_true_eq]
  by_cases h : buf[pos]? = some 0x65 ∨ buf[pos]? = some 0x45
  · have hlt : pos < buf.length := h.elim lt_of_standing lt_of_standing
    rw [if_pos h, if_pos h, Checked.add32_eq (by omega), Option.bind_some,
      scanSign_safe hlen, Option.bind_some]
    exact scanDigits_safe hlen hturns (scanSign_le hlt)
  · rw [if_neg h, if_neg h]
    rfl

theorem scanNumber_safe (hlen : buf.length < 2 ^ 31)
    (hturns : buf.length < turns) (hpos : pos ≤ buf.length) :
    Checked.scanNumber turns buf pos = some (scanNumber buf pos) := by
  have hminus := scanMinus_le hpos
  have hdigits := scanDigits_le hminus
  have hend := scanExponent_le (scanFraction_le hdigits)
  rw [Checked.scanNumber, scanNumber, skipByte_safe hlen]
  simp only [Option.bind_eq_bind, Option.bind_some]
  rw [← scanMinus, scanDigits_safe hlen hturns hminus, Option.bind_some,
    scanFraction_safe hlen hturns, Option.bind_some,
    scanExponent_safe hlen hturns, Option.bind_some, Checked.toInt_eq (by omega),
    asInt_of_lt (by omega)]
  split <;> rfl

theorem scanNestedLoop_safe (hlen : buf.length < 2 ^ 31)
    (hturns : buf.length < turns) (opening closing : UInt8)
    (hlt : pos < buf.length) :
    loop (Checked.scanNestedTurn turns buf opening closing) turns (pos + 1, 1)
      = some (scanNested buf opening closing (pos + 1) 1) :=
  loop_eq_some (scanNestedTurn_ok hlen hturns opening closing)
    ⟨hlt, Nat.succ_le_succ (Nat.zero_le pos)⟩ (by dsimp only; omega)

theorem scanValueAt_safe (hlen : buf.length < 2 ^ 31)
    (hturns : buf.length < turns) :
    Checked.scanValueAt turns buf pos = some (scanValueAt buf pos) := by
  rw [Checked.scanValueAt, scanValueAt]
  by_cases hlt : pos < buf.length
  · have hpos := Nat.le_of_lt hlt
    rw [if_pos hlt, Checked.load_eq hlt, List.getElem?_eq_getElem hlt]
    simp only [Option.bind_eq_bind, Option.bind_some,
      skipString_safe hlen hturns, scanNumber_safe hlen hturns hpos,
      Checked.add32_eq (by omega : pos + 1 < 2 ^ 32),
      scanNestedLoop_safe hlen hturns _ _ hlt,
      scanWord_safe hlen hpos (by decide : trueText.length ≤ 5),
      scanWord_safe hlen hpos (by decide : falseText.length ≤ 5),
      scanWord_safe hlen hpos (by decide : nullText.length ≤ 5),
      Option.pure_def, apply_ite some]
  · rw [if_neg hlt, List.getElem?_eq_none (by omega)]
    rfl

theorem scanValue_safe (hlen : buf.length < 2 ^ 31)
    (hturns : buf.length < turns) (hpos : pos ≤ buf.length) :
    Checked.scanValue turns buf pos = some (scanValue buf pos) := by
  rw [Checked.scanValue, scanValue, skipWs_safe hlen hturns hpos]
  exact scanValueAt_safe hlen hturns

end scanning

-- ================================================================= lookups

section lookups

open Lib.Checked

variable {json key : List UInt8} {turns pos index : Nat}

/-- The span of a value lies inside the buffer, and nothing wraps in its
computation. -/
theorem spanFromValue_safe (hlen : json.length < 2 ^ 31) {start r : Nat}
    {isStr : Bool} (h : scanValue json start = some (r, isStr)) :
    Checked.spanFromValue start r isStr = some (spanFromValue start r isStr)
      ∧ (spanFromValue start r isStr).off + (spanFromValue start r isStr).len
        ≤ json.length := by
  have hlt := scanValue_lt h
  obtain ⟨hend, hstring⟩ := scanValue_le h
  rw [Checked.spanFromValue, spanFromValue]
  cases isStr with
  | true =>
      have htwo := hstring rfl
      rw [if_pos rfl, if_pos rfl, Checked.add32_eq (by omega),
        Checked.sub32_eq (by omega),
        u32Sub_of_le (by omega : 1 ≤ r) (by omega),
        u32Sub_of_le (by omega) (by omega)]
      simp only [Option.bind_eq_bind, Option.bind_some]
      rw [Checked.sub32_eq (by omega)]
      refine ⟨rfl, ?_⟩
      show start + 1 + (r - 1 - (start + 1)) ≤ json.length
      omega
  | false =>
      rw [if_neg Bool.false_ne_true, if_neg Bool.false_ne_true,
        Checked.sub32_eq (by omega), u32Sub_of_le (by omega) (by omega)]
      refine ⟨rfl, ?_⟩
      show start + (r - start) ≤ json.length
      omega

theorem Checked.keyMatches_eq {keyStart keyStrLen : Nat}
    (h : keyStart + keyStrLen ≤ json.length) :
    Checked.keyMatches json key keyStart keyStrLen
      = some (decide (keyStrLen = key.length
        ∧ (json.drop keyStart).take key.length = key)) := by
  rw [Checked.keyMatches]
  by_cases heq : keyStrLen = key.length
  · rw [if_pos heq, Checked.loadRange, if_pos (heq ▸ h)]
    simp [heq, beq_eq_decide]
  · rw [if_neg heq]
    simp [heq]

/-- What is found lies inside the buffer. -/
def InBounds (json : List UInt8) (found : Option JsonSpan) : Prop :=
  ∀ span ∈ found, span.off + span.len ≤ json.length

theorem findMemberTurn_ok (hlen : json.length < 2 ^ 31)
    (hturns : json.length < turns) (pos : Nat) (hpos : pos ≤ json.length) :
    TurnOk (· ≤ json.length) (json.length - ·) (findMember json key) pos
      (Checked.findMemberTurn turns json key pos) := by
  have hws := skipWs_le hpos
  have hle := le_skipWs json pos
  rw [Checked.findMemberTurn, skipWs_safe hlen hturns hpos]
  simp only [Option.bind_eq_bind, Option.bind_some,
    skipString_safe hlen hturns]
  cases hkey : skipString json (skipWs json pos) with
  | none =>
      refine .done (findMember_of_none ?_).symm
      rw [scanMember]
      simp only [hkey]
  | some keyEnd =>
      obtain ⟨htwo, hkeyEnd⟩ := skipString_le hkey
      have hcolon := skipWs_le hkeyEnd
      dsimp only
      rw [Checked.add32_eq (by omega), Checked.sub32_eq (by omega)]
      simp only [Option.bind_some]
      rw [Checked.sub32_eq (by omega), skipWs_safe hlen hturns hkeyEnd]
      simp only [Option.bind_some, Checked.standsAt_eq, decide_eq_true_eq]
      by_cases hstands : json[skipWs json keyEnd]? = some colonByte
      · have hlt := lt_of_standing hstands
        have hvalueStart := skipWs_le hlt
        rw [if_pos hstands, Checked.add32_eq (by omega)]
        simp only [Option.bind_some]
        rw [skipWs_safe hlen hturns hlt]
        simp only [Option.bind_some]
        rw [scanValue_safe hlen hturns hvalueStart]
        simp only [Option.bind_some]
        cases hvalue : scanValue json (skipWs json (skipWs json keyEnd + 1)) with
        | none =>
            refine .done (findMember_of_none ?_).symm
            rw [scanMember]
            simp only [hkey]
            rw [if_pos hstands, hvalue]
            rfl
        | some v =>
            obtain ⟨valueEnd, isStr⟩ := v
            have hmember : scanMember json pos
                = some ⟨skipWs json pos + 1, keyEnd - 1 - (skipWs json pos + 1),
                  skipWs json (skipWs json keyEnd + 1), valueEnd, isStr⟩ := by
              rw [scanMember]
              simp only [hkey]
              rw [if_pos hstands, hvalue,
                u32Sub_of_le (by omega : 1 ≤ keyEnd) (by omega),
                u32Sub_of_le (by omega) (by omega)]
              rfl
            have hmatches : Checked.keyMatches json key (skipWs json pos + 1)
                (keyEnd - 1 - (skipWs json pos + 1)) = _ :=
              Checked.keyMatches_eq (by omega)
            have hspan := (spanFromValue_safe hlen hvalue).1
            have hvalueEnd := (scanValue_le hvalue).1
            have hnext := skipWs_le hvalueEnd
            have hafter := le_skipWs json valueEnd
            have hprogress := scanMember_lt hmember
            have hplain := @findMember_of_some json key pos _ hmember
            dsimp only at hprogress hplain ⊢
            rw [hmatches, hspan, skipWs_safe hlen hturns hvalueEnd]
            simp only [Option.bind_some, decide_eq_true_eq]
            split
            next hfound =>
              rw [if_pos hfound] at hplain
              exact .done hplain.symm
            next hfound =>
              rw [if_neg hfound] at hplain
              by_cases hcomma : json[skipWs json valueEnd]? = some commaByte
              · have hlt' := lt_of_standing hcomma
                rw [if_pos hcomma] at hplain ⊢
                rw [Checked.add32_eq (by omega), Option.bind_some]
                exact .next hlt' (by omega) hplain.symm
              · rw [if_neg hcomma] at hplain ⊢
                exact .done hplain.symm
      · rw [if_neg hstands]
        refine .done (findMember_of_none ?_).symm
        rw [scanMember]
        simp only [hkey]
        rw [if_neg hstands]

theorem scanMember_value {m : ScannedMember} (h : scanMember json pos = some m) :
    scanValue json m.valueStart = some (m.valueEnd, m.isStr) := by
  rw [scanMember] at h
  dsimp only at h
  split at h
  · cases h
  · split at h
    · obtain ⟨v, hv, rfl⟩ := Option.map_eq_some_iff.mp h
      exact hv
    · cases h

theorem inBounds_findMember (hlen : json.length < 2 ^ 31) :
    InBounds json (findMember json key pos) := by
  fun_induction findMember json key pos with
  | case1 | case4 => exact fun span hspan => by cases hspan
  | case2 pos m hmember =>
      intro span hspan
      obtain rfl := Option.some.inj hspan
      exact (spanFromValue_safe hlen (scanMember_value hmember)).2
  | case3 _ _ _ _ _ _ ih => exact ih

theorem jsonObjectFind_safe (hlen : json.length < 2 ^ 31)
    (hturns : json.length < turns) :
    Checked.jsonObjectFind turns json key = some (jsonObjectFind json key)
      ∧ InBounds json (jsonObjectFind json key) := by
  rw [Checked.jsonObjectFind, jsonObjectFind,
    skipWs_safe hlen hturns (Nat.zero_le _)]
  simp only [Option.bind_eq_bind, Option.bind_some, Checked.standsAt_eq,
    decide_eq_true_eq]
  split
  next hopen =>
    have hlt := lt_of_standing hopen
    rw [Checked.add32_eq (by omega), Option.bind_some]
    exact ⟨loop_eq_some (findMemberTurn_ok hlen hturns) hlt (by omega),
      inBounds_findMember hlen⟩
  next => exact ⟨rfl, fun span hspan => by cases hspan⟩

theorem arrayOpen_safe (hlen : json.length < 2 ^ 31)
    (hturns : json.length < turns) :
    Checked.arrayOpen turns json = some (arrayOpen json)
      ∧ ∀ pos ∈ arrayOpen json, pos ≤ json.length := by
  rw [Checked.arrayOpen, arrayOpen, skipWs_safe hlen hturns (Nat.zero_le _)]
  simp only [Option.bind_eq_bind, Option.bind_some, Checked.standsAt_eq,
    decide_eq_true_eq]
  split
  next hopen =>
    have hlt := lt_of_standing hopen
    rw [Checked.add32_eq (by omega), Option.bind_some]
    refine ⟨rfl, fun pos hpos => ?_⟩
    obtain rfl := Option.some.inj hpos
    exact hlt
  next => exact ⟨rfl, fun pos hpos => by cases hpos⟩

/-- The count stays below the offset. -/
theorem countElementsTurn_ok (hlen : json.length < 2 ^ 31)
    (hturns : json.length < turns) (s : Nat × Nat)
    (hs : s.1 ≤ json.length ∧ s.2 ≤ s.1) :
    TurnOk (fun s => s.1 ≤ json.length ∧ s.2 ≤ s.1)
      (fun s => json.length - s.1) (fun s => countElements json s.1 s.2) s
      (Checked.countElementsTurn turns json s) := by
  obtain ⟨pos, count⟩ := s
  obtain ⟨hpos, hcount⟩ := hs
  dsimp only at hpos hcount ⊢
  have hws := skipWs_le hpos
  have hle := le_skipWs json pos
  rw [Checked.countElementsTurn]
  rw [skipWs_safe hlen hturns hpos]
  simp only [Option.bind_eq_bind, Option.bind_some, Checked.standsAt_eq,
    decide_eq_true_eq]
  by_cases hclose : json[skipWs json pos]? = some closeBracket
  · rw [if_pos hclose]
    exact .done (countElements_of_close hclose).symm
  · have hplain := @countElements_of_not_close json pos count hclose
    rw [if_neg hclose, scanValue_safe hlen hturns hws]
    simp only [Option.bind_some]
    cases hvalue : scanValue json (skipWs json pos) with
    | none =>
        rw [hvalue] at hplain
        exact .done hplain.symm
    | some v =>
        obtain ⟨valueEnd, isStr⟩ := v
        have hvalueEnd := (scanValue_le hvalue).1
        have hprogress := scanValue_lt hvalue
        have hafter := le_skipWs json valueEnd
        rw [hvalue, Option.bind_some] at hplain
        dsimp only at hplain ⊢
        rw [Checked.toInt_eq (by omega)]
        simp only [Option.bind_some]
        rw [skipWs_safe hlen hturns hvalueEnd]
        simp only [Option.bind_some]
        by_cases hcomma : json[skipWs json valueEnd]? = some commaByte
        · have hlt := lt_of_standing hcomma
          rw [if_pos hcomma] at hplain ⊢
          rw [Checked.add32_eq (by omega), Option.bind_some]
          refine .next ⟨hlt, ?_⟩ ?_ hplain.symm
          · dsimp only
            omega
          · dsimp only
            omega
        · rw [if_neg hcomma] at hplain ⊢
          split
          next hend =>
            rw [if_pos hend] at hplain
            exact .done hplain.symm
          next hend =>
            rw [if_neg hend] at hplain
            exact .done hplain.symm

theorem jsonArrayCount_safe (hlen : json.length < 2 ^ 31)
    (hturns : json.length < turns) :
    Checked.jsonArrayCount turns json = some (jsonArrayCount json) := by
  obtain ⟨hopen, hpos⟩ := arrayOpen_safe hlen hturns
  rw [Checked.jsonArrayCount, jsonArrayCount, hopen]
  simp only [Option.bind_eq_bind, Option.bind_some]
  cases harray : arrayOpen json with
  | none => rfl
  | some pos =>
      exact loop_eq_some (countElementsTurn_ok hlen hturns)
        ⟨hpos pos harray, Nat.zero_le pos⟩ (by dsimp only; omega)

theorem getElementTurn_ok (hlen : json.length < 2 ^ 31)
    (hturns : json.length < turns) (index : Nat) (s : Nat × Nat)
    (hs : s.1 ≤ json.length ∧ s.2 ≤ s.1) :
    TurnOk (fun s => s.1 ≤ json.length ∧ s.2 ≤ s.1)
      (fun s => json.length - s.1)
      (fun s => getElement json index s.1 s.2) s
      (Checked.getElementTurn turns json index s) := by
  obtain ⟨pos, i⟩ := s
  obtain ⟨hpos, hi⟩ := hs
  dsimp only at hpos hi ⊢
  have hws := skipWs_le hpos
  have hle := le_skipWs json pos
  rw [Checked.getElementTurn]
  rw [skipWs_safe hlen hturns hpos]
  simp only [Option.bind_eq_bind, Option.bind_some, Checked.standsAt_eq,
    decide_eq_true_eq]
  by_cases hclose : json[skipWs json pos]? = some closeBracket
  · rw [if_pos hclose]
    exact .done (getElement_of_close hclose).symm
  · have hplain := @getElement_of_not_close json pos index i hclose
    rw [if_neg hclose, scanValue_safe hlen hturns hws]
    simp only [Option.bind_some]
    cases hvalue : scanValue json (skipWs json pos) with
    | none =>
        rw [hvalue] at hplain
        exact .done hplain.symm
    | some v =>
        obtain ⟨valueEnd, isStr⟩ := v
        have hvalueEnd := (scanValue_le hvalue).1
        have hprogress := scanValue_lt hvalue
        have hafter := le_skipWs json valueEnd
        rw [hvalue, Option.bind_some] at hplain
        dsimp only at hplain ⊢
        by_cases hindex : i = index
        · rw [if_pos hindex] at hplain ⊢
          rw [(spanFromValue_safe hlen hvalue).1]
          exact .done hplain.symm
        · rw [if_neg hindex] at hplain ⊢
          rw [Checked.add32_eq (by omega)]
          simp only [Option.bind_some]
          rw [skipWs_safe hlen hturns hvalueEnd]
          simp only [Option.bind_some]
          by_cases hcomma : json[skipWs json valueEnd]? = some commaByte
          · have hlt := lt_of_standing hcomma
            rw [if_pos hcomma] at hplain ⊢
            rw [Checked.add32_eq (by omega), Option.bind_some]
            refine .next ⟨hlt, ?_⟩ ?_ hplain.symm
            · dsimp only
              omega
            · dsimp only
              omega
          · rw [if_neg hcomma] at hplain ⊢
            exact .done hplain.symm

theorem inBounds_getElement (hlen : json.length < 2 ^ 31) (i : Nat) :
    InBounds json (getElement json index pos i) := by
  fun_induction getElement json index pos i with
  | case1 | case2 | case5 => exact fun span hspan => by cases hspan
  | case3 pos start hclose valueEnd isStr hvalue =>
      intro span hspan
      obtain rfl := Option.some.inj hspan
      exact (spanFromValue_safe hlen hvalue).2
  | case4 _ _ _ _ _ _ _ _ _ _ ih => exact ih

theorem jsonArrayGet_safe (hlen : json.length < 2 ^ 31)
    (hturns : json.length < turns) (index : Nat) :
    Checked.jsonArrayGet turns json index = some (jsonArrayGet json index)
      ∧ InBounds json (jsonArrayGet json index) := by
  obtain ⟨hopen, hpos⟩ := arrayOpen_safe hlen hturns
  rw [Checked.jsonArrayGet, jsonArrayGet, hopen]
  simp only [Option.bind_eq_bind, Option.bind_some]
  cases harray : arrayOpen json with
  | none => exact ⟨rfl, fun span hspan => by cases hspan⟩
  | some pos =>
      exact ⟨loop_eq_some (getElementTurn_ok hlen hturns index)
          ⟨hpos pos harray, Nat.zero_le pos⟩ (by dsimp only; omega),
        inBounds_getElement hlen 0⟩

end lookups

-- ================================================================ decoding

section decoding

open Lib.Checked

variable {json : List UInt8} {turns outCap : Nat}

theorem Checked.putByte_eq {out : List UInt8} (h : ¬ out.length ≥ outCap)
    (c : UInt8) :
    Checked.putByte outCap out c = some (out ++ [c]) :=
  if_pos (Nat.not_le.mp h)

/-- What is written is no longer than what was read. -/
theorem decodeTurn_ok (hlen : json.length < 2 ^ 31) (s : Nat × List UInt8)
    (hs : s.1 ≤ json.length ∧ s.2.length ≤ s.1) :
    TurnOk (fun s => s.1 ≤ json.length ∧ s.2.length ≤ s.1)
      (fun s => json.length - s.1) (fun s => decodeFrom json outCap s.1 s.2) s
      (Checked.decodeTurn json outCap s) := by
  obtain ⟨i, out⟩ := s
  obtain ⟨hi, hout⟩ := hs
  dsimp only at hi hout ⊢
  rw [Checked.decodeTurn]
  have hplain := decodeFrom.eq_def json outCap i out
  by_cases hlt : i < json.length
  · have hone : Checked.add32 i 1 = some (i + 1) := Checked.add32_eq (by omega)
    have htwo : Checked.add32 i 2 = some (i + 2) := Checked.add32_eq (by omega)
    have hsix : Checked.add32 i 6 = some (i + 6) := Checked.add32_eq (by omega)
    have hnext : ∀ n c, i + 1 ≤ n → n ≤ json.length →
        n ≤ json.length ∧ (out ++ [c]).length ≤ n := fun n c hn hle => by
      rw [List.length_append, List.length_singleton]
      omega
    rw [dif_pos hlt] at hplain
    rw [if_pos hlt, Checked.load_eq hlt]
    simp only [Option.bind_eq_bind, Option.bind_some, hone, htwo, hsix]
      at hplain ⊢
    by_cases hslash : json[i] = backslashByte
    · rw [if_pos hslash] at hplain ⊢
      by_cases hlast : i + 1 ≥ json.length
      · rw [List.getElem?_eq_none hlast] at hplain
        rw [if_pos hlast]
        exact .done hplain.symm
      have hesc : i + 1 < json.length := Nat.not_le.mp hlast
      rw [List.getElem?_eq_getElem hesc] at hplain
      rw [if_neg hlast, Checked.load_eq hesc]
      simp only [Option.bind_some] at hplain ⊢
      by_cases hu : json[i + 1] = 0x75
      · rw [if_pos hu] at hplain ⊢
        by_cases hgive : i + 6 > json.length ∨ out.length ≥ outCap
        · rw [if_pos hgive] at hplain ⊢
          exact .done hplain.symm
        · rw [if_neg hgive] at hplain ⊢
          rw [not_or] at hgive
          rw [Checked.putByte_eq hgive.2, Option.bind_some]
          exact .next (hnext _ _ (by omega) (by omega)) (by dsimp only; omega)
            hplain.symm
      · rw [if_neg hu] at hplain ⊢
        cases hdecoded : decodeEscape json[i + 1] with
        | none =>
            rw [hdecoded] at hplain
            exact .done hplain.symm
        | some decoded =>
            rw [hdecoded] at hplain
            dsimp only at hplain ⊢
            by_cases hfull : out.length ≥ outCap
            · rw [if_pos hfull] at hplain ⊢
              exact .done hplain.symm
            · rw [if_neg hfull] at hplain ⊢
              rw [Checked.putByte_eq hfull, Option.bind_some]
              exact .next (hnext _ _ (by omega) hesc) (by dsimp only; omega)
                hplain.symm
    · rw [if_neg hslash] at hplain ⊢
      by_cases hfull : out.length ≥ outCap
      · rw [if_pos hfull] at hplain ⊢
        exact .done hplain.symm
      · rw [if_neg hfull] at hplain ⊢
        rw [Checked.putByte_eq hfull, Option.bind_some]
        exact .next (hnext _ _ (Nat.le_refl _) hlt) (by dsimp only; omega)
          hplain.symm
  · rw [dif_neg hlt] at hplain
    rw [if_neg hlt]
    by_cases hfull : out.length ≥ outCap
    · rw [if_pos hfull] at hplain ⊢
      exact .done hplain.symm
    · rw [if_neg hfull, asInt_of_lt (by omega)] at hplain
      rw [if_neg hfull, Checked.putByte_eq hfull, Checked.toInt_eq (by omega)]
      exact .done hplain.symm

theorem written_decodeFrom_le (json : List UInt8) (i : Nat) (out : List UInt8)
    (h : out.length ≤ outCap) :
    (decodeFrom json outCap i out).written.length ≤ outCap := by
  have hput : ∀ (out : List UInt8) (c : UInt8), ¬ out.length ≥ outCap →
      (out ++ [c]).length ≤ outCap := fun out c hroom => by
    rw [List.length_append, List.length_singleton]
    omega
  fun_induction decodeFrom json outCap i out with
  | case1 | case2 | case4 | case5 | case7 | case9 => exact h
  | case3 _ out _ _ _ hgive _ ih => exact ih (hput out _ (not_or.mp hgive).2)
  | case6 _ out _ _ _ _ _ _ _ _ hroom ih => exact ih (hput out _ hroom)
  | case8 _ out _ _ _ hroom ih => exact ih (hput out _ hroom)
  | case10 _ out _ hroom => exact hput out 0 hroom

theorem jsonDecodeString_safe (hlen : json.length < 2 ^ 31)
    (hturns : json.length < turns) :
    Checked.jsonDecodeString turns json outCap
        = some (jsonDecodeString json outCap)
      ∧ (jsonDecodeString json outCap).written.length ≤ outCap :=
  ⟨loop_eq_some (decodeTurn_ok hlen) ⟨Nat.zero_le _, Nat.le_refl 0⟩
      (by dsimp only; omega),
    written_decodeFrom_le json 0 [] (Nat.zero_le _)⟩

end decoding

-- ================================================================== result

/-- On every buffer shorter than 2^31 bytes, for every key, index and
output capacity, and with more turns for each loop than the buffer has
bytes: no load, store or sum of the four functions goes wrong, their loops
are left, they come to the results of the plain functions, no more than
`outCap` bytes are written, and every span that is returned lies inside
the buffer. -/
theorem jsonReader_safe (json key : List UInt8) (index outCap turns : Nat)
    (hlen : json.length < 2 ^ 31) (hturns : json.length < turns) :
    Checked.jsonObjectFind turns json key = some (jsonObjectFind json key)
      ∧ Checked.jsonArrayCount turns json = some (jsonArrayCount json)
      ∧ Checked.jsonArrayGet turns json index = some (jsonArrayGet json index)
      ∧ Checked.jsonDecodeString turns json outCap
        = some (jsonDecodeString json outCap)
      ∧ (jsonDecodeString json outCap).written.length ≤ outCap
      ∧ (∀ span ∈ jsonObjectFind json key, span.off + span.len ≤ json.length)
      ∧ ∀ span ∈ jsonArrayGet json index, span.off + span.len ≤ json.length := by
  obtain ⟨hfind, hfound⟩ := @jsonObjectFind_safe json key turns hlen hturns
  obtain ⟨hget, hgot⟩ := jsonArrayGet_safe hlen hturns index
  obtain ⟨hdecode, hwritten⟩ :=
    @jsonDecodeString_safe json turns outCap hlen hturns
  exact ⟨hfind, jsonArrayCount_safe hlen hturns, hget, hdecode, hwritten, hfound,
    hgot⟩

/-- A buffer that ends in the middle of an escape: `{"\`. -/
theorem jsonReader_safe_cut :
    Checked.jsonObjectFind 4 [0x7b, 0x22, 0x5c] []
      = some (jsonObjectFind [0x7b, 0x22, 0x5c] []) :=
  (jsonReader_safe [0x7b, 0x22, 0x5c] [] 0 0 4 (by decide) (by decide)).1

end Obicall
