/-
The scanner on the text of a value: `scanValue` ends where the value does,
wherever the value stands in a buffer.

`scan_value` does not descend into an object or an array. It counts the
brackets of one kind, skips strings, and lets all else pass, the other
brackets among it. `Passes` is what makes that right: a text over which
the count comes out as it went in, without having been at zero in between.
Every value's text is such a text for both kinds of brackets
(`passes_value`, by induction on the value), and so a bracketed value ends
at the bracket where the count is back to zero (`scanValueAt_bytes`).

An offset of `2 ^ 31` or more is none that `scan_value` can return. The
count that has come so far returns nothing at all (`scanNested_beyond`),
which is why `Passes` needs no bound on where the text ends.
-/
import Obicall.Core.Json
import Obicall.Lib.Buffer

namespace Obicall

open Lib.Buffer Lib.Json

variable {buf text : List UInt8} {pos : Nat} {b : UInt8}

-- ================================================================= blanks

theorem isWs_of_isBlank (h : IsBlank b) : isWs b = true := by
  cases h <;> decide

theorem skipWs_of_isWs (h : buf[pos]? = some b) (hb : isWs b = true) :
    skipWs buf pos = skipWs buf (pos + 1) := by
  obtain ⟨hlt, rfl⟩ := List.getElem?_eq_some_iff.mp h
  rw [skipWs, dif_pos hlt, if_pos hb]

theorem skipWs_of_not_isWs (h : buf[pos]? = some b) (hb : isWs b = false) :
    skipWs buf pos = pos := by
  obtain ⟨hlt, rfl⟩ := List.getElem?_eq_some_iff.mp h
  rw [skipWs, dif_pos hlt, if_neg (by rw [hb]; exact Bool.false_ne_true)]

theorem skipWs_blanks (ws : Blanks) (h : Placed buf pos ws.val) :
    skipWs buf pos = skipWs buf (pos + ws.val.length) := by
  obtain ⟨bs, hbs⟩ := ws
  induction bs generalizing pos with
  | nil => rfl
  | cons b bs ih =>
      obtain ⟨hb, hrest⟩ := List.forall_mem_cons.mp hbs
      rw [skipWs_of_isWs h.head (isWs_of_isBlank hb), ih hrest h.tail,
        List.length_cons, show pos + 1 + bs.length = pos + (bs.length + 1) by
          omega]

/-- Blanks are skipped up to the next token. -/
theorem skipWs_to {ws : Blanks} (h : Placed buf pos (ws.val ++ b :: text))
    (hb : isWs b = false) : skipWs buf pos = pos + ws.val.length := by
  rw [skipWs_blanks ws h.left, skipWs_of_not_isWs h.right.head hb]

-- ================================================================ strings

theorem skipStringFrom_raw (h : buf[pos]? = some b) (hq : b ≠ quoteByte)
    (hs : b ≠ backslashByte) :
    skipStringFrom buf pos = skipStringFrom buf (pos + 1) := by
  obtain ⟨hlt, rfl⟩ := List.getElem?_eq_some_iff.mp h
  rw [skipStringFrom, dif_pos hlt]
  simp only [if_neg hq, if_neg hs]

theorem skipStringFrom_quote (h : buf[pos]? = some quoteByte) :
    skipStringFrom buf pos = asInt (pos + 1) := by
  obtain ⟨hlt, hb⟩ := List.getElem?_eq_some_iff.mp h
  rw [skipStringFrom, dif_pos hlt]
  simp only [if_pos hb]

theorem skipStringFrom_escape (h : buf[pos]? = some backslashByte)
    (h₁ : buf[pos + 1]? = some b) (hu : b ≠ 0x75) :
    skipStringFrom buf pos = skipStringFrom buf (pos + 2) := by
  obtain ⟨hlt, hb⟩ := List.getElem?_eq_some_iff.mp h
  have hlt₁ := (List.getElem?_eq_some_iff.mp h₁).1
  have hne : buf[pos + 1]? ≠ some 0x75 := by
    rw [h₁]
    exact fun heq => hu (Option.some.inj heq)
  rw [skipStringFrom, dif_pos hlt]
  simp only [hb, if_neg (by decide : backslashByte ≠ quoteByte), if_true,
    if_neg (Nat.not_le.mpr hlt₁), if_neg hne]

theorem skipStringFrom_unicode (h : buf[pos]? = some backslashByte)
    (hu : buf[pos + 1]? = some 0x75) (hend : pos + 6 ≤ buf.length) :
    skipStringFrom buf pos = skipStringFrom buf (pos + 6) := by
  obtain ⟨hlt, hb⟩ := List.getElem?_eq_some_iff.mp h
  have hlt₁ := (List.getElem?_eq_some_iff.mp hu).1
  rw [skipStringFrom, dif_pos hlt]
  simp only [hb, if_neg (by decide : backslashByte ≠ quoteByte), if_true,
    if_neg (Nat.not_le.mpr hlt₁), hu, if_neg (Nat.not_lt.mpr hend)]

theorem Escape.letter_ne_u (e : Escape) : e.letter ≠ 0x75 := by
  cases e <;> decide

/-- The loop of `skip_string` takes a piece as a whole. -/
theorem skipStringFrom_piece {p : Piece} (h : Placed buf pos p.text) :
    skipStringFrom buf pos = skipStringFrom buf (pos + p.text.length) := by
  cases p with
  | raw b ok => exact skipStringFrom_raw h.head ok.1 ok.2.1
  | escape e =>
      exact skipStringFrom_escape h.head h.tail.head (Escape.letter_ne_u e)
  | unicode d₁ d₂ d₃ d₄ =>
      exact skipStringFrom_unicode h.head h.tail.head
        (h.le (List.cons_ne_nil _ _))

theorem skipStringFrom_text {s : Str} (h : Placed buf pos (Str.text s)) :
    skipStringFrom buf pos = skipStringFrom buf (pos + (Str.text s).length) := by
  induction s generalizing pos with
  | nil => rfl
  | cons p s ih =>
      have htext : Str.text (p :: s) = p.text ++ Str.text s :=
        List.flatMap_cons
      rw [htext] at h ⊢
      rw [skipStringFrom_piece h.left, ih h.right, List.length_append,
        Nat.add_assoc]

/-- `skip_string` ends one past the closing quote. -/
theorem skipString_bytes {s : Str} (h : Placed buf pos (Str.bytes s)) :
    skipString buf pos = asInt (pos + (Str.bytes s).length) := by
  unfold Str.bytes at h ⊢
  rw [List.append_assoc] at h ⊢
  have htext : Placed buf (pos + 1) (Str.text s ++ [quoteByte]) := h.tail
  unfold skipString
  rw [if_pos h.head, skipStringFrom_text htext.left,
    skipStringFrom_quote htext.right.head]
  simp only [List.length_append, List.length_singleton]
  congr 1
  omega

-- =============================================== the count of the brackets

/-- The two kinds of brackets. -/
inductive Brackets : UInt8 → UInt8 → Prop where
  | braces : Brackets openBrace closeBrace
  | brackets : Brackets openBracket closeBracket

/-- Neither a quote nor a bracket. -/
def Plain (b : UInt8) : Prop :=
  b ≠ quoteByte ∧ b ≠ openBrace ∧ b ≠ closeBrace ∧ b ≠ openBracket
    ∧ b ≠ closeBracket

instance : DecidablePred Plain :=
  fun _ => inferInstanceAs (Decidable (_ ∧ _))

theorem plain_of_all (h : text.all (Plain ·) = true) : ∀ b ∈ text, Plain b :=
  fun b hb => of_decide_eq_true (List.all_eq_true.mp h b hb)

section Count

variable {opening closing : UInt8} {depth : Nat}

/-- One byte of the count. -/
theorem scanNested_byte (hd : 1 ≤ depth) (h : buf[pos]? = some b)
    (hq : b ≠ quoteByte) :
    scanNested buf opening closing pos depth
      = scanNested buf opening closing (pos + 1)
          (if b = opening then depth + 1
            else if b = closing then depth - 1 else depth) := by
  obtain ⟨hlt, rfl⟩ := List.getElem?_eq_some_iff.mp h
  rw [scanNested, if_neg (Nat.ne_of_gt hd), dif_pos hlt]
  simp only [if_neg hq]

/-- A string in the count. -/
theorem scanNested_quote (hd : 1 ≤ depth) (h : buf[pos]? = some quoteByte) :
    scanNested buf opening closing pos depth
      = (skipString buf pos).bind
          (scanNested buf opening closing · depth) := by
  obtain ⟨hlt, hb⟩ := List.getElem?_eq_some_iff.mp h
  rw [scanNested, if_neg (Nat.ne_of_gt hd), dif_pos hlt]
  simp only [if_pos hb]
  split
  · rename_i hskip
    rw [hskip]
    rfl
  · rename_i r hskip
    rw [hskip]
    rfl

theorem scanNested_zero :
    scanNested buf opening closing pos 0 = asInt pos := by
  rw [scanNested, if_pos rfl]

/-- From `2 ^ 31` on there is nothing to return. -/
theorem scanNested_beyond (h : 2 ^ 31 ≤ pos) :
    scanNested buf opening closing pos depth = none := by
  fun_induction scanNested buf opening closing pos depth with
  | case1 pos => exact asInt_of_le h
  | case2 | case5 => rfl
  | case3 pos _ _ _ _ _ r hskip ih =>
      have := skipString_lt hskip
      exact ih (by omega)
  | case4 pos _ _ _ _ _ ih => exact ih (by omega)

variable (opening closing) in
/-- A text that the count passes over. -/
def Passes (text : List UInt8) : Prop :=
  ∀ buf pos depth, 1 ≤ depth → Placed buf pos text →
    scanNested buf opening closing pos depth
      = scanNested buf opening closing (pos + text.length) depth

theorem passes_nil : Passes opening closing [] := fun _ _ _ _ _ => rfl

theorem Passes.append {s t : List UInt8} (hs : Passes opening closing s)
    (ht : Passes opening closing t) : Passes opening closing (s ++ t) := by
  intro buf pos depth hd h
  rw [hs buf pos depth hd h.left, ht buf _ depth hd h.right,
    List.length_append, Nat.add_assoc]

theorem passes_plain (k : Brackets opening closing) (h : ∀ b ∈ text, Plain b) :
    Passes opening closing text := by
  induction text with
  | nil => exact passes_nil
  | cons b text ih =>
      obtain ⟨hb, htext⟩ := List.forall_mem_cons.mp h
      refine Passes.append (s := [b]) ?_ (ih htext)
      intro buf pos depth hd hp
      obtain ⟨hq, hob, hcb, hos, hcs⟩ := hb
      rw [scanNested_byte hd hp.head hq]
      cases k with
      | braces => rw [if_neg hob, if_neg hcb]; rfl
      | brackets => rw [if_neg hos, if_neg hcs]; rfl

theorem passes_string (s : Str) : Passes opening closing (Str.bytes s) := by
  intro buf pos depth hd h
  rw [scanNested_quote hd h.head, skipString_bytes h]
  unfold asInt
  split
  · rfl
  · exact (scanNested_beyond (Nat.not_lt.mp ‹_›)).symm

/-- Brackets around a text that passes: of the kind that is counted the
count goes up and down again, and the others are let pass. -/
theorem Passes.wrap {o c : UInt8} (k : Brackets opening closing)
    (k' : Brackets o c) (h : Passes opening closing text) :
    Passes opening closing ([o] ++ text ++ [c]) := by
  by_cases hsame : o = opening
  · intro buf pos depth hd hp
    rw [List.append_assoc] at hp
    have hinner : Placed buf (pos + 1) (text ++ [c]) := hp.tail
    have hc : c = closing := by
      cases k <;> cases k' <;> first | rfl | cases hsame
    have hne : c ≠ o ∧ o ≠ quoteByte ∧ c ≠ quoteByte := by
      cases k' <;> decide
    subst hsame hc
    rw [scanNested_byte hd hp.head hne.2.1, if_pos rfl,
      h buf _ _ (by omega) hinner.left,
      scanNested_byte (by omega) hinner.right.head hne.2.2, if_neg hne.1,
      if_pos rfl]
    simp only [List.length_append, List.length_singleton, Nat.add_sub_cancel]
    congr 1
    omega
  · have hpass : ∀ x, x = o ∨ x = c → Passes opening closing [x] := by
      intro x hx buf pos depth hd hp
      have hxs : x ≠ opening ∧ x ≠ closing ∧ x ≠ quoteByte := by
        cases k <;> cases k' <;> rcases hx with rfl | rfl <;>
          first | exact absurd rfl hsame | decide
      rw [scanNested_byte hd hp.head hxs.2.2, if_neg hxs.1, if_neg hxs.2.1]
      rfl
    exact ((hpass o (.inl rfl)).append h).append (hpass c (.inr rfl))

-- =================================================== the texts of a value

theorem plain_of_isBlank (h : IsBlank b) : Plain b := by
  cases h <;> decide

theorem passes_blanks (k : Brackets opening closing) (ws : Blanks) :
    Passes opening closing ws.val :=
  passes_plain k fun b hb => plain_of_isBlank (ws.property b hb)

theorem passes_commaSeparated (k : Brackets opening closing)
    {ts : List (List UInt8)} (h : ∀ t ∈ ts, Passes opening closing t) :
    Passes opening closing (commaSeparated ts) := by
  induction ts with
  | nil => exact passes_nil
  | cons t ts ih =>
      obtain ⟨ht, hts⟩ := List.forall_mem_cons.mp h
      cases ts with
      | nil => rw [commaSeparated_singleton]; exact ht
      | cons u us =>
          rw [commaSeparated_cons]
          exact ht.append (Passes.append (s := [commaByte])
            (passes_plain k (plain_of_all rfl)) (ih hts))

theorem plain_of_digit (d : Digit) : Plain d.val := by
  obtain ⟨b, hlo, hhi⟩ := d
  refine ⟨?_, ?_, ?_, ?_, ?_⟩ <;> rintro rfl <;>
    first | exact absurd hlo (by decide) | exact absurd hhi (by decide)

theorem plain_digitsText {ds : List Digit} : ∀ b ∈ digitsText ds, Plain b := by
  intro b hb
  obtain ⟨d, -, rfl⟩ := List.mem_map.mp hb
  exact plain_of_digit d

theorem plain_exponent (e : Exponent) : ∀ b ∈ e.text, Plain b := by
  obtain ⟨⟨l, hl⟩, sign, ds, -⟩ := e
  intro b hb
  simp only [Exponent.text, List.mem_append, List.mem_singleton] at hb
  rcases hb with (rfl | hsign) | hds
  · rcases hl with rfl | rfl <;> decide
  · cases sign with
    | none => cases hsign
    | some x =>
        obtain ⟨x, hx⟩ := x
        rw [List.mem_singleton.mp hsign]
        rcases hx with rfl | rfl <;> decide
  · exact plain_digitsText b hds

theorem plain_number (n : Number) : ∀ b ∈ n.bytes, Plain b := by
  intro b hb
  simp only [Number.bytes, List.mem_append] at hb
  rcases hb with ((hminus | hint) | hfraction) | hexponent
  · cases hm : n.minus with
    | true =>
        rw [Number.minusText_true hm] at hminus
        rw [List.mem_singleton.mp hminus]
        decide
    | false =>
        rw [Number.minusText_false hm] at hminus
        cases hminus
  · exact plain_digitsText b hint
  · cases hf : n.fraction with
    | none =>
        rw [Number.fractionText_none hf] at hfraction
        cases hfraction
    | some ds =>
        rw [Number.fractionText_some hf] at hfraction
        rcases List.mem_cons.mp hfraction with rfl | hds
        · decide
        · exact plain_digitsText b hds
  · cases he : n.exponent with
    | none =>
        rw [Number.exponentText_none he] at hexponent
        cases hexponent
    | some e =>
        rw [Number.exponentText_some he] at hexponent
        exact plain_exponent e b hexponent

theorem passes_padded (k : Brackets opening closing) {e : Padded Value}
    (h : Passes opening closing e.value.bytes) :
    Passes opening closing e.text :=
  ((passes_blanks k e.before).append h).append (passes_blanks k e.after)

theorem passes_head (k : Brackets opening closing) (m : Member Value) :
    Passes opening closing m.head :=
  ((((passes_blanks k m.before).append (passes_string m.key)).append
    (passes_blanks k m.afterKey)).append (passes_plain k (plain_of_all rfl))).append
      (passes_blanks k m.value.before)

theorem passes_entry (k : Brackets opening closing) {m : Member Value}
    (h : Passes opening closing m.value.value.bytes) :
    Passes opening closing m.text :=
  ((passes_head k m).append h).append (passes_blanks k m.value.after)

/-- The count passes over every value. -/
theorem passes_value (k : Brackets opening closing) (v : Value) :
    Passes opening closing v.bytes := by
  induction v using Value.entries_induction with
  | null => exact passes_plain k (plain_of_all rfl)
  | bool b => cases b <;> exact passes_plain k (plain_of_all rfl)
  | number n => exact passes_plain k (plain_number n)
  | string s => exact passes_string s
  | array blank es ih =>
      rw [bytes_array, List.append_assoc [openBracket]]
      refine Passes.wrap k .brackets
        ((passes_blanks k blank).append (passes_commaSeparated k ?_))
      intro t ht
      obtain ⟨e, he, rfl⟩ := List.mem_map.mp ht
      exact passes_padded k (ih e he)
  | object blank ms ih =>
      rw [bytes_object, List.append_assoc [openBrace]]
      refine Passes.wrap k .braces
        ((passes_blanks k blank).append (passes_commaSeparated k ?_))
      intro t ht
      obtain ⟨m, hm, rfl⟩ := List.mem_map.mp ht
      exact passes_entry k (ih m hm)

/-- What stands between two brackets of a kind, up to the second one. -/
theorem scanNested_inner (k : Brackets opening closing)
    (h : Passes opening closing text)
    (hp : Placed buf pos (text ++ [closing])) :
    scanNested buf opening closing pos 1
      = asInt (pos + text.length + 1) := by
  have hne : closing ≠ opening ∧ closing ≠ quoteByte := by
    cases k <;> decide
  rw [h buf pos 1 (Nat.le_refl 1) hp.left,
    scanNested_byte (Nat.le_refl 1) hp.right.head hne.2, if_neg hne.1,
    if_pos rfl, scanNested_zero]

end Count

-- ================================================================ numbers

/-- What stands behind a value: a blank, a comma, a closing bracket, or
the end of the buffer. -/
def EndsToken (buf : List UInt8) (pos : Nat) : Prop :=
  ∀ b, buf[pos]? = some b →
    isWs b = true ∨ b = commaByte ∨ b = closeBrace ∨ b = closeBracket

/-- The bytes a number can go on with. -/
def continues (b : UInt8) : Bool :=
  isDigit b || b == 0x2E || b == 0x65 || b == 0x45

theorem EndsToken.not_continues (h : EndsToken buf pos)
    (hb : buf[pos]? = some b) : continues b = false := by
  rcases h b hb with hws | rfl | rfl | rfl
  · simp only [isWs, Bool.or_eq_true, beq_iff_eq] at hws
    rcases hws with ((rfl | rfl) | rfl) | rfl <;> decide
  · decide
  · decide
  · decide

theorem scanDigits_stop (h : ∀ b, buf[pos]? = some b → isDigit b = false) :
    scanDigits buf pos = pos := by
  rw [scanDigits]
  split
  · rename_i hlt
    rw [if_neg (by rw [h _ (List.getElem?_eq_getElem hlt)]; decide)]
  · rfl

theorem isDigit_val (d : Digit) : isDigit d.val = true := by
  obtain ⟨b, hlo, hhi⟩ := d
  simp only [isDigit, Bool.and_eq_true, decide_eq_true_eq]
  exact ⟨hlo, hhi⟩

theorem scanDigits_digits {ds : List Digit} (h : Placed buf pos (digitsText ds))
    (hstop : ∀ b, buf[pos + (digitsText ds).length]? = some b →
      isDigit b = false) :
    scanDigits buf pos = pos + (digitsText ds).length := by
  induction ds generalizing pos with
  | nil => exact scanDigits_stop hstop
  | cons d ds ih =>
      have htext : digitsText (d :: ds) = d.val :: digitsText ds := rfl
      rw [htext] at h hstop ⊢
      obtain ⟨hlt, hb⟩ := List.getElem?_eq_some_iff.mp h.head
      have hsum : pos + 1 + (digitsText ds).length
          = pos + (d.val :: digitsText ds).length := by
        rw [List.length_cons]
        omega
      rw [scanDigits, dif_pos hlt, hb, if_pos (isDigit_val d),
        ih h.tail (by rw [hsum]; exact hstop), hsum]

theorem EndsToken.not_isDigit (h : EndsToken buf pos) :
    ∀ b, buf[pos]? = some b → isDigit b = false := by
  intro b hb
  have hcont := h.not_continues hb
  simp only [continues, Bool.or_eq_false_iff] at hcont
  exact hcont.1.1.1

/-- An exponent starts with its letter, so neither a digit nor a point
stands in front of one, or where a number without one ends. -/
theorem first_exponent {n : Number} (h : Placed buf pos n.exponentText)
    (hend : EndsToken buf (pos + n.exponentText.length))
    (hb : buf[pos]? = some b) : isDigit b = false ∧ b ≠ 0x2E := by
  cases hexp : n.exponent with
  | none =>
      rw [Number.exponentText_none hexp] at hend
      have hcont := hend.not_continues hb
      refine ⟨hend.not_isDigit b hb, ?_⟩
      rintro rfl
      exact absurd hcont (by decide)
  | some e =>
      rw [Number.exponentText_some hexp] at h
      have hletter : b = e.letter.val :=
        Option.some.inj (hb.symm.trans h.head)
      rcases e.letter.property with hl | hl <;>
        rw [hletter, hl] <;> decide

/-- A fraction starts with its point. -/
theorem first_fraction {n : Number}
    (h : Placed buf pos (n.fractionText ++ n.exponentText))
    (hend : EndsToken buf
      (pos + (n.fractionText ++ n.exponentText).length))
    (hb : buf[pos]? = some b) : isDigit b = false := by
  cases hfrac : n.fraction with
  | none =>
      rw [Number.fractionText_none hfrac] at h hend
      exact (first_exponent h hend hb).1
  | some ds =>
      rw [Number.fractionText_some hfrac] at h
      rw [Option.some.inj (hb.symm.trans h.left.head)]
      decide

theorem scanExponent_text {n : Number} (h : Placed buf pos n.exponentText)
    (hend : EndsToken buf (pos + n.exponentText.length)) :
    scanExponent buf pos = pos + n.exponentText.length := by
  cases hexp : n.exponent with
  | none =>
      rw [Number.exponentText_none hexp] at hend ⊢
      have hnot : ¬ (buf[pos]? = some 0x65 ∨ buf[pos]? = some 0x45) := by
        rintro (hb | hb)
        · exact absurd (hend.not_continues hb) (by decide)
        · exact absurd (hend.not_continues hb) (by decide)
      exact if_neg hnot
  | some e =>
      obtain ⟨⟨l, hl⟩, sign, ds, hds⟩ := e
      rw [Number.exponentText_some hexp, Exponent.text] at h hend ⊢
      have hletter : buf[pos]? = some 0x65 ∨ buf[pos]? = some 0x45 := by
        have hfirst : buf[pos]? = some l := h.left.head
        rcases hl with rfl | rfl
        · exact .inl hfirst
        · exact .inr hfirst
      have hsign : scanSign buf (pos + 1)
          = pos + ([l] ++ (sign.map Subtype.val).toList).length := by
        cases sign with
        | none =>
            obtain ⟨d, ds, rfl⟩ := List.exists_cons_of_ne_nil hds
            have hdigits : Placed buf (pos + 1) (digitsText (d :: ds)) :=
              h.right
            have hfirst : buf[pos + 1]? = some d.val := hdigits.head
            have hd := isDigit_val d
            refine if_neg ?_
            rw [hfirst]
            rintro (heq | heq) <;> rw [Option.some.inj heq] at hd <;>
              exact absurd hd (by decide)
        | some x =>
            have hfirst : buf[pos + 1]? = some x.val := h.left.tail.head
            refine if_pos ?_
            rw [hfirst]
            rcases x.property with hx | hx
            · exact .inl (by rw [hx])
            · exact .inr (by rw [hx])
      rw [List.length_append, ← Nat.add_assoc] at hend
      rw [scanExponent, if_pos hletter, hsign,
        scanDigits_digits h.right hend.not_isDigit, Nat.add_assoc,
        ← List.length_append]

theorem scanFraction_text {n : Number}
    (h : Placed buf pos (n.fractionText ++ n.exponentText))
    (hend : EndsToken buf
      (pos + (n.fractionText ++ n.exponentText).length)) :
    scanFraction buf pos = pos + n.fractionText.length := by
  rw [List.length_append, ← Nat.add_assoc] at hend
  have hexp := h.right
  have hfrac := h.left
  cases hfraction : n.fraction with
  | none =>
      rw [Number.fractionText_none hfraction] at hexp hend ⊢
      refine if_neg fun hb => ?_
      exact (first_exponent hexp hend hb).2 rfl
  | some ds =>
      rw [Number.fractionText_some hfraction] at hexp hend hfrac ⊢
      simp only [List.length_append, List.length_singleton,
        ← Nat.add_assoc] at hexp hend ⊢
      have hdigits : Placed buf (pos + 1) (digitsText ds.val) := hfrac.right
      rw [scanFraction, if_pos hfrac.head, scanDigits_digits hdigits
        fun b hb => (first_exponent hexp hend hb).1]

theorem scanMinus_text {n : Number} (h : Placed buf pos n.minusText)
    (hint : Placed buf (pos + n.minusText.length) (digitsText n.int)) :
    scanMinus buf pos = pos + n.minusText.length := by
  cases hm : n.minus with
  | true =>
      rw [Number.minusText_true hm] at h ⊢
      exact if_pos h.head
  | false =>
      obtain ⟨d, ds, hds⟩ := List.exists_cons_of_ne_nil n.int_ne
      rw [Number.minusText_false hm, hds] at hint
      rw [Number.minusText_false hm]
      have hfirst : buf[pos]? = some d.val := hint.head
      have hd := isDigit_val d
      refine if_neg fun heq => ?_
      rw [Option.some.inj (hfirst.symm.trans heq)] at hd
      exact absurd hd (by decide)

/-- The number branch of `scan_value` ends where the number does. -/
theorem scanNumber_bytes {n : Number} (h : Placed buf pos n.bytes)
    (hend : EndsToken buf (pos + n.bytes.length)) :
    scanNumber buf pos = asInt (pos + n.bytes.length) := by
  have hlen : n.bytes.length = n.minusText.length
      + (digitsText n.int).length
      + (n.fractionText ++ n.exponentText).length := by
    simp only [Number.bytes, List.length_append, Nat.add_assoc]
  have hint : 0 < (digitsText n.int).length := by
    rw [digitsText, List.length_map]
    exact List.length_pos_of_ne_nil n.int_ne
  have hsplit : n.bytes = n.minusText ++ (digitsText n.int
      ++ (n.fractionText ++ n.exponentText)) := by
    simp only [Number.bytes, List.append_assoc]
  rw [hlen] at hend ⊢
  rw [hsplit] at h
  rw [← Nat.add_assoc, ← Nat.add_assoc] at hend ⊢
  have hminus := scanMinus_text h.left h.right.left
  have hdigits := scanDigits_digits h.right.left
    fun b hb => first_fraction h.right.right hend hb
  have hfraction := scanFraction_text h.right.right hend
  have htail := h.right.right.right
  rw [List.length_append, ← Nat.add_assoc] at hend
  have hexponent := scanExponent_text htail hend
  simp only [scanNumber, hminus, hdigits, hfraction, hexponent]
  rw [if_neg (by omega), List.length_append, Nat.add_assoc,
    Nat.add_assoc _ _ (List.length _)]

-- ================================================================= values

/-- The bytes a value can start with. -/
def Starts (b : UInt8) : Prop :=
  b = quoteByte ∨ b = openBrace ∨ b = openBracket ∨ b = 0x74 ∨ b = 0x66
    ∨ b = 0x6E ∨ b = 0x2D ∨ isDigit b = true

/-- A digit is no other character that the scanner asks for. -/
theorem ne_of_isDigit {c : UInt8} (h : isDigit b = true)
    (hc : isDigit c = false) : b ≠ c := by
  rintro rfl
  rw [h] at hc
  cases hc

theorem Starts.not_isWs (h : Starts b) : isWs b = false := by
  rcases h with rfl | rfl | rfl | rfl | rfl | rfl | rfl | hd
  case inr.inr.inr.inr.inr.inr.inr =>
    simp only [isWs, Bool.or_eq_false_iff, beq_eq_false_iff_ne]
    exact ⟨⟨⟨ne_of_isDigit hd (by decide), ne_of_isDigit hd (by decide)⟩,
      ne_of_isDigit hd (by decide)⟩, ne_of_isDigit hd (by decide)⟩
  all_goals decide

theorem Starts.ne_closeBracket (h : Starts b) : b ≠ closeBracket := by
  rcases h with rfl | rfl | rfl | rfl | rfl | rfl | rfl | hd
  case inr.inr.inr.inr.inr.inr.inr =>
    exact ne_of_isDigit hd (by decide)
  all_goals decide

/-- A number starts with its minus or with a digit. -/
theorem number_starts (n : Number) :
    ∃ b rest, n.bytes = b :: rest ∧ (b = 0x2D ∨ isDigit b = true) := by
  obtain ⟨d, ds, hds⟩ := List.exists_cons_of_ne_nil n.int_ne
  cases hm : n.minus with
  | true =>
      have htext := Number.minusText_true hm
      exact ⟨_, _, by rw [Number.bytes, htext]; rfl, .inl rfl⟩
  | false =>
      have htext := Number.minusText_false hm
      exact ⟨_, _, by rw [Number.bytes, htext, hds]; rfl,
        .inr (isDigit_val d)⟩

theorem bytes_starts (v : Value) :
    ∃ b rest, v.bytes = b :: rest ∧ Starts b := by
  unfold Starts
  cases v with
  | null => exact ⟨_, _, rfl, by decide⟩
  | bool b => cases b <;> exact ⟨_, _, rfl, by decide⟩
  | number n =>
      obtain ⟨b, rest, hbytes, hb⟩ := number_starts n
      refine ⟨b, rest, hbytes, ?_⟩
      rcases hb with rfl | hd
      · decide
      · simp only [hd, or_true]
  | string s => exact ⟨_, _, rfl, by decide⟩
  | array blank es => exact ⟨_, _, bytes_array blank es, by decide⟩
  | object blank ms => exact ⟨_, _, bytes_object blank ms, by decide⟩

theorem scanWord_word {word : List UInt8} (hne : word ≠ [])
    (h : Placed buf pos word) :
    scanWord buf pos word = asInt (pos + word.length) :=
  if_pos ⟨h.le hne, h.take⟩

theorem scanValueAt_word {word : List UInt8}
    (hword : word = trueText ∨ word = falseText ∨ word = nullText)
    (h : Placed buf pos word) :
    scanValueAt buf pos = (asInt (pos + word.length)).map (·, false) := by
  rcases hword with rfl | rfl | rfl <;>
  · rw [scanValueAt, h.head]
    exact congrArg (Option.map (·, false))
      (scanWord_word (List.cons_ne_nil _ _) h)

/-- A bracketed text whose inside the count passes over. -/
theorem scanValueAt_wrapped {o c : UInt8} (k : Brackets o c)
    (hinner : Passes o c text) (h : Placed buf pos ([o] ++ text ++ [c])) :
    scanValueAt buf pos
      = (asInt (pos + ([o] ++ text ++ [c]).length)).map (·, false) := by
  rw [List.append_assoc] at h ⊢
  have htail : Placed buf (pos + 1) (text ++ [c]) := h.tail
  have hkind : o ≠ quoteByte ∧ (o = openBrace ∨ o = openBracket)
      ∧ closingOf o = c := by
    cases k <;> decide
  have hlen : pos + 1 + text.length + 1
      = pos + ([o] ++ (text ++ [c])).length := by
    simp only [List.length_append, List.length_singleton]
    omega
  rw [scanValueAt, h.head]
  simp only [if_neg hkind.1, if_pos hkind.2.1, hkind.2.2]
  rw [scanNested_inner k hinner htail, hlen]

/-- `scan_value` on a value ends where the value does, if that is an
`int`, and says whether it is a string. -/
theorem scanValueAt_bytes {v : Value} (h : Placed buf pos v.bytes)
    (hend : EndsToken buf (pos + v.bytes.length)) :
    scanValueAt buf pos
      = (asInt (pos + v.bytes.length)).map (·, v.isString) := by
  cases v with
  | null => exact scanValueAt_word (.inr (.inr rfl)) h
  | bool b =>
      cases b with
      | true => exact scanValueAt_word (.inl rfl) h
      | false => exact scanValueAt_word (.inr (.inl rfl)) h
  | number n =>
      obtain ⟨b, rest, hbytes, hb⟩ := number_starts n
      have hfirst : buf[pos]? = some b := by
        rw [Value.bytes, hbytes] at h
        exact h.head
      have hne : ∀ c, isDigit c = false → c ≠ 0x2D → b ≠ c := by
        rintro c hc hminus rfl
        rcases hb with rfl | hd
        · exact hminus rfl
        · rw [hd] at hc
          cases hc
      have hbracket : ¬ (b = openBrace ∨ b = openBracket) :=
        not_or.mpr ⟨hne _ (by decide) (by decide),
          hne _ (by decide) (by decide)⟩
      rw [scanValueAt, hfirst]
      simp only [if_neg (hne quoteByte (by decide) (by decide)),
        if_neg hbracket, if_neg (hne 0x74 (by decide) (by decide)),
        if_neg (hne 0x66 (by decide) (by decide)),
        if_neg (hne 0x6E (by decide) (by decide)), if_pos hb]
      exact congrArg (Option.map (·, false)) (scanNumber_bytes h hend)
  | string s =>
      rw [scanValueAt, h.head]
      exact congrArg (Option.map (·, true)) (skipString_bytes h)
  | array blank es =>
      rw [bytes_array, List.append_assoc [openBracket]] at h ⊢
      refine scanValueAt_wrapped .brackets
        ((passes_blanks .brackets blank).append
          (passes_commaSeparated .brackets ?_)) h
      intro t ht
      obtain ⟨e, -, rfl⟩ := List.mem_map.mp ht
      exact passes_padded .brackets (passes_value .brackets e.value)
  | object blank ms =>
      rw [bytes_object, List.append_assoc [openBrace]] at h ⊢
      refine scanValueAt_wrapped .braces
        ((passes_blanks .braces blank).append
          (passes_commaSeparated .braces ?_)) h
      intro t ht
      obtain ⟨m, -, rfl⟩ := List.mem_map.mp ht
      exact passes_entry .braces (passes_value .braces m.value.value)

end Obicall
