/-
The concrete syntax of JSON: documents with the bytes they are printed as.

A `Value` is a value as it is written, with the blanks between its tokens
and the escapes of its strings, so that `bytes` is a function and two
writings of one value are two `Value`s. Every string, number and literal
of the grammar has one, and so has every nesting; the only texts it adds
are raw bytes of a string that are not UTF-8.

The bytes of ASCII characters are given by number.
-/
import Mathlib.Data.List.Basic

namespace Lib.Json

-- ============================================================ characters

abbrev quoteByte : UInt8 := 0x22
abbrev backslashByte : UInt8 := 0x5C
abbrev commaByte : UInt8 := 0x2C
abbrev colonByte : UInt8 := 0x3A
abbrev openBrace : UInt8 := 0x7B
abbrev closeBrace : UInt8 := 0x7D
abbrev openBracket : UInt8 := 0x5B
abbrev closeBracket : UInt8 := 0x5D

/-- Space, tab, line feed, carriage return. -/
inductive IsBlank : UInt8 → Prop where
  | space : IsBlank 0x20
  | tab : IsBlank 0x09
  | lineFeed : IsBlank 0x0A
  | carriageReturn : IsBlank 0x0D

/-- Blanks between two tokens. -/
abbrev Blanks : Type := { bs : List UInt8 // ∀ b ∈ bs, IsBlank b }

/-- A decimal digit. -/
abbrev Digit : Type := { b : UInt8 // 0x30 ≤ b ∧ b ≤ 0x39 }

/-- A hexadecimal digit. -/
abbrev HexDigit : Type :=
  { b : UInt8 //
    (0x30 ≤ b ∧ b ≤ 0x39) ∨ (0x41 ≤ b ∧ b ≤ 0x46) ∨ (0x61 ≤ b ∧ b ≤ 0x66) }

-- =============================================================== strings

/-- The characters with a two-character escape. -/
inductive Escape where
  | quote | backslash | slash | b | f | n | r | t
  deriving DecidableEq

/-- The letter behind the backslash. -/
def Escape.letter : Escape → UInt8
  | quote => quoteByte
  | backslash => backslashByte
  | slash => 0x2F
  | b => 0x62
  | f => 0x66
  | n => 0x6E
  | r => 0x72
  | t => 0x74

/-- The character it stands for. -/
def Escape.meaning : Escape → UInt8
  | quote => quoteByte
  | backslash => backslashByte
  | slash => 0x2F
  | b => 0x08
  | f => 0x0C
  | n => 0x0A
  | r => 0x0D
  | t => 0x09

/-- A piece of a string: a byte that stands for itself, an escape, or the
four digits of a `\u` escape. -/
inductive Piece where
  | raw (b : UInt8) (ok : b ≠ quoteByte ∧ b ≠ backslashByte ∧ 0x20 ≤ b)
  | escape (e : Escape)
  | unicode (d₁ d₂ d₃ d₄ : HexDigit)

def Piece.text : Piece → List UInt8
  | raw b _ => [b]
  | escape e => [backslashByte, e.letter]
  | unicode d₁ d₂ d₃ d₄ => [backslashByte, 0x75, d₁, d₂, d₃, d₄]

/-- The byte a piece stands for; `none` for a `\u` escape. -/
def Piece.meaning : Piece → Option UInt8
  | raw b _ => some b
  | escape e => some e.meaning
  | unicode .. => none

/-- A string. -/
abbrev Str : Type := List Piece

/-- What stands between the quotes. -/
def Str.text (s : Str) : List UInt8 := s.flatMap Piece.text

/-- The string with its quotes. -/
def Str.bytes (s : Str) : List UInt8 :=
  [quoteByte] ++ Str.text s ++ [quoteByte]

/-- The bytes the string stands for, when it has no `\u` escape. -/
def Str.meaning (s : Str) : Option (List UInt8) := s.mapM Piece.meaning

/-- What may stand between the quotes as far as the quotes go: none stands
there unescaped, and no backslash without the byte it escapes. -/
inductive StringBody : List UInt8 → Prop where
  | nil : StringBody []
  | byte {b : UInt8} {text : List UInt8} : b ≠ quoteByte →
      b ≠ backslashByte → StringBody text → StringBody (b :: text)
  | escape {b : UInt8} {text : List UInt8} : StringBody text →
      StringBody (backslashByte :: b :: text)

theorem stringBody_hexDigit (d : HexDigit) {text : List UInt8}
    (h : StringBody text) : StringBody (d.val :: text) := by
  obtain ⟨b, hb⟩ := d
  refine .byte ?_ ?_ h
  · rintro rfl
    revert hb
    decide
  · rintro rfl
    revert hb
    decide

theorem stringBody_piece (p : Piece) {text : List UInt8}
    (h : StringBody text) : StringBody (p.text ++ text) := by
  cases p with
  | raw b ok => exact .byte ok.1 ok.2.1 h
  | escape e => exact .escape h
  | unicode d₁ d₂ d₃ d₄ =>
      apply StringBody.escape
      apply stringBody_hexDigit d₁
      apply stringBody_hexDigit d₂
      apply stringBody_hexDigit d₃
      exact stringBody_hexDigit d₄ h

/-- A string ends at its closing quote. -/
theorem stringBody_text (s : Str) : StringBody (Str.text s) := by
  induction s with
  | nil => exact .nil
  | cons p s ih => exact stringBody_piece p ih

theorem space_le_hexDigit (d : HexDigit) : 0x20 ≤ d.val := by
  obtain ⟨b, hb⟩ := d
  show 0x20 ≤ b
  rcases hb with h | h | h
  · exact UInt8.le_trans (by decide) h.1
  · exact UInt8.le_trans (by decide) h.1
  · exact UInt8.le_trans (by decide) h.1

/-- A string is written without control characters. -/
theorem space_le_of_mem_text {s : Str} {b : UInt8} (h : b ∈ Str.text s) :
    0x20 ≤ b := by
  obtain ⟨p, -, hp⟩ := List.mem_flatMap.mp h
  cases p with
  | raw c ok =>
      rw [List.mem_singleton.mp hp]
      exact ok.2.2
  | escape e =>
      rcases List.mem_pair.mp hp with rfl | rfl
      · decide
      · cases e <;> decide
  | unicode d₁ d₂ d₃ d₄ =>
      simp only [Piece.text, List.mem_cons, List.not_mem_nil, or_false] at hp
      rcases hp with rfl | rfl | rfl | rfl | rfl | rfl
      · decide
      · decide
      · exact space_le_hexDigit d₁
      · exact space_le_hexDigit d₂
      · exact space_le_hexDigit d₃
      · exact space_le_hexDigit d₄

-- =============================================================== numbers

structure Exponent where
  letter : { b : UInt8 // b = 0x65 ∨ b = 0x45 }
  sign : Option { b : UInt8 // b = 0x2B ∨ b = 0x2D }
  digits : List Digit
  digits_ne : digits ≠ []

/-- A number: a sign, digits without a leading zero, a fraction and an
exponent. -/
structure Number where
  minus : Bool
  int : List Digit
  int_ne : int ≠ []
  no_leading_zero : ∀ d ds, int = d :: ds → d.val = 0x30 → ds = []
  fraction : Option { ds : List Digit // ds ≠ [] }
  exponent : Option Exponent

def digitsText (ds : List Digit) : List UInt8 := ds.map Subtype.val

def Exponent.text (e : Exponent) : List UInt8 :=
  [e.letter.val] ++ (e.sign.map Subtype.val).toList ++ digitsText e.digits

def Number.minusText (n : Number) : List UInt8 :=
  if n.minus then [0x2D] else []

def Number.fractionText (n : Number) : List UInt8 :=
  (n.fraction.map fun ds => [0x2E] ++ digitsText ds.val).getD []

def Number.exponentText (n : Number) : List UInt8 :=
  (n.exponent.map Exponent.text).getD []

section Parts

variable {n : Number}

theorem Number.minusText_true (h : n.minus = true) :
    n.minusText = [0x2D] := if_pos h

theorem Number.minusText_false (h : n.minus = false) : n.minusText = [] := by
  rw [Number.minusText, h]
  rfl

theorem Number.fractionText_none (h : n.fraction = none) :
    n.fractionText = [] := by rw [Number.fractionText, h]; rfl

theorem Number.fractionText_some {ds : { ds : List Digit // ds ≠ [] }}
    (h : n.fraction = some ds) :
    n.fractionText = [0x2E] ++ digitsText ds.val := by
  rw [Number.fractionText, h]
  rfl

theorem Number.exponentText_none (h : n.exponent = none) :
    n.exponentText = [] := by rw [Number.exponentText, h]; rfl

theorem Number.exponentText_some {e : Exponent} (h : n.exponent = some e) :
    n.exponentText = e.text := by rw [Number.exponentText, h]; rfl

end Parts

def Number.bytes (n : Number) : List UInt8 :=
  n.minusText ++ digitsText n.int ++ n.fractionText ++ n.exponentText

-- ================================================================ values

/-- Something between blanks. -/
structure Padded (α : Type) where
  before : Blanks
  value : α
  after : Blanks

/-- A member of an object: a key and a value, the blanks kept. -/
structure Member (α : Type) where
  before : Blanks
  key : Str
  afterKey : Blanks
  value : Padded α

/-- A value as it is written. `blank` stands behind an opening bracket,
before the first entry and also where there is none. -/
inductive Value where
  | null
  | bool (b : Bool)
  | number (n : Number)
  | string (s : Str)
  | array (blank : Blanks) (elements : List (Padded Value))
  | object (blank : Blanks) (members : List (Member Value))

/-- `null`, `true` and `false`. -/
def nullText : List UInt8 := [0x6E, 0x75, 0x6C, 0x6C]
def trueText : List UInt8 := [0x74, 0x72, 0x75, 0x65]
def falseText : List UInt8 := [0x66, 0x61, 0x6C, 0x73, 0x65]

/-- Texts with commas between them. -/
def commaSeparated (texts : List (List UInt8)) : List UInt8 :=
  List.intercalate [commaByte] texts

/-- What stands before a member's value. -/
def Member.head {α : Type} (m : Member α) : List UInt8 :=
  m.before.val ++ Str.bytes m.key ++ m.afterKey.val ++ [colonByte]
    ++ m.value.before.val

mutual

/-- The text of a value. -/
def Value.bytes : Value → List UInt8
  | .null => nullText
  | .bool b => if b then trueText else falseText
  | .number n => n.bytes
  | .string s => Str.bytes s
  | .array blank es =>
      [openBracket] ++ blank.val ++ commaSeparated (elementTexts es)
        ++ [closeBracket]
  | .object blank ms =>
      [openBrace] ++ blank.val ++ commaSeparated (memberTexts ms)
        ++ [closeBrace]

def elementTexts : List (Padded Value) → List (List UInt8)
  | [] => []
  | ⟨before, v, after⟩ :: es =>
      (before.val ++ v.bytes ++ after.val) :: elementTexts es

def memberTexts : List (Member Value) → List (List UInt8)
  | [] => []
  | ⟨before, key, afterKey, ⟨before', v, after⟩⟩ :: ms =>
      (Member.head ⟨before, key, afterKey, ⟨before', v, after⟩⟩ ++ v.bytes
        ++ after.val) :: memberTexts ms

end

def Padded.text (e : Padded Value) : List UInt8 :=
  e.before.val ++ e.value.bytes ++ e.after.val

def Member.text (m : Member Value) : List UInt8 :=
  m.head ++ m.value.value.bytes ++ m.value.after.val

theorem elementTexts_eq (es : List (Padded Value)) :
    elementTexts es = es.map Padded.text := by
  induction es with
  | nil => rw [elementTexts]; rfl
  | cons e es ih => rw [elementTexts, ih]; rfl

theorem memberTexts_eq (ms : List (Member Value)) :
    memberTexts ms = ms.map Member.text := by
  induction ms with
  | nil => rw [memberTexts]; rfl
  | cons m ms ih => rw [memberTexts, ih]; rfl

theorem bytes_array (blank : Blanks) (es : List (Padded Value)) :
    (Value.array blank es).bytes
      = [openBracket] ++ blank.val ++ commaSeparated (es.map Padded.text)
        ++ [closeBracket] := by
  rw [Value.bytes, elementTexts_eq]

theorem bytes_object (blank : Blanks) (ms : List (Member Value)) :
    (Value.object blank ms).bytes
      = [openBrace] ++ blank.val ++ commaSeparated (ms.map Member.text)
        ++ [closeBrace] := by
  rw [Value.bytes, memberTexts_eq]

/-- Induction on a value, with the hypothesis for every entry. -/
theorem Value.entries_induction {P : Value → Prop} (null : P .null)
    (bool : ∀ b, P (.bool b)) (number : ∀ n, P (.number n))
    (string : ∀ s, P (.string s))
    (array : ∀ blank es, (∀ e ∈ es, P e.value) → P (.array blank es))
    (object : ∀ blank ms, (∀ m ∈ ms, P m.value.value) →
      P (.object blank ms)) : ∀ v, P v :=
  @Value.rec P (fun es => ∀ e ∈ es, P e.value)
    (fun ms => ∀ m ∈ ms, P m.value.value) (fun e => P e.value)
    (fun m => P m.value.value) null bool number string array object
    (List.forall_mem_nil _) (fun _ _ he hes => List.forall_mem_cons.mpr ⟨he, hes⟩)
    (List.forall_mem_nil _) (fun _ _ hm hms => List.forall_mem_cons.mpr ⟨hm, hms⟩)
    (fun _ _ _ hv => hv) (fun _ _ _ _ hv => hv)

/-- Whether the value is a string. -/
def Value.isString : Value → Bool
  | .string _ => true
  | _ => false

/-- The text of a value, a string's without its quotes. -/
def Value.content : Value → List UInt8
  | .string s => Str.text s
  | v => v.bytes

/-- A document: a value between blanks. -/
abbrev Document : Type := Padded Value

-- ================================================= texts with commas between

theorem commaSeparated_singleton (t : List UInt8) : commaSeparated [t] = t :=
  List.append_nil t

theorem commaSeparated_cons (t u : List UInt8) (us : List (List UInt8)) :
    commaSeparated (t :: u :: us)
      = t ++ commaByte :: commaSeparated (u :: us) := rfl

/-- The texts in front of one of them. -/
def commaTerminated (texts : List (List UInt8)) : List UInt8 :=
  texts.flatMap (· ++ [commaByte])

theorem length_commaTerminated_cons (t : List UInt8)
    (ts : List (List UInt8)) :
    (commaTerminated (t :: ts)).length
      = t.length + 1 + (commaTerminated ts).length := by
  rw [commaTerminated, List.flatMap_cons, List.length_append,
    List.length_append]
  rfl

theorem commaSeparated_append (ts : List (List UInt8)) (t : List UInt8)
    (us : List (List UInt8)) :
    commaSeparated (ts ++ t :: us)
      = commaTerminated ts ++ commaSeparated (t :: us) := by
  induction ts with
  | nil => rfl
  | cons x ts ih =>
      obtain ⟨y, ys, hys⟩ := List.exists_cons_of_ne_nil
        (List.append_ne_nil_of_right_ne_nil ts (List.cons_ne_nil t us))
      rw [List.cons_append, hys, commaSeparated_cons, ← hys, ih,
        commaTerminated, commaTerminated, List.flatMap_cons]
      simp only [List.append_assoc, List.cons_append, List.nil_append]

end Lib.Json
