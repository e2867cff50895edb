/-
What the field readers see of a document.

- `findText_present`, `findText_absent`: a member found by its key is the
  first one whose key is written so, as long as its value ends where an
  `int` does.
- `elementText_bytes`, `jsonArrayCount_bytes`: the elements of an array, by
  their places.
- `unescape_text`: a string is decoded to its characters, each `\u` escape
  to a question mark; none of them is a `NUL`.

An array is read from its own text, as the buffer that the span of a member
gives: a document without blanks around it.
-/
import Mathlib.Data.List.Induction
import Obicall.Core.Fields
import Obicall.Json.Proofs.Decode
import Obicall.Json.Proofs.Lookup

namespace Obicall

open Lib.Buffer Lib.Json Lib.Overlay

-- ================================================================ strings

/-- The byte a piece is decoded to. -/
def Piece.decoded (p : Piece) : UInt8 := p.meaning.getD 0x3F

/-- The bytes a string is decoded to. -/
def Str.decoded (s : Str) : List UInt8 := s.map Piece.decoded

theorem unescape_piece (p : Piece) (rest : List UInt8) :
    unescape (p.text ++ rest) = (unescape rest).prepend [Piece.decoded p] := by
  cases p with
  | raw b ok => exact unescape_raw ok.2.1
  | escape e => exact unescape_escape (Escape.letter_ne_u e) (decodeEscape_letter e)
  | unicode d₁ d₂ d₃ d₄ => exact unescape_unicode d₁.val d₂.val d₃.val d₄.val

theorem unescape_text (s : Str) :
    unescape (Str.text s) = ⟨Str.decoded s, true⟩ := by
  induction s with
  | nil => rfl
  | cons p s ih =>
      have htext : Str.text (p :: s) = p.text ++ Str.text s := List.flatMap_cons
      rw [htext, unescape_piece, ih]
      rfl

/-- A string has no `NUL`: control characters are written as escapes. -/
theorem ne_zero_of_mem_decoded {s : Str} {b : UInt8} (h : b ∈ Str.decoded s) :
    b ≠ 0 := by
  obtain ⟨p, -, rfl⟩ := List.mem_map.mp h
  cases p with
  | raw b ok =>
      rintro (rfl : b = 0)
      exact absurd ok.2.2 (by decide)
  | escape e => cases e <;> decide
  | unicode => show (0x3F : UInt8) ≠ 0; decide

/-- A string that fits is decoded whole, if its length is an `int`. -/
theorem jsonDecodeString_text {s : Str} {cap : Nat}
    (hint : (Str.decoded s).length < 2 ^ 31)
    (hfits : (Str.decoded s).length < cap) :
    jsonDecodeString (Str.text s) cap
      = ⟨Str.decoded s ++ [0], some (Str.decoded s).length⟩ := by
  have hlen : (Str.decoded s ++ [(0 : UInt8)]).length ≤ cap := by
    rw [List.length_append, List.length_singleton]
    exact hfits
  rw [jsonDecodeString_eq, unescape_text, Unescaped.into, Unescaped.stored,
    if_pos rfl, List.take_of_length_le hlen, if_pos ⟨rfl, hfits⟩,
    asInt_of_lt hint]

/-- One that does not fit is refused. -/
theorem result_jsonDecodeString_text {s : Str} {cap : Nat}
    (hlong : cap ≤ (Str.decoded s).length) :
    (jsonDecodeString (Str.text s) cap).result = none := by
  rw [jsonDecodeString_eq, unescape_text]
  exact if_neg fun h => Nat.not_lt.mpr hlong h.2

/-- One whose length is no `int` fails in every room. -/
theorem result_jsonDecodeString_beyond {s : Str}
    (hlong : 2 ^ 31 ≤ (Str.decoded s).length) (cap : Nat) :
    (jsonDecodeString (Str.text s) cap).result = none := by
  rw [jsonDecodeString_eq, unescape_text, Unescaped.into]
  split_ifs
  · exact asInt_of_le hlong
  · rfl

section Into

variable {n : Nat} {s : Str} {out : Vector UInt8 n}

theorem decodeInto_text (hn : n ≤ 2 ^ 31) (hfits : (Str.decoded s).length < n) :
    decodeInto (Str.text s) out = (place 0 (Str.decoded s ++ [0]) out, true) := by
  rw [decodeInto, jsonDecodeString_text (Nat.lt_of_lt_of_le hfits hn) hfits]
  rfl

theorem decodeInto_long (hlong : n ≤ (Str.decoded s).length) :
    (decodeInto (Str.text s) out).2 = false := by
  rw [decodeInto, result_jsonDecodeString_text hlong]
  rfl

/-- What is decoded is the string of the array. -/
theorem cString_decoded (hfits : (Str.decoded s).length < n) :
    cString (place 0 (Str.decoded s ++ [0]) out) = Str.decoded s :=
  takeWhile_place
    (fun _ hb => bne_iff_ne.mpr (ne_zero_of_mem_decoded hb)) rfl hfits out

end Into

-- ================================================================ members

/-- A value as its reader gets it. -/
def textOf (v : Value) : JsonText := ⟨v.isString, v.content⟩

theorem within_spanAt {json : List UInt8} {pos : Nat} {v : Value}
    (h : Placed json pos v.bytes) :
    (spanAt pos v).within json = textOf v := by
  rw [JsonSpan.within, read_spanAt h, textOf]
  cases v <;> rfl

section Members

variable {doc : Document} {blank : Blanks} {ms : List (Member Value)}
  {key : List UInt8}

/-- The first member with the key, if its value ends where an `int` does. -/
theorem findText_present {xs ys : List (Member Value)} {m : Member Value}
    (hdoc : doc.value = .object blank (xs ++ m :: ys))
    (hxs : ∀ x ∈ xs, Str.text x.key ≠ key) (hkey : Str.text m.key = key)
    (hends : EndsInInt (beforeMember doc blank xs m) m.value.value) :
    findText doc.text key = some (textOf m.value.value) := by
  have hspan : jsonObjectFind doc.text key
      = some (spanAt (beforeMember doc blank xs m).length m.value.value) := by
    rw [jsonObjectFind_doc hdoc,
      findMember_present (members_placed hdoc) hxs hkey]
    simp only [EndsInInt, beforeMember, memberValueEnd, memberValueStart,
      List.length_append] at hends ⊢
    rw [if_pos hends]
  rw [findText, hspan, Option.map_some, within_spanAt (member_placed hdoc)]

/-- A member whose value ends behind that is not found. -/
theorem findText_beyond {xs ys : List (Member Value)} {m : Member Value}
    (hdoc : doc.value = .object blank (xs ++ m :: ys))
    (hxs : ∀ x ∈ xs, Str.text x.key ≠ key) (hkey : Str.text m.key = key)
    (hends : ¬ EndsInInt (beforeMember doc blank xs m) m.value.value) :
    findText doc.text key = none := by
  rw [findText, jsonObjectFind_doc hdoc,
    findMember_present (members_placed hdoc) hxs hkey]
  simp only [EndsInInt, beforeMember, memberValueEnd, memberValueStart,
    List.length_append] at hends ⊢
  rw [if_neg hends]
  rfl

theorem findText_absent (hdoc : doc.value = .object blank ms)
    (hms : ∀ x ∈ ms, Str.text x.key ≠ key) : findText doc.text key = none := by
  rw [findText, jsonObjectFind_doc hdoc,
    findMember_absent (members_placed hdoc) hms]
  rfl

/-- A value stands inside the document. -/
theorem endsInInt_member {xs ys : List (Member Value)} {m : Member Value}
    (hdoc : doc.value = .object blank (xs ++ m :: ys))
    (hlen : doc.text.length < 2 ^ 31) :
    EndsInInt (beforeMember doc blank xs m) m.value.value := by
  obtain ⟨b, rest, hbytes, -⟩ := bytes_starts m.value.value
  have hle := (member_placed hdoc).le (by rw [hbytes]; exact List.cons_ne_nil b rest)
  rw [EndsInInt, List.length_append]
  omega

/-- The value of the first member with the key. -/
def valueOf (ms : List (Member Value)) (key : List UInt8) : Option Value :=
  (ms.find? fun m => Str.text m.key == key).map fun m => m.value.value

/-- In a document that is no longer than an `int` tells, a key is looked up
among the members. -/
theorem findText_doc (hdoc : doc.value = .object blank ms)
    (hlen : doc.text.length < 2 ^ 31) (key : List UInt8) :
    findText doc.text key = (valueOf ms key).map textOf := by
  cases hfind : ms.find? fun m => Str.text m.key == key with
  | none =>
      rw [valueOf, hfind, Option.map_none, Option.map_none]
      refine findText_absent hdoc fun x hx heq => ?_
      exact List.find?_eq_none.mp hfind x hx (beq_iff_eq.mpr heq)
  | some m =>
      obtain ⟨hkey, xs, ys, hms, hxs⟩ := List.find?_eq_some_iff_append.mp hfind
      rw [valueOf, hfind, Option.map_some, Option.map_some]
      rw [hms] at hdoc
      refine findText_present hdoc (fun x hx heq => ?_) (beq_iff_eq.mp hkey)
        (endsInInt_member hdoc hlen)
      have hne := hxs x hx
      rw [beq_iff_eq.mpr heq] at hne
      cases hne

end Members

-- ======================================================= one text, one array

section Store

variable {n : Nat} {json key text : List UInt8} {out : Vector UInt8 n}

/-- An array into which a text is decoded has the text's bytes in it, as
far as they go. -/
theorem decodeInto_eq (hn : n ≤ 2 ^ 31) :
    decodeInto text out
      = (place 0 (unescape text).stored out,
        (unescape text).whole && decide ((unescape text).bytes.length < n)) := by
  have hok : (jsonDecodeString text n).result.isSome
      = ((unescape text).whole && decide ((unescape text).bytes.length < n)) := by
    rw [Bool.eq_iff_iff, isSome_jsonDecodeString hn, Bool.and_eq_true,
      decide_eq_true_iff]
  rw [decodeInto, hok, jsonDecodeString_eq, Unescaped.into, place_take]

theorem findFieldStr_none (h : stringText json key = none) :
    findFieldStr json key out = (out, false) := by
  rw [findFieldStr, h]

theorem findFieldStr_some (h : stringText json key = some text) :
    findFieldStr json key out = decodeInto text out := by
  rw [findFieldStr, h]

/-- A text leaves a `NUL` in `cap` bytes: it stands for fewer bytes than
that, or one of these is a `NUL`. -/
def LeavesNul (cap : Nat) (text : List UInt8) : Prop :=
  (unescape text).bytes.length < cap ∨ 0 ∈ (unescape text).bytes.take cap

theorem leavesNul_iff {cap : Nat} :
    LeavesNul cap text
      ↔ (unescape text).stored.length < cap
        ∨ 0 ∈ (unescape text).stored.take cap := by
  rw [LeavesNul]
  generalize unescape text = u
  unfold Unescaped.stored
  split
  next =>
    rw [List.length_append, List.length_singleton]
    rcases Nat.lt_or_ge u.bytes.length cap with hlt | hge
    · refine ⟨fun _ => .inr ?_, fun _ => .inl hlt⟩
      rw [List.take_of_length_le (by
        rw [List.length_append, List.length_singleton]
        exact hlt)]
      exact List.mem_append_right _ List.mem_cons_self
    · rw [List.take_append_of_le_length hge]
      refine or_congr_left ⟨fun h => ?_, fun h => ?_⟩
      · exact absurd h (Nat.not_lt.mpr hge)
      · omega
  next => exact Iff.rfl

/-- A field whose array ends in a `NUL` before it is read has one after it
where the text leaves one. -/
theorem zero_mem_findFieldStr (hn : n ≤ 2 ^ 31) (hpos : 0 < n)
    (hlast : out.get ⟨n - 1, Nat.sub_lt hpos Nat.one_pos⟩ = 0) :
    0 ∈ (findFieldStr json key out).1
      ↔ ∀ text, stringText json key = some text → LeavesNul n text := by
  cases htext : stringText json key with
  | none =>
      rw [findFieldStr_none htext]
      exact ⟨fun _ _ h => (by cases h), fun _ => mem_iff_get.mpr ⟨_, hlast⟩⟩
  | some text =>
      rw [findFieldStr_some htext, decodeInto_eq hn, mem_place_iff hpos hlast,
        ← leavesNul_iff]
      simp only [Option.some.injEq, forall_eq']

/-- A string that is read with success is terminated. -/
theorem zero_mem_decodeInto (hn : n ≤ 2 ^ 31)
    (h : (decodeInto text out).2 = true) : 0 ∈ (decodeInto text out).1 := by
  rw [decodeInto_eq hn] at h ⊢
  obtain ⟨hwhole, hfits⟩ := Bool.and_eq_true_iff.mp h
  rw [decide_eq_true_iff] at hfits
  rw [Unescaped.stored, if_pos hwhole]
  exact marker_mem_place hfits out

theorem zero_mem_of_found (hn : n ≤ 2 ^ 31) {v : Vector UInt8 n}
    (h : findFieldStr json key out = (v, true)) : 0 ∈ v := by
  cases htext : stringText json key with
  | none =>
      rw [findFieldStr_none htext] at h
      cases h
  | some text =>
      rw [findFieldStr_some htext] at h
      have hmem := zero_mem_decodeInto hn (congrArg Prod.snd h)
      rwa [h] at hmem

end Store

-- ================================================================= arrays

section Elements

variable {blank : Blanks} {es : List (Padded Value)}

/-- A value as a document of its own. -/
def bare (v : Value) : Document := ⟨noBlanks, v, noBlanks⟩

theorem text_bare (v : Value) : (bare v).text = v.bytes :=
  List.append_nil v.bytes

/-- An element stands inside the text of its array. -/
theorem endsInInt_element {xs ys : List (Padded Value)} {e : Padded Value}
    (hlen : (Value.array blank (xs ++ e :: ys)).bytes.length < 2 ^ 31) :
    EndsInInt (beforeElement (bare (.array blank (xs ++ e :: ys))) blank xs e)
      e.value := by
  obtain ⟨b, rest, hbytes, -⟩ := bytes_starts e.value
  have hdoc : (bare (.array blank (xs ++ e :: ys))).value = _ := rfl
  have hle := (element_placed hdoc).le
    (by rw [hbytes]; exact List.cons_ne_nil b rest)
  rw [text_bare] at hle
  rw [EndsInInt, List.length_append]
  omega

theorem jsonArrayCount_bytes
    (hlen : (Value.array blank es).bytes.length < 2 ^ 31) :
    jsonArrayCount (Value.array blank es).bytes = some es.length := by
  have hdoc : (bare (.array blank es)).value = .array blank es := rfl
  have hcount := count_iff hdoc
  rw [text_bare] at hcount
  refine hcount.mpr fun xs e hes => ?_
  subst hes
  exact endsInInt_element hlen

theorem elementText_bytes
    (hlen : (Value.array blank es).bytes.length < 2 ^ 31) (index : Nat) :
    elementText (Value.array blank es).bytes index
      = es[index]?.map fun e => textOf e.value := by
  have hdoc : (bare (.array blank es)).value = .array blank es := rfl
  have hgets := getsElement_iff hdoc index
  obtain ⟨hfound, habsent⟩ := hgets.mpr fun xs e ys hes _ => by
    subst hes
    exact endsInInt_element hlen
  rw [text_bare] at hfound habsent
  rcases Nat.lt_or_ge index es.length with hlt | hge
  · have hsplit : es = es.take index ++ es[index] :: es.drop (index + 1) := by
      rw [← List.drop_eq_getElem_cons hlt, List.take_append_drop]
    obtain ⟨hget, -⟩ := hfound _ _ _ hsplit (List.length_take_of_le hlt.le)
    have hplaced := element_placed (hdoc.trans (congrArg _ hsplit))
    rw [text_bare] at hplaced
    rw [elementText, hget, Option.map_some, within_spanAt hplaced,
      List.getElem?_eq_getElem hlt, Option.map_some]
  · rw [elementText, habsent hge, List.getElem?_eq_none hge]
    rfl

/-- The elements of a list by their places. -/
theorem filterMap_range {α β : Type} (f : α → β) (xs : List α) :
    ((List.range xs.length).filterMap fun i => xs[i]?.map f) = xs.map f := by
  induction xs using List.reverseRecOn with
  | nil => rfl
  | append_singleton xs x ih =>
      have hfront : ((List.range xs.length).filterMap
          fun i => (xs ++ [x])[i]?.map f) = xs.map f := by
        rw [← ih]
        refine List.filterMap_congr fun i hi => ?_
        rw [List.getElem?_append_left (List.mem_range.mp hi)]
      rw [List.length_append, List.length_singleton, List.range_succ,
        List.filterMap_append, hfront, List.map_append]
      simp

/-- The strings of an array that fit are what its reader gets. -/
theorem elementName_bytes {strs : List Str} {cap : Nat} (hcap : cap ≤ 2 ^ 31)
    (hlen : (Value.array blank es).bytes.length < 2 ^ 31)
    (hes : es.map (·.value) = strs.map .string)
    (hfits : ∀ s ∈ strs, (Str.decoded s).length < cap) (index : Nat) :
    elementName (Value.array blank es).bytes index cap
      = strs[index]?.map Str.decoded := by
  have htext : elementText (Value.array blank es).bytes index
      = strs[index]?.map fun s => textOf (.string s) := by
    rw [elementText_bytes hlen]
    have hvalue := congrArg (·[index]?.map textOf) hes
    simp only [List.getElem?_map, Option.map_map] at hvalue
    exact hvalue
  rw [elementName, htext]
  cases hs : strs[index]? with
  | none => rfl
  | some s =>
      have hshort := hfits s (List.mem_of_getElem? hs)
      have hdecode := jsonDecodeString_text
        (Nat.lt_of_lt_of_le hshort hcap) hshort
      have hword : (Str.decoded s ++ [(0 : UInt8)]).takeWhile (· != 0)
          = Str.decoded s := by
        rw [List.takeWhile_append_of_pos fun b hb =>
          bne_iff_ne.mpr (ne_zero_of_mem_decoded hb)]
        exact List.append_nil _
      simp only [Option.map_some, Option.bind_some, textOf, Value.isString,
        Value.content, hdecode, Option.isSome_some, Bool.and_self, if_true, hword]

theorem jsonArrayCount_of_first {b : UInt8} {rest : List UInt8}
    (hws : isWs b = false) (hb : b ≠ openBracket) :
    jsonArrayCount (b :: rest) = none := by
  have hskip : skipWs (b :: rest) 0 = 0 := skipWs_of_not_isWs rfl hws
  have hfirst : (b :: rest)[0]? ≠ some openBracket := fun h =>
    hb (Option.some.inj h)
  simp only [jsonArrayCount, arrayOpen, hskip]
  rw [if_neg hfirst]
  rfl

/-- A value that is neither a string nor an array has nothing to count. -/
theorem jsonArrayCount_of_not_array {v : Value} (hs : v.isString = false)
    (hv : ∀ blank es, v ≠ .array blank es) :
    jsonArrayCount v.content = none := by
  cases v with
  | null => exact jsonArrayCount_of_first (by decide) (by decide)
  | bool b =>
      cases b with
      | false => exact jsonArrayCount_of_first (by decide) (by decide)
      | true => exact jsonArrayCount_of_first (by decide) (by decide)
  | number n =>
      obtain ⟨b, rest, hbytes, hb⟩ := number_starts n
      have hstarts : Starts b := by
        rcases hb with rfl | hd
        · exact .inr (.inr (.inr (.inr (.inr (.inr (.inl rfl))))))
        · exact .inr (.inr (.inr (.inr (.inr (.inr (.inr hd))))))
      have hne : b ≠ openBracket := by
        rcases hb with rfl | hd
        · decide
        · exact ne_of_isDigit hd (by decide)
      show jsonArrayCount n.bytes = none
      rw [hbytes]
      exact jsonArrayCount_of_first hstarts.not_isWs hne
  | string => cases hs
  | array blank es => exact absurd rfl (hv blank es)
  | object blank ms =>
      show jsonArrayCount (Value.object blank ms).bytes = none
      rw [bytes_object]
      exact jsonArrayCount_of_first (by decide) (by decide)

end Elements

-- ========================================================== plain documents

/-- A string without escapes. -/
def plainStr (s : String) : Str :=
  (ascii s).filterMap fun b =>
    if ok : b ≠ quoteByte ∧ b ≠ backslashByte ∧ 0x20 ≤ b then
      some (.raw b ok)
    else none

/-- A member, an object and an array without blanks. -/
def plainMember (key : String) (v : Value) : Member Value :=
  ⟨noBlanks, plainStr key, noBlanks, bare v⟩

def plainObject (ms : List (Member Value)) : Document :=
  bare (.object noBlanks ms)

def plainArray (vs : List Value) : Value := .array noBlanks (vs.map bare)

/-- The number 1. -/
def numberOne : Number where
  minus := false
  int := [⟨0x31, by decide⟩]
  int_ne := List.cons_ne_nil _ _
  no_leading_zero _ _ h _ := (List.cons.inj h).2.symm
  fraction := none
  exponent := none

end Obicall
