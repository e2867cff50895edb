/-
The dependencies of a parsed manifest against the document it is read from.

Of an array, every element is read and every failure is told: the parse
keeps the list or fails (`readDependencies_bytes`). A value of another kind
does not come that far. A string is not looked into, and of what is neither
a string nor an array the count is -1, for which the loop does not turn;
the manifest is accepted without dependencies (`parseDependencies_empty`).

`dependencies_kept_iff` states for every document what that leaves.
-/
import Obicall.Manifest.Proofs.Parse

namespace Obicall

open Lib.Json Lib.Overlay Lib.Result

-- ============================================================== the readers

section Readers

variable {doc : Document} {blank : Blanks} {es : List (Padded Value)}
  {array : List UInt8}
  {ds : { ds : List ManifestName // ds.length ≤ maxDependencies }}

/-- Where nothing is counted the list is empty. -/
theorem readDependencies_of_count (h : jsonArrayCount array = none) :
    readDependencies array = .ok ⟨[], Nat.zero_le _⟩ := by
  rw [readDependencies_eq_ok, h]
  exact ⟨Nat.zero_le _, rfl⟩

/-- An element that is read is a string, kept as it is decoded. -/
theorem dependencyEntry_eq_ok {name : ManifestName} {v : Value} {i : Nat}
    (helem : elementText array i = some (textOf v))
    (h : dependencyEntry array i = .ok name) :
    ∃ s, v = .string s ∧ cString name = Str.decoded s := by
  cases v with
  | string s =>
      have hstring : elementText array i = some ⟨true, Str.text s⟩ := helem
      rw [dependencyEntry, hstring] at h
      simp only [if_true] at h
      rcases Nat.lt_or_ge (Str.decoded s).length 64 with hfits | hlong
      · rw [decodeInto_text (by decide) hfits, if_pos rfl] at h
        exact ⟨s, rfl, Except.ok.inj h ▸ cString_decoded hfits⟩
      · rw [decodeInto_long hlong] at h
        cases h
  | null | bool | number | array | object =>
      rw [dependencyEntry, helem] at h
      cases h

theorem strings_of_entries {es : List (Padded Value)} {names : List ManifestName}
    (h : List.Forall₂
      (fun e name => ∃ s, e.value = .string s ∧ cString name = Str.decoded s)
      es names) :
    ∃ strs : List Str, es.map (·.value) = strs.map .string
      ∧ names.map cString = strs.map Str.decoded := by
  induction h with
  | nil => exact ⟨[], rfl, rfl⟩
  | @cons e name es names hhead _ ih =>
      obtain ⟨s, hv, hname⟩ := hhead
      obtain ⟨strs, hvalues, hnames⟩ := ih
      refine ⟨s :: strs, ?_, ?_⟩
      · rw [List.map_cons, List.map_cons, hv, hvalues]
      · rw [List.map_cons, List.map_cons, hname, hnames]

/-- An array that is read has at most eight elements, all of them strings,
and all of them are kept, in their order. -/
theorem readDependencies_bytes
    (hlen : (Value.array blank es).bytes.length < 2 ^ 31)
    (h : readDependencies (Value.array blank es).bytes = .ok ds) :
    ∃ strs : List Str, es.map (·.value) = strs.map .string
      ∧ strs.length ≤ maxDependencies
      ∧ ds.val.map cString = strs.map Str.decoded := by
  rw [readDependencies_eq_ok, jsonArrayCount_bytes hlen, Option.getD_some,
    mapM_eq_ok] at h
  obtain ⟨hfew, hread⟩ := h
  have hentries : List.Forall₂
      (fun e name => ∃ s, e.value = .string s ∧ cString name = Str.decoded s)
      es ds.val := by
    refine List.forall₂_iff_get.mpr ⟨?_, fun i hi hi' => ?_⟩
    · rw [← hread.length_eq, List.length_range]
    · have hentry := (List.forall₂_iff_get.mp hread).2 i
        (by rw [List.length_range]; exact hi) hi'
      rw [List.get_eq_getElem, List.getElem_range] at hentry
      refine dependencyEntry_eq_ok ?_ hentry
      rw [elementText_bytes hlen, List.getElem?_eq_getElem hi]
      rfl
  obtain ⟨strs, hvalues, hnames⟩ := strings_of_entries hentries
  refine ⟨strs, hvalues, ?_, hnames⟩
  have hcount := congrArg List.length hvalues
  rw [List.length_map, List.length_map] at hcount
  omega

/-- Without a text to read, or with nothing to count in it, the parse goes
on with no dependencies. -/
theorem parseDependencies_empty {json : List UInt8}
    (h : ∀ text, plainText json (ascii "dependencies") = some text →
      jsonArrayCount text = none) :
    parseDependencies json = .ok ⟨[], Nat.zero_le _⟩ := by
  unfold parseDependencies
  cases htext : plainText json (ascii "dependencies") with
  | none => rfl
  | some text => exact readDependencies_of_count (h text htext)

end Readers

-- ============================================================ the documents

section Documents

variable {F : Type} [DoubleArith F] [DoubleText F] {doc : Document}
  {blank : Blanks} {xs ys : List (Member Value)} {m : Member Value}

/-- A manifest that is parsed from the text has the list that `v`, the
value of its `dependencies`, writes: `v` is an array of at most eight
strings, and the names are the decoded strings in their order. -/
def KeepsDependencies (F : Type) [DoubleArith F] [DoubleText F]
    (json : List UInt8) (v : Value) : Prop :=
  ∀ parsed : ParsedManifest F, obicallManifestParseJson json = .ok parsed →
    ∃ (blank : Blanks) (es : List (Padded Value)) (strs : List Str),
      v = .array blank es ∧ es.map (·.value) = strs.map .string
        ∧ strs.length ≤ maxDependencies
        ∧ parsed.dependencies.val.map cString = strs.map Str.decoded

/-- An array that is found is kept. -/
theorem keeps_of_array {json : List UInt8} {blank : Blanks}
    {es : List (Padded Value)}
    (hfind : findText json (ascii "dependencies")
      = some (textOf (.array blank es)))
    (hlen : (Value.array blank es).bytes.length < 2 ^ 31) :
    KeepsDependencies F json (.array blank es) := by
  intro parsed hparse
  have hread := (parse_eq_ok hparse).2.dependencies
  have hplain : plainText json (ascii "dependencies")
      = some (Value.array blank es).bytes := by
    rw [plainText, hfind]
    rfl
  rw [parseDependencies, hplain] at hread
  obtain ⟨strs, hvalues, hfew, hnames⟩ := readDependencies_bytes hlen hread
  exact ⟨blank, es, strs, rfl, hvalues, hfew, hnames⟩

/-- A manifest accepted without dependencies is right about an empty array
only. -/
theorem eq_nil_of_keeps {json : List UInt8} {v : Value}
    (hkeeps : KeepsDependencies F json v) (haccepted : FieldsAccepted F json)
    (hempty : parseDependencies json = .ok ⟨[], Nat.zero_le _⟩) :
    ∃ blank, v = .array blank [] := by
  obtain ⟨parsed, hparse⟩ := parse_of_accepted haccepted hempty
  have hread := (parse_eq_ok hparse).2.dependencies
  have hnone : parsed.dependencies.val = [] :=
    congrArg Subtype.val (Except.ok.inj (hread.symm.trans hempty))
  obtain ⟨blank, es, strs, rfl, hvalues, -, hnames⟩ := hkeeps parsed hparse
  rw [hnone, List.map_nil, eq_comm, List.map_eq_nil_iff] at hnames
  rw [hnames, List.map_nil, List.map_eq_nil_iff] at hvalues
  exact ⟨blank, by rw [hvalues]⟩

/-- In a well-formed object whose first `dependencies` is `m`: no parsed
manifest has dropped an entry, if and only if another field is refused, or
the value is an array that has no entries or ends where an `int` does. -/
theorem dependencies_kept_iff
    (hdoc : doc.value = .object blank (xs ++ m :: ys))
    (hxs : ∀ x ∈ xs, Str.text x.key ≠ ascii "dependencies")
    (hkey : Str.text m.key = ascii "dependencies") :
    KeepsDependencies F doc.text m.value.value
      ↔ ¬ FieldsAccepted F doc.text
        ∨ ∃ (blank' : Blanks) (es : List (Padded Value)),
          m.value.value = .array blank' es
            ∧ (es = []
              ∨ EndsInInt (beforeMember doc blank xs m) m.value.value) := by
  by_cases hends : EndsInInt (beforeMember doc blank xs m) m.value.value
  · have hfind := findText_present hdoc hxs hkey hends
    constructor
    · intro hkeeps
      by_contra hnot
      obtain ⟨haccepted, hvalue⟩ := not_or.mp hnot
      have harray : ∀ blank es, m.value.value ≠ .array blank es :=
        fun blank es heq => hvalue ⟨blank, es, heq, .inr hends⟩
      have hempty : parseDependencies doc.text = .ok ⟨[], Nat.zero_le _⟩ := by
        refine parseDependencies_empty fun text htext => ?_
        rw [plainText, hfind, Option.bind_some] at htext
        split at htext
        next => cases htext
        next hplain =>
          cases htext
          exact jsonArrayCount_of_not_array (Bool.not_eq_true _ ▸ hplain) harray
      obtain ⟨blank', heq⟩ := eq_nil_of_keeps hkeeps
        (not_not.mp haccepted) hempty
      exact harray blank' [] heq
    · rintro (hrefused | ⟨blank', es, heq, -⟩)
      · intro parsed hparse
        exact absurd (parse_eq_ok hparse).1 hrefused
      · rw [heq] at hfind hends ⊢
        refine keeps_of_array hfind ?_
        rw [EndsInInt, List.length_append] at hends
        omega
  · have hfind := findText_beyond hdoc hxs hkey hends
    have hplain : plainText doc.text (ascii "dependencies") = none := by
      rw [plainText, hfind]
      rfl
    have hempty : parseDependencies doc.text = .ok ⟨[], Nat.zero_le _⟩ :=
      parseDependencies_empty fun text htext => by
        rw [hplain] at htext
        cases htext
    constructor
    · intro hkeeps
      by_contra hnot
      obtain ⟨haccepted, hvalue⟩ := not_or.mp hnot
      obtain ⟨blank', heq⟩ := eq_nil_of_keeps hkeeps
        (not_not.mp haccepted) hempty
      exact hvalue ⟨blank', [], heq, .inl rfl⟩
    · rintro (hrefused | ⟨blank', es, heq, rfl | hin⟩)
      · intro parsed hparse
        exact absurd (parse_eq_ok hparse).1 hrefused
      · intro parsed hparse
        have hread := (parse_eq_ok hparse).2.dependencies
        have hnone : parsed.dependencies.val = [] :=
          congrArg Subtype.val (Except.ok.inj (hread.symm.trans hempty))
        exact ⟨blank', [], [], heq, rfl, Nat.zero_le _, by rw [hnone]; rfl⟩
      · exact absurd hin hends

end Documents

-- ============================================================== one manifest

/-- A manifest with a value for `dependencies`. -/
def dependentManifest (v : Value) : Document :=
  leadingManifest (plainMember "dependencies" v)

theorem key_ne_dependencies :
    ∀ x ∈ leadingMembers, Str.text x.key ≠ ascii "dependencies" := by decide

/-- An array of one name is kept. -/
theorem dependencies_kept_one :
    KeepsDependencies Binary64
      (dependentManifest (plainArray [.string (plainStr "crypto")])).text
      (plainArray [.string (plainStr "crypto")]) := by
  have hdoc : (dependentManifest (plainArray [.string (plainStr "crypto")])).value
      = .object noBlanks (leadingMembers ++ plainMember "dependencies"
        (plainArray [.string (plainStr "crypto")]) :: []) := rfl
  exact (dependencies_kept_iff hdoc key_ne_dependencies rfl).mpr
    (.inr ⟨_, _, rfl, .inr (endsInInt_member hdoc (by decide))⟩)

/-- The manifest with `"dependencies": "crypto"`, a string in place of a
list: it is accepted, and the name is dropped. -/
theorem dependencies_dropped :
    (∃ parsed : ParsedManifest Binary64, obicallManifestParseJson
        (dependentManifest (.string (plainStr "crypto"))).text = .ok parsed
          ∧ parsed.dependencies.val = [])
      ∧ ¬ KeepsDependencies Binary64
        (dependentManifest (.string (plainStr "crypto"))).text
        (.string (plainStr "crypto")) := by
  have hlen : (dependentManifest (.string (plainStr "crypto"))).text.length
      < 2 ^ 31 := by decide
  have hempty : parseDependencies
      (dependentManifest (.string (plainStr "crypto"))).text
      = .ok ⟨[], Nat.zero_le _⟩ := by
    refine parseDependencies_empty fun text htext => ?_
    rw [plainText, findText_doc rfl hlen] at htext
    cases htext
  have haccepted := leadingManifest_accepted hlen rfl rfl rfl
  obtain ⟨parsed, hparse⟩ := parse_of_accepted haccepted hempty
  have hread := (parse_eq_ok hparse).2.dependencies
  refine ⟨⟨parsed, hparse, ?_⟩, fun hkeeps => ?_⟩
  · exact congrArg Subtype.val (Except.ok.inj (hread.symm.trans hempty))
  · obtain ⟨blank, heq⟩ := eq_nil_of_keeps hkeeps haccepted hempty
    cases heq

end Obicall
