/-
Members, elements and strings of a document: what the lookups return where
the buffer holds a document.

- `findMember_match`, `findMember_skip`, `findMember_last`,
  `findMember_beyond`: one turn of `json_object_find` on a member's text,
  by what the turn decides; `findMember_present`, `findMember_absent`: the
  whole loop.
- `countElements_text`, `getElement_text`: the loops over an array.
- `decodeFrom_text`: a string's text is decoded to what it means.

Every one of them is right up to the offsets that an `int` holds. A value
that ends at `2 ^ 31` or behind is not found and not counted, although its
document has a length that the functions take: `lookup_iff` states where
the line is.
-/
import Obicall.Json.Proofs.Scan

namespace Obicall

open Lib.Buffer Lib.Json

variable {buf text key : List UInt8} {pos : Nat}

-- ================================================================== spans

/-- The span of a value that is printed at `start`. -/
def spanAt (start : Nat) : Value → JsonSpan
  | .string s => ⟨start + 1, (Str.text s).length, true⟩
  | v => ⟨start, v.bytes.length, false⟩

/-- A value's span is read as the value's text. -/
theorem read_spanAt {v : Value} (h : Placed buf pos v.bytes) :
    (spanAt pos v).read buf = v.content := by
  cases v with
  | string s =>
      have htext : Placed buf (pos + 1) (Str.text s ++ [quoteByte]) := h.tail
      exact htext.left.take
  | null | bool | number | array | object => exact h.take

theorem spanFromValue_eq (v : Value) (h : pos + v.bytes.length < 2 ^ 31) :
    spanFromValue pos (pos + v.bytes.length) v.isString = spanAt pos v := by
  cases v with
  | string s =>
      have hlen : (Value.string s).bytes.length = (Str.text s).length + 2 := by
        rw [Value.bytes, Str.bytes]
        simp only [List.length_append, List.length_singleton]
        omega
      rw [hlen] at h ⊢
      have hinner : u32Sub (pos + ((Str.text s).length + 2)) 1
          = pos + (Str.text s).length + 1 :=
        u32Sub_of_le (by omega) (by omega)
      have houter : u32Sub (pos + (Str.text s).length + 1) (pos + 1)
          = (Str.text s).length := by
        rw [u32Sub_of_le (by omega) (by omega)]
        omega
      simp only [spanFromValue, Value.isString, if_true, spanAt, hinner,
        houter]
  | null | bool | number | array | object =>
      refine congrArg (JsonSpan.mk pos · false) ?_
      rw [u32Sub_of_le (by omega) (by omega), Nat.add_sub_cancel_left]

/-- Behind a value and its blanks stands a comma or a closing bracket. -/
theorem endsToken_of_placed {ws : Blanks} {c : UInt8}
    (h : Placed buf pos (ws.val ++ c :: text))
    (hc : c = commaByte ∨ c = closeBrace ∨ c = closeBracket) :
    EndsToken buf pos := by
  intro b hb
  obtain ⟨bs, hbs⟩ := ws
  cases bs with
  | nil =>
      rw [Option.some.inj (hb.symm.trans h.head)]
      exact .inr hc
  | cons x bs =>
      rw [Option.some.inj (hb.symm.trans h.left.head)]
      exact .inl (isWs_of_isBlank (hbs x List.mem_cons_self))

-- ================================================================ objects

theorem findMember_of_none (h : scanMember buf pos = none) :
    findMember buf key pos = none := by
  rw [findMember]
  split
  · rfl
  · rename_i hsome
    rw [h] at hsome
    cases hsome

theorem findMember_of_some {m : ScannedMember}
    (h : scanMember buf pos = some m) :
    findMember buf key pos
      = if m.keyStrLen = key.length
          ∧ (buf.drop m.keyStart).take key.length = key then
        some (spanFromValue m.valueStart m.valueEnd m.isStr)
      else if buf[skipWs buf m.valueEnd]? = some commaByte then
        findMember buf key (skipWs buf m.valueEnd + 1)
      else none := by
  rw [findMember]
  split
  · rename_i hnone
    rw [h] at hnone
    cases hnone
  · rename_i m' hsome
    rw [h] at hsome
    cases hsome
    rfl

section Object

variable {m : Member Value} {c : UInt8}

/-- Where the value of a member at `pos` starts, and where it ends. -/
def memberValueStart (pos : Nat) (m : Member Value) : Nat :=
  pos + m.head.length

def memberValueEnd (pos : Nat) (m : Member Value) : Nat :=
  memberValueStart pos m + m.value.value.bytes.length

/-- A member's text and what follows, taken apart. -/
theorem member_parts (h : Placed buf pos (m.text ++ c :: text)) :
    Placed buf pos (m.before.val
        ++ (Str.bytes m.key ++ (m.afterKey.val ++ colonByte
          :: (m.value.before.val ++ m.value.value.bytes))))
      ∧ Placed buf (memberValueStart pos m) m.value.value.bytes
      ∧ Placed buf (memberValueEnd pos m) (m.value.after.val ++ c :: text) := by
  have hsplit : m.text ++ c :: text
      = (m.head ++ m.value.value.bytes) ++ (m.value.after.val ++ c :: text) := by
    rw [Member.text]
    simp only [List.append_assoc]
  rw [hsplit] at h
  have hend := h.right
  rw [List.length_append, ← Nat.add_assoc] at hend
  refine ⟨?_, h.left.right, hend⟩
  have hfirst := h.left
  rw [Member.head] at hfirst
  simpa only [List.append_assoc, List.cons_append, List.nil_append]
    using hfirst

/-- The blanks in front of a member are skipped. -/
theorem scanMember_blanks (ws : Blanks) (h : Placed buf pos ws.val) :
    scanMember buf pos = scanMember buf (pos + ws.val.length) := by
  unfold scanMember
  rw [skipWs_blanks ws h]

/-- One member is read, unless it ends where no `int` does. -/
theorem scanMember_text (h : Placed buf pos (m.text ++ c :: text))
    (hc : c = commaByte ∨ c = closeBrace) :
    scanMember buf pos
      = (asInt (memberValueEnd pos m)).map fun r =>
          { keyStart := pos + m.before.val.length + 1,
            keyStrLen := (Str.text m.key).length,
            valueStart := memberValueStart pos m,
            valueEnd := r,
            isStr := m.value.value.isString } := by
  obtain ⟨hhead, hvalue, hafter⟩ := member_parts h
  have hends : EndsToken buf (memberValueEnd pos m) :=
    endsToken_of_placed hafter (by
      rcases hc with rfl | rfl
      · exact .inl rfl
      · exact .inr (.inl rfl))
  have hkey : skipWs buf pos = pos + m.before.val.length :=
    skipWs_to hhead (by decide)
  have hcolon := skipWs_to hhead.right.right (by decide)
  have hskip := skipString_bytes hhead.right.left
  have hkeyLen : (Str.bytes m.key).length = (Str.text m.key).length + 2 := by
    rw [Str.bytes]
    simp only [List.length_append, List.length_singleton]
    omega
  have hstart : memberValueStart pos m
      = pos + m.before.val.length + (Str.bytes m.key).length
          + m.afterKey.val.length + 1 + m.value.before.val.length := by
    rw [memberValueStart, Member.head]
    simp only [List.length_append, List.length_singleton, ← Nat.add_assoc]
  obtain ⟨b, rest, hbytes, hb⟩ := bytes_starts m.value.value
  have htail : Placed buf (pos + m.before.val.length
      + (Str.bytes m.key).length + m.afterKey.val.length + 1)
      (m.value.before.val ++ b :: rest) := by
    rw [← hbytes]
    exact hhead.right.right.right.tail
  have hvalueStart := skipWs_to htail hb.not_isWs
  rw [← hstart] at hvalueStart
  have hscan : scanValue buf (memberValueStart pos m)
      = (asInt (memberValueEnd pos m)).map (·, m.value.value.isString) := by
    rw [hbytes] at hvalue
    rw [scanValue, skipWs_of_not_isWs hvalue.head hb.not_isWs]
    rw [← hbytes] at hvalue
    exact scanValueAt_bytes hvalue hends
  have hlt : pos + m.before.val.length + (Str.bytes m.key).length
      < memberValueEnd pos m := by
    rw [memberValueEnd, hstart]
    omega
  simp only [scanMember, hkey, hskip]
  rcases Nat.lt_or_ge (pos + m.before.val.length + (Str.bytes m.key).length)
    (2 ^ 31) with hint | hint
  · have hinner : u32Sub (pos + m.before.val.length
        + (Str.bytes m.key).length) 1
        = pos + m.before.val.length + 1 + (Str.text m.key).length := by
      rw [u32Sub_of_le (by omega) (by omega)]
      omega
    have houter : u32Sub (pos + m.before.val.length + 1
        + (Str.text m.key).length) (pos + m.before.val.length + 1)
        = (Str.text m.key).length := by
      rw [u32Sub_of_le (by omega) (by omega), Nat.add_sub_cancel_left]
    rw [asInt_of_lt hint]
    simp only [hcolon, hhead.right.right.right.head, if_true, hvalueStart,
      hscan, Option.map_map, hinner, houter]
    rfl
  · rw [asInt_of_le hint, asInt_of_le (by omega)]
    rfl

/-- The comparison of the key, as it is written. -/
theorem key_matches (h : Placed buf pos (m.text ++ c :: text)) :
    ((Str.text m.key).length = key.length
        ∧ (buf.drop (pos + m.before.val.length + 1)).take key.length = key)
      ↔ Str.text m.key = key := by
  have hkey : Placed buf (pos + m.before.val.length + 1) (Str.text m.key) := by
    have hbytes := (member_parts h).1.right.left
    rw [Str.bytes, List.append_assoc] at hbytes
    have htext : Placed buf (pos + m.before.val.length + 1)
      (Str.text m.key ++ [quoteByte]) := hbytes.tail
    exact htext.left
  constructor
  · rintro ⟨hlen, htake⟩
    rw [← htake, ← hlen, hkey.take]
  · rintro rfl
    exact ⟨rfl, hkey.take⟩

/-- A member with the key ends the search. -/
theorem findMember_match (h : Placed buf pos (m.text ++ c :: text))
    (hc : c = commaByte ∨ c = closeBrace) (hkey : Str.text m.key = key) :
    findMember buf key pos
      = if memberValueEnd pos m < 2 ^ 31 then
          some (spanAt (memberValueStart pos m) m.value.value)
        else none := by
  have hscan := scanMember_text h hc
  split
  · rename_i hlt
    rw [asInt_of_lt hlt] at hscan
    rw [findMember_of_some hscan, if_pos ((key_matches h).mpr hkey),
      ← spanFromValue_eq _ hlt]
    rfl
  · rename_i hge
    rw [asInt_of_le (Nat.not_lt.mp hge)] at hscan
    exact findMember_of_none hscan

/-- A member that ends where no `int` does ends the search too. -/
theorem findMember_beyond (h : Placed buf pos (m.text ++ c :: text))
    (hc : c = commaByte ∨ c = closeBrace)
    (hge : 2 ^ 31 ≤ memberValueEnd pos m) : findMember buf key pos = none := by
  have hscan := scanMember_text h hc
  rw [asInt_of_le hge] at hscan
  exact findMember_of_none hscan

/-- A member with another key is passed. -/
theorem findMember_skip (h : Placed buf pos (m.text ++ c :: text))
    (hc : c = commaByte ∨ c = closeBrace) (hkey : Str.text m.key ≠ key)
    (hlt : memberValueEnd pos m < 2 ^ 31) :
    findMember buf key pos
      = if c = commaByte then findMember buf key (pos + m.text.length + 1)
        else none := by
  have hscan := scanMember_text h hc
  rw [asInt_of_lt hlt] at hscan
  have hafter := (member_parts h).2.2
  have hnext : skipWs buf (memberValueEnd pos m) = pos + m.text.length := by
    rw [skipWs_to hafter (by rcases hc with rfl | rfl <;> decide),
      memberValueEnd, memberValueStart, Member.text]
    simp only [List.length_append, ← Nat.add_assoc]
  rw [findMember_of_some hscan,
    if_neg (fun hmatch => hkey ((key_matches h).mp hmatch))]
  simp only [hnext, h.right.head, Option.some.injEq]

/-- The blanks behind the opening bracket are skipped. -/
theorem findMember_blanks (ws : Blanks) (h : Placed buf pos ws.val) :
    findMember buf key pos = findMember buf key (pos + ws.val.length) := by
  have hscan := scanMember_blanks ws h
  cases hm : scanMember buf (pos + ws.val.length) with
  | none => rw [findMember_of_none hm, findMember_of_none (hscan.trans hm)]
  | some m => rw [findMember_of_some hm, findMember_of_some (hscan.trans hm)]

theorem memberValueEnd_le (pos : Nat) (x : Member Value) :
    memberValueEnd pos x ≤ pos + x.text.length := by
  rw [memberValueEnd, memberValueStart, Member.text]
  simp only [List.length_append]
  omega

/-- The loop finds the first member with the key, if its value ends where
an `int` does. -/
theorem findMember_present {xs ys : List (Member Value)}
    (h : Placed buf pos
      (commaSeparated ((xs ++ m :: ys).map Member.text) ++ [closeBrace]))
    (hxs : ∀ x ∈ xs, Str.text x.key ≠ key) (hkey : Str.text m.key = key) :
    findMember buf key pos
      = let p := pos + (commaTerminated (xs.map Member.text)).length
        if memberValueEnd p m < 2 ^ 31 then
          some (spanAt (memberValueStart p m) m.value.value)
        else none := by
  induction xs generalizing pos with
  | nil =>
      rw [List.nil_append, List.map_cons] at h
      cases ys with
      | nil =>
          rw [List.map_nil, commaSeparated_singleton] at h
          exact findMember_match h (.inr rfl) hkey
      | cons y ys =>
          rw [List.map_cons, commaSeparated_cons, List.append_assoc] at h
          exact findMember_match h (.inl rfl) hkey
  | cons x xs ih =>
      obtain ⟨hx, hxs⟩ := List.forall_mem_cons.mp hxs
      obtain ⟨y, rest, hrest⟩ := List.exists_cons_of_ne_nil
        (List.append_ne_nil_of_right_ne_nil xs (List.cons_ne_nil m ys))
      rw [List.cons_append, hrest, List.map_cons, List.map_cons,
        commaSeparated_cons, List.append_assoc, ← List.map_cons,
        ← hrest] at h
      have hnext := ih h.right.tail hxs
      have hlen : pos + x.text.length + 1
          + (commaTerminated (xs.map Member.text)).length
          = pos + (commaTerminated ((x :: xs).map Member.text)).length := by
        rw [List.map_cons, length_commaTerminated_cons]
        omega
      rw [hlen] at hnext
      rcases Nat.lt_or_ge (memberValueEnd pos x) (2 ^ 31) with hlt | hge
      · rw [findMember_skip h (.inl rfl) hx hlt, if_pos rfl, hnext]
      · -- a member behind one that ends too far ends too far itself
        have hle := memberValueEnd_le pos x
        rw [findMember_beyond h (.inl rfl) hge]
        refine (if_neg ?_).symm
        rw [← hlen, memberValueEnd, memberValueStart]
        omega

/-- Where no member has the key the loop finds none. -/
theorem findMember_absent {ms : List (Member Value)}
    (h : Placed buf pos (commaSeparated (ms.map Member.text) ++ [closeBrace]))
    (hms : ∀ x ∈ ms, Str.text x.key ≠ key) : findMember buf key pos = none := by
  induction ms generalizing pos with
  | nil =>
      refine findMember_of_none ?_
      have hfirst : buf[pos]? = some closeBrace := h.head
      rw [scanMember, skipWs_of_not_isWs hfirst (by decide), skipString,
        hfirst]
      rfl
  | cons x xs ih =>
      obtain ⟨hx, hxs⟩ := List.forall_mem_cons.mp hms
      rw [List.map_cons] at h
      cases xs with
      | nil =>
          rw [List.map_nil, commaSeparated_singleton] at h
          rcases Nat.lt_or_ge (memberValueEnd pos x) (2 ^ 31) with hlt | hge
          · rw [findMember_skip h (.inr rfl) hx hlt, if_neg (by decide)]
          · exact findMember_beyond h (.inr rfl) hge
      | cons y ys =>
          rw [List.map_cons, commaSeparated_cons, List.append_assoc] at h
          rcases Nat.lt_or_ge (memberValueEnd pos x) (2 ^ 31) with hlt | hge
          · rw [findMember_skip h (.inl rfl) hx hlt, if_pos rfl]
            exact ih h.right.tail hxs
          · exact findMember_beyond h (.inl rfl) hge

end Object

-- ================================================================= arrays

section Array

variable {e : Padded Value} {c : UInt8} {count index i : Nat}

/-- Where the value of an element at `pos` starts, and where it ends. -/
def elementStart (pos : Nat) (e : Padded Value) : Nat :=
  pos + e.before.val.length

def elementEnd (pos : Nat) (e : Padded Value) : Nat :=
  elementStart pos e + e.value.bytes.length

theorem elementEnd_le (pos : Nat) (e : Padded Value) :
    elementEnd pos e ≤ pos + e.text.length := by
  rw [elementEnd, elementStart, Padded.text]
  simp only [List.length_append]
  omega

/-- What both loops over an array see of an element's text: where the
value starts, that it is no closing bracket, where the value ends, and the
byte behind it. -/
theorem element_scan (h : Placed buf pos (e.text ++ c :: text))
    (hc : c = commaByte ∨ c = closeBracket) :
    skipWs buf pos = elementStart pos e
      ∧ buf[elementStart pos e]? ≠ some closeBracket
      ∧ scanValue buf (elementStart pos e)
        = (asInt (elementEnd pos e)).map (·, e.value.isString)
      ∧ skipWs buf (elementEnd pos e) = pos + e.text.length
      ∧ buf[pos + e.text.length]? = some c := by
  obtain ⟨b, rest, hbytes, hb⟩ := bytes_starts e.value
  have hsplit : e.text ++ c :: text
      = (e.before.val ++ e.value.bytes) ++ (e.after.val ++ c :: text) := by
    rw [Padded.text]
    simp only [List.append_assoc]
  have hlast := h.right.head
  rw [hsplit] at h
  have hvalue : Placed buf (elementStart pos e) e.value.bytes := h.left.right
  have hafter : Placed buf (elementEnd pos e) (e.after.val ++ c :: text) := by
    have hright := h.right
    rw [List.length_append, ← Nat.add_assoc] at hright
    exact hright
  have hends : EndsToken buf (elementEnd pos e) :=
    endsToken_of_placed hafter (by
      rcases hc with rfl | rfl
      · exact .inl rfl
      · exact .inr (.inr rfl))
  have hfirst : buf[elementStart pos e]? = some b := by
    rw [hbytes] at hvalue
    exact hvalue.head
  have hskip : skipWs buf pos = elementStart pos e := by
    have hleft := h.left
    rw [hbytes] at hleft
    exact skipWs_to hleft hb.not_isWs
  refine ⟨hskip, ?_, ?_, ?_, hlast⟩
  · rw [hfirst]
    exact fun heq => hb.ne_closeBracket (Option.some.inj heq)
  · rw [scanValue, skipWs_of_not_isWs hfirst hb.not_isWs]
    exact scanValueAt_bytes hvalue hends
  · rw [skipWs_to hafter (by rcases hc with rfl | rfl <;> decide),
      elementEnd, elementStart, Padded.text]
    simp only [List.length_append, ← Nat.add_assoc]

theorem countElements_of_close
    (h : buf[skipWs buf pos]? = some closeBracket) :
    countElements buf pos count = some count := by
  rw [countElements]
  simp only [if_pos h]

theorem getElement_of_close (h : buf[skipWs buf pos]? = some closeBracket) :
    getElement buf index pos i = none := by
  rw [getElement]
  simp only [if_pos h]

theorem countElements_of_not_close
    (h : buf[skipWs buf pos]? ≠ some closeBracket) :
    countElements buf pos count
      = (scanValue buf (skipWs buf pos)).bind fun r =>
          if buf[skipWs buf r.1]? = some commaByte then
            countElements buf (skipWs buf r.1 + 1) (count + 1)
          else if buf[skipWs buf r.1]? = some closeBracket then
            some (count + 1)
          else none := by
  rw [countElements]
  simp only [if_neg h]
  split
  · rename_i hnone
    rw [hnone]
    rfl
  · rename_i hsome
    rw [hsome]
    rfl

theorem getElement_of_not_close
    (h : buf[skipWs buf pos]? ≠ some closeBracket) :
    getElement buf index pos i
      = (scanValue buf (skipWs buf pos)).bind fun r =>
          if i = index then some (spanFromValue (skipWs buf pos) r.1 r.2)
          else if buf[skipWs buf r.1]? = some commaByte then
            getElement buf index (skipWs buf r.1 + 1) (i + 1)
          else none := by
  rw [getElement]
  simp only [if_neg h]
  split
  · rename_i hnone
    rw [hnone]
    rfl
  · rename_i hsome
    rw [hsome]
    rfl

/-- One turn of `json_array_count`. -/
theorem countElements_step (h : Placed buf pos (e.text ++ c :: text))
    (hc : c = commaByte ∨ c = closeBracket) :
    countElements buf pos count
      = if elementEnd pos e < 2 ^ 31 then
          if c = commaByte then
            countElements buf (pos + e.text.length + 1) (count + 1)
          else some (count + 1)
        else none := by
  obtain ⟨hskip, hne, hscan, hnext, hlast⟩ := element_scan h hc
  rw [← hskip] at hne hscan
  rw [countElements_of_not_close hne, hscan]
  split
  · rename_i hlt
    rw [asInt_of_lt hlt]
    simp only [Option.map_some, Option.bind_some, hnext, hlast]
    rcases hc with rfl | rfl
    · rfl
    · rfl
  · rename_i hge
    rw [asInt_of_le (Nat.not_lt.mp hge)]
    rfl

/-- One turn of `json_array_get`. -/
theorem getElement_step (h : Placed buf pos (e.text ++ c :: text))
    (hc : c = commaByte ∨ c = closeBracket) :
    getElement buf index pos i
      = if elementEnd pos e < 2 ^ 31 then
          if i = index then some (spanAt (elementStart pos e) e.value)
          else if c = commaByte then
            getElement buf index (pos + e.text.length + 1) (i + 1)
          else none
        else none := by
  obtain ⟨hskip, hne, hscan, hnext, hlast⟩ := element_scan h hc
  rw [← hskip] at hne hscan
  rw [getElement_of_not_close hne, hscan]
  by_cases hlt : elementEnd pos e < 2 ^ 31
  · rw [asInt_of_lt hlt, if_pos hlt]
    simp only [Option.map_some, Option.bind_some, hnext, hlast, hskip,
      Option.some.injEq]
    rw [elementEnd, spanFromValue_eq _ hlt]
  · rw [asInt_of_le (Nat.not_lt.mp hlt), if_neg hlt]
    rfl

/-- The blanks behind the opening bracket are skipped. -/
theorem countElements_blanks (ws : Blanks) (h : Placed buf pos ws.val) :
    countElements buf pos count
      = countElements buf (pos + ws.val.length) count := by
  have hskip := skipWs_blanks ws h
  by_cases hclose : buf[skipWs buf pos]? = some closeBracket
  · rw [countElements_of_close hclose]
    rw [hskip] at hclose
    rw [countElements_of_close hclose]
  · rw [countElements_of_not_close hclose]
    rw [hskip] at hclose ⊢
    rw [countElements_of_not_close hclose]

theorem getElement_blanks (ws : Blanks) (h : Placed buf pos ws.val) :
    getElement buf index pos i
      = getElement buf index (pos + ws.val.length) i := by
  have hskip := skipWs_blanks ws h
  by_cases hclose : buf[skipWs buf pos]? = some closeBracket
  · rw [getElement_of_close hclose]
    rw [hskip] at hclose
    rw [getElement_of_close hclose]
  · rw [getElement_of_not_close hclose]
    rw [hskip] at hclose ⊢
    rw [getElement_of_not_close hclose]

/-- The loop counts the elements, if the last one ends where an `int`
does. -/
theorem countElements_text {es : List (Padded Value)}
    (h : Placed buf pos
      (commaSeparated ((es ++ [e]).map Padded.text) ++ [closeBracket])) :
    countElements buf pos count
      = let p := pos + (commaTerminated (es.map Padded.text)).length
        if elementEnd p e < 2 ^ 31 then some (count + es.length + 1)
        else none := by
  induction es generalizing pos count with
  | nil =>
      rw [List.nil_append, List.map_singleton, commaSeparated_singleton] at h
      exact countElements_step h (.inr rfl)
  | cons x es ih =>
      obtain ⟨y, rest, hrest⟩ := List.exists_cons_of_ne_nil
        (List.append_ne_nil_of_right_ne_nil es (List.cons_ne_nil e []))
      rw [List.cons_append, hrest, List.map_cons, List.map_cons,
        commaSeparated_cons, List.append_assoc, ← List.map_cons,
        ← hrest] at h
      have hlen : pos + x.text.length + 1
          + (commaTerminated (es.map Padded.text)).length
          = pos + (commaTerminated ((x :: es).map Padded.text)).length := by
        rw [List.map_cons, length_commaTerminated_cons]
        omega
      have hnext : countElements buf (pos + x.text.length + 1) (count + 1)
          = _ := ih h.right.tail
      rw [hlen] at hnext
      rw [countElements_step h (.inl rfl), if_pos rfl, hnext,
        List.length_cons, show count + 1 + es.length + 1
          = count + (es.length + 1) + 1 by omega]
      split
      · rfl
      · -- an element behind one that ends too far ends too far itself
        have hle := elementEnd_le pos x
        refine (if_neg ?_).symm
        rw [← hlen, elementEnd, elementStart]
        omega

/-- The loop gets an element, if it ends where an `int` does. -/
theorem getElement_text {xs ys : List (Padded Value)}
    (h : Placed buf pos
      (commaSeparated ((xs ++ e :: ys).map Padded.text) ++ [closeBracket]))
    (hi : i + xs.length = index) :
    getElement buf index pos i
      = let p := pos + (commaTerminated (xs.map Padded.text)).length
        if elementEnd p e < 2 ^ 31 then
          some (spanAt (elementStart p e) e.value)
        else none := by
  induction xs generalizing pos i with
  | nil =>
      rw [List.nil_append, List.map_cons] at h
      cases ys with
      | nil =>
          rw [List.map_nil, commaSeparated_singleton] at h
          rw [getElement_step h (.inr rfl), if_pos (show i = index from hi)]
          rfl
      | cons y ys =>
          rw [List.map_cons, commaSeparated_cons, List.append_assoc] at h
          rw [getElement_step h (.inl rfl), if_pos (show i = index from hi)]
          rfl
  | cons x xs ih =>
      obtain ⟨y, rest, hrest⟩ := List.exists_cons_of_ne_nil
        (List.append_ne_nil_of_right_ne_nil xs (List.cons_ne_nil e ys))
      rw [List.cons_append, hrest, List.map_cons, List.map_cons,
        commaSeparated_cons, List.append_assoc, ← List.map_cons,
        ← hrest] at h
      have hlen : pos + x.text.length + 1
          + (commaTerminated (xs.map Padded.text)).length
          = pos + (commaTerminated ((x :: xs).map Padded.text)).length := by
        rw [List.map_cons, length_commaTerminated_cons]
        omega
      rw [List.length_cons] at hi
      have hne : i ≠ index := by omega
      have hnext := ih (i := i + 1) h.right.tail (by omega)
      rw [hlen] at hnext
      rw [getElement_step h (.inl rfl), if_neg hne, if_pos rfl, hnext]
      split
      · rfl
      · have hle := elementEnd_le pos x
        refine (if_neg ?_).symm
        rw [← hlen, elementEnd, elementStart]
        omega

/-- Behind the last element there is none. -/
theorem getElement_absent {es : List (Padded Value)}
    (h : Placed buf pos
      (commaSeparated (es.map Padded.text) ++ [closeBracket]))
    (hi : i + es.length ≤ index) : getElement buf index pos i = none := by
  induction es generalizing pos i with
  | nil =>
      have hfirst : buf[pos]? = some closeBracket := h.head
      refine getElement_of_close ?_
      rw [skipWs_of_not_isWs hfirst (by decide), hfirst]
  | cons x es ih =>
      rw [List.length_cons] at hi
      have hne : i ≠ index := by omega
      rw [List.map_cons] at h
      cases es with
      | nil =>
          rw [List.map_nil, commaSeparated_singleton] at h
          have hend : ¬ (closeBracket = commaByte) := by decide
          rw [getElement_step h (.inr rfl), if_neg hne, if_neg hend, ite_self]
      | cons y ys =>
          rw [List.map_cons, commaSeparated_cons, List.append_assoc] at h
          rw [getElement_step h (.inl rfl), if_neg hne, if_pos rfl,
            ih h.right.tail (by omega), ite_self]

end Array

-- ================================================================ strings

section Decode

variable {outCap i : Nat} {out : List UInt8}

theorem decodeEscape_letter (e : Escape) :
    decodeEscape e.letter = some e.meaning := by
  cases e <;> rfl

theorem decodeFrom_raw {b : UInt8} (h : buf[i]? = some b)
    (hb : b ≠ backslashByte) (hroom : out.length < outCap) :
    decodeFrom buf outCap i out = decodeFrom buf outCap (i + 1) (out ++ [b]) := by
  obtain ⟨hlt, rfl⟩ := List.getElem?_eq_some_iff.mp h
  rw [decodeFrom, dif_pos hlt]
  simp only [if_neg hb, if_neg (Nat.not_le.mpr hroom)]

theorem decodeFrom_escape {e : Escape} (h : buf[i]? = some backslashByte)
    (h₁ : buf[i + 1]? = some e.letter) (hroom : out.length < outCap) :
    decodeFrom buf outCap i out
      = decodeFrom buf outCap (i + 2) (out ++ [e.meaning]) := by
  obtain ⟨hlt, hb⟩ := List.getElem?_eq_some_iff.mp h
  rw [decodeFrom, dif_pos hlt]
  simp only [if_pos hb, h₁, if_neg (Escape.letter_ne_u e),
    decodeEscape_letter, if_neg (Nat.not_le.mpr hroom)]

theorem decodeFrom_piece {p : Piece} {b : UInt8} (h : Placed buf i p.text)
    (hb : p.meaning = some b) (hroom : out.length < outCap) :
    decodeFrom buf outCap i out
      = decodeFrom buf outCap (i + p.text.length) (out ++ [b]) := by
  cases p with
  | raw c ok =>
      cases hb
      exact decodeFrom_raw h.head ok.2.1 hroom
  | escape e =>
      cases hb
      exact decodeFrom_escape h.head h.tail.head hroom
  | unicode => cases hb

/-- A string's text is decoded to what it means, where that fits. -/
theorem decodeFrom_text {s : Str} {m : List UInt8}
    (h : Placed buf i (Str.text s))
    (hend : buf.length = i + (Str.text s).length)
    (hm : Str.meaning s = some m) (hroom : out.length + m.length < outCap) :
    decodeFrom buf outCap i out
      = ⟨out ++ m ++ [0], asInt (out.length + m.length)⟩ := by
  induction s generalizing i out m with
  | nil =>
      cases hm
      have hlen : ¬ i < buf.length := by
        rw [hend]
        exact Nat.lt_irrefl i
      have hfits : ¬ out.length ≥ outCap := Nat.not_le.mpr hroom
      rw [decodeFrom, dif_neg hlen, if_neg hfits]
      simp only [List.reverse_nil, List.append_nil, List.length_nil,
        Nat.add_zero]
  | cons p s ih =>
      have htext : Str.text (p :: s) = p.text ++ Str.text s :=
        List.flatMap_cons
      rw [Str.meaning, List.mapM_cons] at hm
      obtain ⟨b, hb, hrest⟩ := Option.bind_eq_some_iff.mp hm
      obtain ⟨ms, hms, hcons⟩ := Option.bind_eq_some_iff.mp hrest
      cases hcons
      rw [htext] at h hend
      rw [List.length_append, ← Nat.add_assoc] at hend
      rw [List.length_cons] at hroom ⊢
      have hout : (out ++ [b]).length = out.length + 1 :=
        List.length_append
      rw [decodeFrom_piece h.left hb (by omega),
        ih h.right hend hms (by rw [hout]; omega), hout, List.append_assoc out,
        List.singleton_append, Nat.add_assoc, Nat.add_comm 1]

end Decode

-- ============================================================== documents

section Documents

variable {doc : Document} {blank : Blanks} {ms : List (Member Value)}
  {es : List (Padded Value)}

/-- What a document prints before the value of a member, `xs` being the
members in front of it. -/
def beforeMember (doc : Document) (blank : Blanks) (xs : List (Member Value))
    (m : Member Value) : List UInt8 :=
  doc.before.val ++ [openBrace] ++ blank.val
    ++ commaTerminated (xs.map Member.text) ++ m.head

/-- What a document prints before the value of an element. -/
def beforeElement (doc : Document) (blank : Blanks)
    (xs : List (Padded Value)) (e : Padded Value) : List UInt8 :=
  doc.before.val ++ [openBracket] ++ blank.val
    ++ commaTerminated (xs.map Padded.text) ++ e.before.val

/-- A value that stands behind `before` ends at an offset that an `int`
holds. -/
def EndsInInt (before : List UInt8) (v : Value) : Prop :=
  (before ++ v.bytes).length < 2 ^ 31

/-- `json_object_find` on a document is right about a key: the first
member whose key is written so gives the span of its value, which is read
as the value's text, and where there is none nothing is found. -/
def FindsKey (doc : Document) (blank : Blanks) (ms : List (Member Value))
    (key : List UInt8) : Prop :=
  (∀ xs m ys, ms = xs ++ m :: ys → (∀ x ∈ xs, Str.text x.key ≠ key) →
    Str.text m.key = key →
      let span := spanAt (beforeMember doc blank xs m).length m.value.value
      jsonObjectFind doc.text key = some span
        ∧ span.read doc.text = m.value.value.content)
  ∧ ((∀ x ∈ ms, Str.text x.key ≠ key) → jsonObjectFind doc.text key = none)

/-- `json_array_get` on a document is right about an index. -/
def GetsElement (doc : Document) (blank : Blanks) (es : List (Padded Value))
    (index : Nat) : Prop :=
  (∀ xs e ys, es = xs ++ e :: ys → xs.length = index →
    let span := spanAt (beforeElement doc blank xs e).length e.value
    jsonArrayGet doc.text index = some span
      ∧ span.read doc.text = e.value.content)
  ∧ (es.length ≤ index → jsonArrayGet doc.text index = none)

theorem object_placed (hdoc : doc.value = .object blank ms) :
    Placed doc.text 0 (doc.before.val ++ openBrace :: (blank.val
      ++ (commaSeparated (ms.map Member.text) ++ [closeBrace]))) := by
  have hsplit : doc.text = [] ++ ((doc.before.val ++ openBrace :: (blank.val
      ++ (commaSeparated (ms.map Member.text) ++ [closeBrace])))
        ++ doc.after.val) := by
    rw [Padded.text, hdoc, bytes_object]
    simp only [List.append_assoc, List.cons_append, List.nil_append]
  rw [hsplit]
  exact placed_length [] _ _

theorem array_placed (hdoc : doc.value = .array blank es) :
    Placed doc.text 0 (doc.before.val ++ openBracket :: (blank.val
      ++ (commaSeparated (es.map Padded.text) ++ [closeBracket]))) := by
  have hsplit : doc.text = [] ++ ((doc.before.val ++ openBracket :: (blank.val
      ++ (commaSeparated (es.map Padded.text) ++ [closeBracket])))
        ++ doc.after.val) := by
    rw [Padded.text, hdoc, bytes_array]
    simp only [List.append_assoc, List.cons_append, List.nil_append]
  rw [hsplit]
  exact placed_length [] _ _

/-- The search begins behind the opening brace and its blanks. -/
theorem jsonObjectFind_doc (hdoc : doc.value = .object blank ms)
    (key : List UInt8) :
    jsonObjectFind doc.text key
      = findMember doc.text key
          (doc.before.val ++ [openBrace] ++ blank.val).length := by
  have h := object_placed hdoc
  have hopen := skipWs_to h (by decide)
  simp only [jsonObjectFind, hopen, h.right.head, if_true]
  rw [findMember_blanks blank h.right.tail.left]
  simp only [List.length_append, List.length_singleton, Nat.zero_add]

theorem arrayOpen_doc (hdoc : doc.value = .array blank es) :
    arrayOpen doc.text = some (doc.before.val.length + 1) := by
  have h := array_placed hdoc
  have hopen := skipWs_to h (by decide)
  have hbracket := h.right.head
  rw [Nat.zero_add] at hopen hbracket
  simp only [arrayOpen, hopen, hbracket, if_true]

/-- What stands in an array, from its first element on. -/
theorem elements_placed (hdoc : doc.value = .array blank es) :
    Placed doc.text (doc.before.val ++ [openBracket] ++ blank.val).length
      (commaSeparated (es.map Padded.text) ++ [closeBracket]) := by
  have h := (array_placed hdoc).right.tail.right
  rw [Nat.zero_add] at h
  simpa only [List.length_append, List.length_singleton] using h

theorem members_placed (hdoc : doc.value = .object blank ms) :
    Placed doc.text (doc.before.val ++ [openBrace] ++ blank.val).length
      (commaSeparated (ms.map Member.text) ++ [closeBrace]) := by
  have h := (object_placed hdoc).right.tail.right
  rw [Nat.zero_add] at h
  simpa only [List.length_append, List.length_singleton] using h

theorem jsonArrayCount_doc (hdoc : doc.value = .array blank es) :
    jsonArrayCount doc.text
      = countElements doc.text
          (doc.before.val ++ [openBracket] ++ blank.val).length 0 := by
  have hblank := (array_placed hdoc).right.tail.left
  rw [Nat.zero_add] at hblank
  rw [jsonArrayCount, arrayOpen_doc hdoc, Option.bind_some,
    countElements_blanks blank hblank]
  simp only [List.length_append, List.length_singleton]

theorem jsonArrayGet_doc (hdoc : doc.value = .array blank es) (index : Nat) :
    jsonArrayGet doc.text index
      = getElement doc.text index
          (doc.before.val ++ [openBracket] ++ blank.val).length 0 := by
  have hblank := (array_placed hdoc).right.tail.left
  rw [Nat.zero_add] at hblank
  rw [jsonArrayGet, arrayOpen_doc hdoc, Option.bind_some,
    getElement_blanks blank hblank]
  simp only [List.length_append, List.length_singleton]

theorem placed_first {t : List UInt8} {ts : List (List UInt8)}
    (h : Placed buf pos (commaSeparated (t :: ts))) : Placed buf pos t := by
  cases ts with
  | nil => rwa [commaSeparated_singleton] at h
  | cons u us =>
      rw [commaSeparated_cons] at h
      exact h.left

/-- A member's value stands where the document prints it. -/
theorem member_placed {xs ys : List (Member Value)} {m : Member Value}
    (hdoc : doc.value = .object blank (xs ++ m :: ys)) :
    Placed doc.text (beforeMember doc blank xs m).length
      m.value.value.bytes := by
  have h := (members_placed hdoc).left
  rw [List.map_append, List.map_cons, commaSeparated_append] at h
  have hvalue := (placed_first h.right).left.right
  simpa only [beforeMember, List.length_append, Nat.add_assoc] using hvalue

theorem element_placed {xs ys : List (Padded Value)} {e : Padded Value}
    (hdoc : doc.value = .array blank (xs ++ e :: ys)) :
    Placed doc.text (beforeElement doc blank xs e).length e.value.bytes := by
  have h := (elements_placed hdoc).left
  rw [List.map_append, List.map_cons, commaSeparated_append] at h
  have hvalue := (placed_first h.right).left.right
  simpa only [beforeElement, List.length_append, Nat.add_assoc] using hvalue

/-- Finding a key is right as far as an `int` reaches. -/
theorem findsKey_iff (hdoc : doc.value = .object blank ms) :
    FindsKey doc blank ms key
      ↔ ∀ xs m ys, ms = xs ++ m :: ys → (∀ x ∈ xs, Str.text x.key ≠ key) →
          Str.text m.key = key →
            EndsInInt (beforeMember doc blank xs m) m.value.value := by
  have hplaced := members_placed hdoc
  have hfind := jsonObjectFind_doc hdoc key
  constructor
  · rintro ⟨hfinds, -⟩ xs m ys rfl hxs hkey
    have hloop := findMember_present hplaced hxs hkey
    have hsome := (hfinds xs m ys rfl hxs hkey).1
    rw [hfind, hloop] at hsome
    by_contra hbeyond
    rw [if_neg] at hsome
    · cases hsome
    · intro hlt
      refine hbeyond ?_
      simpa only [EndsInInt, beforeMember, memberValueEnd, memberValueStart,
        List.length_append] using hlt
  · intro hends
    refine ⟨?_, fun habsent => ?_⟩
    · rintro xs m ys rfl hxs hkey
      have hlt := hends xs m ys rfl hxs hkey
      refine ⟨?_, read_spanAt (member_placed hdoc)⟩
      rw [hfind, findMember_present hplaced hxs hkey]
      simp only [EndsInInt, beforeMember, memberValueEnd, memberValueStart,
        List.length_append] at hlt ⊢
      rw [if_pos hlt]
    · rw [hfind]
      exact findMember_absent hplaced habsent

/-- Counting is right as far as an `int` reaches. -/
theorem count_iff (hdoc : doc.value = .array blank es) :
    jsonArrayCount doc.text = some es.length
      ↔ ∀ xs e, es = xs ++ [e] →
          EndsInInt (beforeElement doc blank xs e) e.value := by
  have hplaced := elements_placed hdoc
  have hcount := jsonArrayCount_doc hdoc
  rcases List.eq_nil_or_concat' es with rfl | ⟨xs, e, rfl⟩
  · have hfirst : doc.text[_]? = some closeBracket := hplaced.head
    refine ⟨fun _ xs e h => ?_, fun _ => ?_⟩
    · exact absurd h.symm
        (List.append_ne_nil_of_right_ne_nil xs (List.cons_ne_nil e []))
    · rw [hcount, countElements_of_close]
      · rfl
      · rw [skipWs_of_not_isWs hfirst (by decide), hfirst]
  · have hlen : (xs ++ [e]).length = 0 + xs.length + 1 := by
      rw [List.length_append, List.length_singleton, Nat.zero_add]
    have hends : EndsInInt (beforeElement doc blank xs e) e.value
        ↔ elementEnd ((doc.before.val ++ [openBracket] ++ blank.val).length
          + (commaTerminated (xs.map Padded.text)).length) e < 2 ^ 31 := by
      simp only [EndsInInt, beforeElement, elementEnd, elementStart,
        List.length_append]
    rw [hcount, countElements_text hplaced, hlen]
    constructor
    · intro hsome xs' e' heq
      obtain ⟨rfl, hlast⟩ := List.append_inj' heq rfl
      cases hlast
      by_contra hbeyond
      rw [hends] at hbeyond
      rw [if_neg hbeyond] at hsome
      cases hsome
    · intro hall
      exact if_pos (hends.mp (hall xs e rfl))

/-- Getting an element is right as far as an `int` reaches. -/
theorem getsElement_iff (hdoc : doc.value = .array blank es) (index : Nat) :
    GetsElement doc blank es index
      ↔ ∀ xs e ys, es = xs ++ e :: ys → xs.length = index →
          EndsInInt (beforeElement doc blank xs e) e.value := by
  have hplaced := elements_placed hdoc
  have hget := jsonArrayGet_doc hdoc index
  have hends : ∀ xs e, EndsInInt (beforeElement doc blank xs e) e.value
      ↔ elementEnd ((doc.before.val ++ [openBracket] ++ blank.val).length
        + (commaTerminated (xs.map Padded.text)).length) e < 2 ^ 31 := by
    intro xs e
    simp only [EndsInInt, beforeElement, elementEnd, elementStart,
      List.length_append]
  constructor
  · rintro ⟨hgets, -⟩ xs e ys rfl hindex
    have hsome := (hgets xs e ys rfl hindex).1
    rw [hget, getElement_text hplaced (by rw [Nat.zero_add, hindex])] at hsome
    by_contra hbeyond
    rw [hends] at hbeyond
    rw [if_neg hbeyond] at hsome
    cases hsome
  · intro hall
    refine ⟨?_, fun habove => ?_⟩
    · rintro xs e ys rfl hindex
      have hlt := (hends xs e).mp (hall xs e ys rfl hindex)
      refine ⟨?_, read_spanAt (element_placed hdoc)⟩
      rw [hget, getElement_text hplaced (by rw [Nat.zero_add, hindex])]
      refine (if_pos hlt).trans ?_
      simp only [elementStart, beforeElement, List.length_append]
    · rw [hget]
      exact getElement_absent hplaced (by rw [Nat.zero_add]; exact habove)

/-- Decoding is right as far as an `int` reaches. -/
theorem decode_iff {s : Str} {m : List UInt8} {outCap : Nat}
    (hm : Str.meaning s = some m) (hroom : m.length < outCap) :
    jsonDecodeString (Str.text s) outCap = ⟨m ++ [0], some m.length⟩
      ↔ m.length < 2 ^ 31 := by
  have hplaced : Placed (Str.text s) 0 (Str.text s) := List.prefix_refl _
  have hdecode : decodeFrom (Str.text s) outCap 0 [] = _ :=
    decodeFrom_text hplaced (Nat.zero_add _).symm hm
      (by rw [List.length_nil, Nat.zero_add]; exact hroom)
  rw [List.nil_append, List.length_nil, Nat.zero_add] at hdecode
  rw [jsonDecodeString, hdecode, Decoded.mk.injEq, asInt_eq_some]
  exact ⟨fun h => h.2.1, fun h => ⟨rfl, h, rfl⟩⟩

/-- The lookups on a document and the decoding of a string, each right
exactly where what it looks for ends at an offset that an `int` holds. -/
theorem lookup_iff (doc : Document) :
    (∀ blank ms key, doc.value = .object blank ms →
      (FindsKey doc blank ms key
        ↔ ∀ xs m ys, ms = xs ++ m :: ys →
            (∀ x ∈ xs, Str.text x.key ≠ key) → Str.text m.key = key →
              EndsInInt (beforeMember doc blank xs m) m.value.value))
    ∧ (∀ blank es, doc.value = .array blank es →
      (jsonArrayCount doc.text = some es.length
        ↔ ∀ xs e, es = xs ++ [e] →
            EndsInInt (beforeElement doc blank xs e) e.value)
      ∧ ∀ index, GetsElement doc blank es index
        ↔ ∀ xs e ys, es = xs ++ e :: ys → xs.length = index →
            EndsInInt (beforeElement doc blank xs e) e.value)
    ∧ ∀ (s : Str) (m : List UInt8) (outCap : Nat), Str.meaning s = some m →
      m.length < outCap →
        (jsonDecodeString (Str.text s) outCap = ⟨m ++ [0], some m.length⟩
          ↔ m.length < 2 ^ 31) :=
  ⟨fun _ _ _ hdoc => findsKey_iff hdoc,
    fun _ _ hdoc => ⟨count_iff hdoc, getsElement_iff hdoc⟩,
    fun _ _ _ hm hroom => decode_iff hm hroom⟩

-- =========================================== a value that ends too far out

def noBlanks : Blanks := ⟨[], List.forall_mem_nil _⟩

/-- A string of `n` times the letter `x`. -/
def longString (n : Nat) : Str := List.replicate n (.raw 0x78 (by decide))

/-- The member `"a"` with the long string. -/
def longMember (n : Nat) : Member Value :=
  ⟨noBlanks, [.raw 0x61 (by decide)], noBlanks,
    ⟨noBlanks, .string (longString n), noBlanks⟩⟩

/-- An object with the one member. -/
def longDocument (n : Nat) : Document :=
  ⟨noBlanks, .object noBlanks [longMember n], noBlanks⟩

theorem length_longString (n : Nat) :
    (Str.bytes (longString n)).length = n + 2 := by
  have htext : (Str.text (longString n)).length = n := by
    induction n with
    | zero => rfl
    | succ n ih =>
        rw [longString, List.replicate_succ, Str.text, List.flatMap_cons,
          List.length_append]
        exact (congrArg (1 + ·) ih).trans (Nat.add_comm 1 n)
  rw [Str.bytes]
  simp only [List.length_append, List.length_singleton, htext]
  omega

theorem length_longDocument (n : Nat) : (longDocument n).text.length = n + 8 := by
  have hbytes : (longMember n).value.value.bytes
      = Str.bytes (longString n) := rfl
  have hhead : (longMember n).head.length = 4 := rfl
  have hafter : (longMember n).value.after.val.length = 0 := rfl
  have hmember : (longMember n).text.length = n + 6 := by
    rw [Member.text, hbytes]
    simp only [List.length_append, length_longString, hhead, hafter]
    omega
  rw [Padded.text, longDocument, bytes_object, List.map_singleton,
    commaSeparated_singleton]
  simp only [List.length_append, List.length_singleton, hmember, noBlanks,
    List.length_nil]
  omega

theorem longDocument_beyond {n : Nat} (hn : 2 ^ 31 ≤ n) :
    ¬ FindsKey (longDocument n) noBlanks [longMember n] [0x61] := by
  rw [findsKey_iff rfl]
  intro hall
  have hends := hall [] (longMember n) [] rfl (List.forall_mem_nil _) rfl
  have hbytes : (longMember n).value.value.bytes
      = Str.bytes (longString n) := rfl
  rw [EndsInInt, hbytes, List.length_append, length_longString] at hends
  omega

/-- A document whose length is a `uint32_t` and whose member is not found:
the string that is its value ends behind `2 ^ 31`. -/
theorem member_not_found :
    (longDocument (2 ^ 31)).text.length < 2 ^ 32
      ∧ ¬ FindsKey (longDocument (2 ^ 31)) noBlanks [longMember (2 ^ 31)]
          [0x61] := by
  refine ⟨?_, longDocument_beyond (Nat.le_refl _)⟩
  rw [length_longDocument]
  decide

/-- `["\\", {"a":"x"}]`: an escaped backslash, and an object with the same
key further in. -/
def innerArray : Value :=
  .array noBlanks
    [⟨noBlanks, .string [.escape .backslash], noBlanks⟩,
     ⟨⟨[0x20], by simp [IsBlank.space]⟩, .object noBlanks [longMember 1],
       noBlanks⟩]

/-- The key is `q\"`. -/
def arrayMember : Member Value :=
  ⟨noBlanks, [.raw 0x71 (by decide), .escape .quote], noBlanks,
    ⟨noBlanks, innerArray, noBlanks⟩⟩

/-- `\n}`. -/
def escapedText : Str := [.escape .n, .raw 0x7D (by decide)]

/-- The key is `a`. -/
def textMember : Member Value :=
  ⟨noBlanks, [.raw 0x61 (by decide)], noBlanks,
    ⟨noBlanks, .string escapedText, noBlanks⟩⟩

def nestedDocument : Document :=
  ⟨noBlanks, .object noBlanks [arrayMember, textMember], noBlanks⟩

/-- The key in the nested object is passed over, and so are the escaped
quote and the brackets in strings; the string found decodes. -/
theorem nested_member_found :
    FindsKey nestedDocument noBlanks [arrayMember, textMember] [0x61]
      ∧ jsonDecodeString (Str.text escapedText) 8
        = ⟨[0x0A, 0x7D, 0], some 2⟩ := by
  obtain ⟨hobject, -, hdecode⟩ := lookup_iff nestedDocument
  constructor
  · apply (hobject noBlanks [arrayMember, textMember] [0x61] rfl).mpr
    intro xs m ys hsplit _ hkey
    match xs, hsplit with
    | [], hsplit =>
        cases hsplit
        cases hkey
    | [_], hsplit =>
        cases hsplit
        show (_ : List UInt8).length < 2 ^ 31
        decide
    | _ :: _ :: _, hsplit => simp at hsplit
  · exact (hdecode escapedText [0x0A, 0x7D] 8 rfl (by decide)).mpr
      (by decide)

end Documents

end Obicall
