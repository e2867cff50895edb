/-
Byte codecs, for any program that packs words into a byte buffer and
reads them back through a cursor: little-endian words, and the
judgments that turn a straight-line encoder or decoder into the byte
string it stands for.

# The judgments

`Reads rest good m bs a` says that the cursor program `m`, started on a
good cursor whose unread bytes begin with `bs`, returns `a`, leaves the
cursor good and leaves exactly what followed `bs`.
`Emits out room good m bs` is the mirror image for a writer that stops
at the end of its buffer: with room for `bs` it appends exactly `bs`,
without room it ends bad, and a bad writer stays bad. `Takes` is the
converse of `Reads`: a run that ends on a good cursor consumed bytes
that its value accounts for; `Accepts` is the same for a decoder whose
value carries the verdict; a decoder with both directions is a `Layout`,
and refuses every truncation. `Yields m P` is about what a decoder returns
on any input at all.

All are closed under sequencing (`Reads.bind`, `Emits.bind` and so on)
with the byte strings concatenated, so a codec's round trip is proved
field by field in the order the code lists the fields, with no
arithmetic on offsets. The cursor itself is a parameter (`rest`/`good`,
`out`/`room`): nothing here knows how a program represents one.
-/
import Mathlib.Data.List.Basic
import Mathlib.Data.Nat.Bitwise

namespace Lib.Codec

-- ================================================== little-endian words

/-- The bytes of a word, least significant first: byte `i` is the word
shifted right by `8 * i`, truncated. -/
def leBytes (w n : Nat) : Vector UInt8 w :=
  Vector.ofFn fun i => UInt8.ofNat (n >>> (8 * i.val))

/-- The or-loop that reassembles `w` bytes, least significant first. -/
def leFold (b : Nat → UInt8) : Nat → Nat
  | 0 => 0
  | w + 1 => leFold b w ||| (b w).toNat <<< (8 * w)

/-- The word packed in a byte vector. -/
def leNat {w : Nat} (b : Vector UInt8 w) : Nat :=
  leFold (fun i => b.getD i 0) w

/-- Bit `j` of a reassembled word is bit `j % 8` of byte `j / 8`. -/
theorem testBit_leFold (b : Nat → UInt8) (w j : Nat) :
    (leFold b w).testBit j
      = (decide (j < 8 * w) && (b (j / 8)).toNat.testBit (j % 8)) := by
  induction w with
  | zero => simp [leFold]
  | succ w ih =>
      rw [leFold, Nat.testBit_or, ih, Nat.testBit_shiftLeft]
      by_cases hlt : j < 8 * w
      · have hnot : ¬ j ≥ 8 * w := by omega
        have hlt' : j < 8 * (w + 1) := by omega
        simp [hlt, hnot, hlt']
      · by_cases hin : j < 8 * (w + 1)
        · have hdiv : j / 8 = w := by omega
          have hmod : j % 8 = j - 8 * w := by omega
          have hge : j ≥ 8 * w := by omega
          simp [hlt, hin, hge, hdiv, hmod]
        · -- past the top byte: a byte has no bit at or above 8
          have hbig : (b w).toNat.testBit (j - 8 * w) = false := by
            apply Nat.testBit_lt_two_pow
            have h8 : 2 ^ 8 ≤ 2 ^ (j - 8 * w) :=
              Nat.pow_le_pow_right (by omega) (by omega)
            have := (b w).toNat_lt
            omega
          simp [hlt, hin, hbig]

/-- Packing and reassembling keeps the low `8 * w` bits. -/
theorem leNat_leBytes (w n : Nat) : leNat (leBytes w n) = n % 2 ^ (8 * w) := by
  apply Nat.eq_of_testBit_eq
  intro j
  rw [leNat, testBit_leFold, Nat.testBit_mod_two_pow]
  by_cases hj : j < 8 * w
  · have hi : j / 8 < w := by omega
    have hbyte : (leBytes w n).getD (j / 8) 0
        = UInt8.ofNat (n >>> (8 * (j / 8))) := by
      simp [leBytes, Vector.getD, hi]
    have hsplit : 8 * (j / 8) + j % 8 = j := by omega
    have hmod : j % 8 < 8 := by omega
    rw [hbyte, UInt8.toNat_ofNat', Nat.testBit_mod_two_pow,
      Nat.testBit_shiftRight, hsplit]
    simp [hmod]
  · simp [hj]

/-- A word that fits its width survives packing and reassembling. -/
theorem leNat_leBytes_of_lt {w n : Nat} (h : n < 2 ^ (8 * w)) :
    leNat (leBytes w n) = n := by
  rw [leNat_leBytes, Nat.mod_eq_of_lt h]

theorem leNat_lt {w : Nat} (b : Vector UInt8 w) : leNat b < 2 ^ (8 * w) := by
  apply Nat.lt_pow_two_of_testBit
  intro j hj
  rw [leNat, testBit_leFold, decide_eq_false (by omega), Bool.false_and]

/-- Packing a reassembled word gives the bytes back. -/
theorem leBytes_leNat {w : Nat} (b : Vector UInt8 w) :
    leBytes w (leNat b) = b := by
  apply Vector.ext
  intro i hi
  apply UInt8.toNat_inj.mp
  apply Nat.eq_of_testBit_eq
  intro j
  rw [leBytes, Vector.getElem_ofFn, UInt8.toNat_ofNat', Nat.testBit_mod_two_pow,
    Nat.testBit_shiftRight, leNat, testBit_leFold]
  by_cases hj : j < 8
  · have hdiv : (8 * i + j) / 8 = i := by omega
    have hmod : (8 * i + j) % 8 = j := by omega
    have hin : 8 * i + j < 8 * w := by omega
    simp [hj, hdiv, hmod, hin, Vector.getD, hi]
  · have hbig : b[i].toNat.testBit j = false := by
      apply Nat.testBit_lt_two_pow
      have h8 : 2 ^ 8 ≤ 2 ^ j := Nat.pow_le_pow_right (by omega) (by omega)
      have := b[i].toNat_lt
      omega
    simp [hj, hbig]

-- ============================================================== reading

section Reads

variable {σ β α α' : Type}

/-- `m` reads exactly `bs` off a good cursor and returns `a`. -/
def Reads (rest : σ → List β) (good : σ → Prop) (m : StateM σ α)
    (bs : List β) (a : α) : Prop :=
  ∀ s tl, good s → rest s = bs ++ tl →
    (m s).1 = a ∧ good (m s).2 ∧ rest (m s).2 = tl

variable {rest : σ → List β} {good : σ → Prop}

theorem Reads.pure (a : α) :
    Reads rest good (Pure.pure a : StateM σ α) [] a := by
  intro s tl hg hr
  exact ⟨rfl, hg, hr⟩

/-- Two reads in sequence read the two byte strings in sequence. -/
theorem Reads.bind {m : StateM σ α} {f : α → StateM σ α'}
    {bs bs' : List β} {a : α} {a' : α'}
    (hm : Reads rest good m bs a) (hf : Reads rest good (f a) bs' a') :
    Reads rest good (m >>= f) (bs ++ bs') a' := by
  intro s tl hg hr
  rw [List.append_assoc] at hr
  obtain ⟨h₁, hg₁, hr₁⟩ := hm s (bs' ++ tl) hg hr
  have hstep : (m >>= f) s = f a (m s).2 := by
    show f (m s).1 (m s).2 = _
    rw [h₁]
  rw [hstep]
  exact hf (m s).2 tl hg₁ hr₁

/-- A read followed by a program that reads nothing. -/
theorem Reads.last {m : StateM σ α} {f : α → StateM σ α'}
    {bs : List β} {a : α} {a' : α'}
    (hm : Reads rest good m bs a) (hf : Reads rest good (f a) [] a') :
    Reads rest good (m >>= f) bs a' := by
  have h := hm.bind hf
  rwa [List.append_nil] at h

/-- Reading and then building a value from what was read. -/
theorem Reads.map {m : StateM σ α} {bs : List β} {a : α}
    (hm : Reads rest good m bs a) (g : α → α') :
    Reads rest good (m >>= fun x => Pure.pure (g x)) bs (g a) :=
  hm.last (Reads.pure (g a))

/-- Past a step that reads nothing. -/
theorem Reads.skip {m : StateM σ α} {f : α → StateM σ α'} {bs : List β}
    {a : α} {a' : α'} (hm : Reads rest good m [] a)
    (hf : Reads rest good (f a) bs a') : Reads rest good (m >>= f) bs a' :=
  hm.bind hf

/-- A test of the cursor that a good cursor always passes. -/
theorem Reads.test {m : StateM σ Bool} {f : Bool → StateM σ α'}
    {bs : List β} {a : α'} (hm : Reads rest good m [] true)
    (hf : Reads rest good (f true) bs a) :
    Reads rest good (m >>= f) bs a := hm.bind hf

end Reads

section Yields

variable {σ α β : Type}

/-- Whatever the cursor, what `m` returns satisfies `P`. -/
def Yields (m : StateM σ α) (P : α → Prop) : Prop := ∀ s, P (m s).1

theorem Yields.pure {a : α} {P : α → Prop} (h : P a) :
    Yields (Pure.pure a : StateM σ α) P := fun _ => h

theorem Yields.bind {m : StateM σ α} {f : α → StateM σ β}
    {P : α → Prop} {Q : β → Prop} (hm : Yields m P)
    (hf : ∀ a, P a → Yields (f a) Q) : Yields (m >>= f) Q := fun s =>
  hf (m s).1 (hm s) (m s).2

/-- Past a step about whose value nothing need be known. -/
theorem Yields.skip {m : StateM σ α} {f : α → StateM σ β} {Q : β → Prop}
    (hf : ∀ a, Yields (f a) Q) : Yields (m >>= f) Q := fun s =>
  hf (m s).1 (m s).2

end Yields

section Takes

variable {σ α α' β : Type}

/-- The converse of `Reads`: if `m` leaves a good cursor it was given
one, and the bytes it took, with its value, satisfy `R`. -/
def Takes (rest : σ → List β) (good : σ → Prop) (m : StateM σ α)
    (R : α → List β → Prop) : Prop :=
  ∀ s, good (m s).2 →
    good s ∧ ∃ bs, rest s = bs ++ rest (m s).2 ∧ R (m s).1 bs

/-- The same for a decoder whose value says whether it succeeded. -/
def Accepts (rest : σ → List β) (good : σ → Prop) (fine : α → Prop)
    (m : StateM σ α) (Q : α → List β → Prop) : Prop :=
  ∀ s, fine (m s).1 → good (m s).2 ∧ good s ∧
    ∃ bs, rest s = bs ++ rest (m s).2 ∧ Q (m s).1 bs

variable {rest : σ → List β} {good : σ → Prop} {fine : α' → Prop}

theorem Takes.pure {a : α} {R : α → List β → Prop} (h : R a []) :
    Takes rest good (Pure.pure a : StateM σ α) R := fun _ hg =>
  ⟨hg, [], rfl, h⟩

/-- Two steps in sequence take the two byte strings in sequence. -/
theorem Takes.bind {m : StateM σ α} {f : α → StateM σ α'}
    {R : α → List β → Prop} {Q : α' → List β → Prop}
    (hm : Takes rest good m R)
    (hf : ∀ a, Takes rest good (f a) fun b bs' =>
      ∀ bs, R a bs → Q b (bs ++ bs')) :
    Takes rest good (m >>= f) Q := by
  intro s hg
  obtain ⟨hg₁, bs', hr', hq⟩ := hf (m s).1 (m s).2 hg
  obtain ⟨hg₀, bs, hr, ha⟩ := hm s hg₁
  refine ⟨hg₀, bs ++ bs', ?_, hq bs ha⟩
  rw [hr, hr', List.append_assoc]
  rfl

/-- Taking bytes and building a value from what was read. -/
theorem Takes.map {m : StateM σ α} {g : α → α'} {R : α → List β → Prop}
    {Q : α' → List β → Prop} (hm : Takes rest good m R)
    (h : ∀ a bs, R a bs → Q (g a) bs) :
    Takes rest good (m >>= fun x => Pure.pure (g x)) Q :=
  hm.bind fun a => .pure fun bs ha => by
    rw [List.append_nil]
    exact h a bs ha

/-- A value that reports failure needs no justification. -/
theorem Accepts.reject {a : α'} {Q : α' → List β → Prop} (h : ¬ fine a) :
    Accepts rest good fine (Pure.pure a : StateM σ α') Q := fun _ hf =>
  absurd hf h

theorem Accepts.mono {m : StateM σ α'} {Q Q' : α' → List β → Prop}
    (hm : Accepts rest good fine m Q) (h : ∀ a bs, Q a bs → Q' a bs) :
    Accepts rest good fine m Q' := by
  intro s hfine
  obtain ⟨hg, hg₀, bs, hr, hq⟩ := hm s hfine
  exact ⟨hg, hg₀, bs, hr, h _ _ hq⟩

/-- A decoder whose first step takes `bs`. -/
theorem Accepts.bind {m : StateM σ α} {f : α → StateM σ α'}
    {R : α → List β → Prop} {Q : α' → List β → Prop}
    (hm : Takes rest good m R)
    (hf : ∀ a, Accepts rest good fine (f a) fun b bs' =>
      ∀ bs, R a bs → Q b (bs ++ bs')) :
    Accepts rest good fine (m >>= f) Q := by
  intro s hfine
  obtain ⟨hg, hg₁, bs', hr', hq⟩ := hf (m s).1 (m s).2 hfine
  obtain ⟨hg₀, bs, hr, ha⟩ := hm s hg₁
  refine ⟨hg, hg₀, bs ++ bs', ?_, hq bs ha⟩
  rw [hr, hr', List.append_assoc]
  rfl

/-- A first step that takes exactly the bytes of its value. -/
theorem Accepts.read {m : StateM σ α} {f : α → StateM σ α'}
    {enc : α → List β} {Q : α' → List β → Prop}
    (hm : Takes rest good m fun a bs => bs = enc a)
    (hf : ∀ a, Accepts rest good fine (f a) fun b bs => Q b (enc a ++ bs)) :
    Accepts rest good fine (m >>= f) Q :=
  .bind hm fun a => (hf a).mono fun _ _ hq _ h => h ▸ hq

/-- The same for a step whose value satisfies `P` besides. -/
theorem Accepts.readP {m : StateM σ α} {f : α → StateM σ α'}
    {enc : α → List β} {P : α → Prop} {Q : α' → List β → Prop}
    (hm : Takes rest good m fun a bs => bs = enc a ∧ P a)
    (hf : ∀ a, Accepts rest good fine (f a) fun b bs =>
      P a → Q b (enc a ++ bs)) :
    Accepts rest good fine (m >>= f) Q :=
  .bind hm fun a => (hf a).mono fun _ _ hq _ h => h.1 ▸ hq h.2

/-- The last step turns the flag into the verdict. -/
theorem Accepts.verdict {m : StateM σ Bool} {g : Bool → α'}
    {Q : α' → List β → Prop}
    (hm : ∀ s, (m s).2 = s ∧ ((m s).1 = true → good s))
    (hbad : ¬ fine (g false)) (hq : Q (g true) []) :
    Accepts rest good fine (m >>= fun ok => Pure.pure (g ok)) Q := by
  intro s hfine
  obtain ⟨hsame, hgood⟩ := hm s
  have hval : (m s).1 = true := by
    cases hb : (m s).1 with
    | true => rfl
    | false => exact absurd (hb ▸ hfine : fine (g false)) hbad
  have hrun : (m >>= fun ok => (Pure.pure (g ok) : StateM σ α')) s
      = (g true, s) := by
    show (g (m s).1, (m s).2) = _
    rw [hval, hsame]
  rw [hrun]
  exact ⟨hgood hval, hgood hval, [], rfl, hq⟩

end Takes

section Layout

variable {μ α β : Type} {fine : α → Prop} {dec : List β → α}
  {valid : μ → Prop} {bytes : μ → List β} {val : μ → α}

/-- A decoder with its layout: it reads the bytes of every valid value
back, whatever follows them, and accepts nothing else. -/
structure Layout (fine : α → Prop) (dec : List β → α) (valid : μ → Prop)
    (bytes : μ → List β) (val : μ → α) : Prop where
  reads : ∀ x tl, valid x → dec (bytes x ++ tl) = val x
  accepts : ∀ b, fine (dec b) → ∃ x tl, valid x ∧ b = bytes x ++ tl
  length : ∀ x y, val x = val y → (bytes x).length = (bytes y).length

/-- No layout begins with another one. -/
theorem Layout.prefix_free (h : Layout fine dec valid bytes val) {x y : μ}
    (hx : valid x) (hy : valid y) {tl : List β}
    (hcut : bytes x = bytes y ++ tl) : tl = [] := by
  have hval : val x = val y := by
    have hdx := h.reads x [] hx
    rw [List.append_nil, hcut, h.reads y tl hy] at hdx
    exact hdx.symm
  have hlen := h.length x y hval
  rw [hcut, List.length_append] at hlen
  exact List.length_eq_zero_iff.mp (by omega)

/-- Every strict prefix of a layout is refused. -/
theorem Layout.refuses_prefix (h : Layout fine dec valid bytes val)
    {x : μ} (hx : valid x) {pre suf : List β} (hcut : pre ++ suf = bytes x)
    (hsuf : suf ≠ []) : ¬ fine (dec pre) := by
  intro hfine
  obtain ⟨y, tl, hy, hpre⟩ := h.accepts pre hfine
  rw [hpre, List.append_assoc] at hcut
  have hnil := h.prefix_free hx hy hcut.symm
  exact hsuf (List.append_eq_nil_iff.mp hnil).2

end Layout

-- ============================================================== writing

section Emits

variable {σ β : Type}

/-- `m` appends exactly `bs` when the buffer has room for it and ends
bad otherwise; a bad writer stays bad. -/
structure Emits (out : σ → List β) (room : σ → Nat) (good : σ → Prop)
    (m : StateM σ Unit) (bs : List β) : Prop where
  fits : ∀ s, good s → bs.length ≤ room s →
    good (m s).2 ∧ out (m s).2 = out s ++ bs
      ∧ room (m s).2 = room s - bs.length
  full : ∀ s, good s → room s < bs.length → ¬ good (m s).2
  bad : ∀ s, ¬ good s → ¬ good (m s).2

variable {out : σ → List β} {room : σ → Nat} {good : σ → Prop}

theorem Emits.nil : Emits out room good (pure ()) [] where
  fits _ hg _ := ⟨hg, (List.append_nil _).symm, (Nat.sub_zero _).symm⟩
  full _ _ h := absurd h (Nat.not_lt_zero _)
  bad _ h := h

/-- Two writes in sequence emit the two byte strings in sequence. -/
theorem Emits.bind {m m' : StateM σ Unit} {bs bs' : List β}
    (hm : Emits out room good m bs) (hm' : Emits out room good m' bs') :
    Emits out room good (m >>= fun _ => m') (bs ++ bs') where
  fits s hg hroom := by
    rw [List.length_append] at hroom
    obtain ⟨hg₁, ho₁, hr₁⟩ := hm.fits s hg (by omega)
    obtain ⟨hg₂, ho₂, hr₂⟩ := hm'.fits (m s).2 hg₁ (by omega)
    refine ⟨hg₂, ?_, ?_⟩
    · show out (m' (m s).2).2 = _
      rw [ho₂, ho₁, List.append_assoc]
    · show room (m' (m s).2).2 = _
      rw [hr₂, hr₁, List.length_append]
      omega
  full s hg hroom := by
    rw [List.length_append] at hroom
    show ¬ good (m' (m s).2).2
    by_cases hfit : bs.length ≤ room s
    · obtain ⟨hg₁, _, hr₁⟩ := hm.fits s hg hfit
      exact hm'.full _ hg₁ (by omega)
    · exact hm'.bad _ (hm.full s hg (by omega))
  bad s hg := hm'.bad _ (hm.bad s hg)

/-- A loop of writes emits the concatenation of what each turn emits. -/
theorem Emits.forM {ι : Type} {f : ι → StateM σ Unit} {g : ι → List β}
    (hf : ∀ i, Emits out room good (f i) (g i)) (is : List ι) :
    Emits out room good (is.forM f) (is.flatMap g) := by
  induction is with
  | nil => exact Emits.nil
  | cons i is ih =>
      rw [List.flatMap_cons]
      show Emits out room good (f i >>= fun _ => is.forM f) _
      exact (hf i).bind ih

end Emits

end Lib.Codec
