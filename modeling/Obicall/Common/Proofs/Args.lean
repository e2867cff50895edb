/-
What a child reads from its command line is what was put there.

# Texts

The two hexadecimal codecs of the program are the one of `Lib.Hex`, and
`procutil_hex_decode` and the manifest's `hex_decode` take the same texts
for the same bytes, those of two digits for each (`hex_text_exact`). A
decimal fits its buffer and reads back (`strtoll_numToBuf`).

# Options

A child finds an option by its name, and every word may be a name to it.
`findArg_spell` is the side condition under which it finds the option's
own value: no value looks like an option. Numbers, hexadecimal texts and
paths below a directory never do.
-/
import Mathlib.Data.List.Basic
import Obicall.Common.Args
import Obicall.Manifest.Parse

namespace Obicall

open Lib.Options

-- ============================================================= hexadecimal

theorem hexChars_getD {n : UInt8} (h : n < 16) :
    hexChars.getD n.toNat 0 = Lib.Hex.digit n := by
  have hall : ∀ k : Fin 16,
      hexChars.getD k.val 0 = Lib.Hex.digit (UInt8.ofNat k.val) := by decide
  have hn := hall ⟨n.toNat, UInt8.lt_iff_toNat_lt.mp h⟩
  rwa [UInt8.ofNat_toNat] at hn

theorem hexDigits_eq (data : List UInt8) :
    (data.flatMap fun (b : UInt8) =>
      [hexChars.getD (b >>> 4).toNat 0, hexChars.getD (b &&& 0xF).toNat 0])
      = Lib.Hex.encode data := by
  unfold Lib.Hex.encode
  congr 1
  funext b
  show [hexChars.getD (Lib.Hex.high b).toNat 0,
    hexChars.getD (Lib.Hex.low b).toNat 0] = _
  rw [hexChars_getD (Lib.Hex.high_lt b), hexChars_getD (Lib.Hex.low_lt b)]

/-- With room for the digits and the `NUL`, the digits are written. -/
theorem procutilHexEncode_eq {data : List UInt8} {outCap : UInt32}
    (h : ¬ outCap < UInt32.ofNat data.length * 2 + 1) :
    procutilHexEncode data outCap = some (Lib.Hex.encode data) := by
  unfold procutilHexEncode
  rw [if_neg h, hexDigits_eq]

theorem hexVal_eq (c : UInt8) : hexVal c = Lib.Hex.value c := rfl

/-- The loop comes through exactly on pairs of digits. -/
theorem hexDecodeLoop_iff {s bs : List UInt8} (h : s.length % 2 = 0) :
    hexDecodeLoop s = (true, bs) ↔ Lib.Hex.decode s = some bs := by
  induction s using Lib.Hex.decode.induct generalizing bs with
  | case1 =>
      show (true, []) = (true, bs) ↔ some [] = some bs
      rw [Prod.mk.injEq, Option.some.injEq, and_iff_right rfl]
  | case2 c => cases h
  | case3 hi lo rest ih =>
      have hrest : rest.length % 2 = 0 := by
        rw [List.length_cons, List.length_cons] at h
        omega
      rw [hexDecodeLoop, Lib.Hex.decode, hexVal_eq, hexVal_eq]
      cases Lib.Hex.value hi with
      | none => exact iff_of_false (by simp) (by simp)
      | some x =>
          cases Lib.Hex.value lo with
          | none => exact iff_of_false (by simp) (by simp)
          | some y =>
              dsimp only
              cases hdec : Lib.Hex.decode rest with
              | none =>
                  refine iff_of_false ?_ (by simp)
                  intro heq
                  have hok : (hexDecodeLoop rest).1 = true :=
                    (Prod.mk.inj heq).1
                  have hsome : Lib.Hex.decode rest
                      = some (hexDecodeLoop rest).2 :=
                    (ih hrest).mp (Prod.ext hok rfl)
                  rw [hdec] at hsome
                  cases hsome
              | some tl =>
                  rw [(ih hrest).mpr hdec]
                  simp

/-- The manifest's reader, pair by pair. -/
theorem hexDecode_range {hex : List UInt8} {n : Nat}
    (h : hex.length = n * 2) :
    ((List.range n).mapM fun i => do
      let hi ← hexValue (hex.getD (i * 2) 0)
      let lo ← hexValue (hex.getD (i * 2 + 1) 0)
      pure (hi <<< 4 ||| lo)) = Lib.Hex.decode hex := by
  induction n generalizing hex with
  | zero =>
      rw [List.length_eq_zero_iff.mp (by omega : hex.length = 0)]
      rfl
  | succ n ih =>
      match hex, h with
      | hi :: lo :: rest, h =>
          have hrest : rest.length = n * 2 := by
            rw [List.length_cons, List.length_cons] at h
            omega
          have hlater : ∀ i, (hi :: lo :: rest).getD ((i + 1) * 2) 0
              = rest.getD (i * 2) 0
              ∧ (hi :: lo :: rest).getD ((i + 1) * 2 + 1) 0
                = rest.getD (i * 2 + 1) 0 := by
            intro i
            rw [show (i + 1) * 2 = i * 2 + 1 + 1 from by omega]
            exact ⟨rfl, rfl⟩
          rw [List.range_succ_eq_map, List.mapM_cons, List.mapM_map]
          simp only [Function.comp_def, Nat.succ_eq_add_one, hlater, ih hrest]
          show (do
            let b ← (do
              let h ← Lib.Hex.value hi
              let l ← Lib.Hex.value lo
              pure (h <<< 4 ||| l))
            let bs ← Lib.Hex.decode rest
            pure (b :: bs)) = _
          rw [Lib.Hex.decode]
          simp [bind, Option.bind_assoc]
      | [c], h =>
          rw [List.length_singleton] at h
          omega
      | [], h =>
          rw [List.length_nil] at h
          omega

/-- A text is the hexadecimal form of some bytes to both readers of the
program or to neither: when it is what the writer makes of them, up to the
case of its letters. They take the texts of two digits for each byte. -/
theorem hex_text_exact {hex bs : List UInt8} {n : Nat} (hn : n < 2 ^ 31)
    (hhex : hex.length < 2 ^ 32) :
    (procutilHexDecode hex (UInt32.ofNat n) = (true, bs)
      ↔ hexDecode hex n = some bs)
    ∧ (hexDecode hex n = some bs
      ↔ bs.length = n ∧ ∃ text, procutilHexEncode bs (UInt32.ofNat (2 * n + 1))
        = some text ∧ hex.map Lib.Hex.lower = text)
    ∧ ((∃ read, hexDecode hex n = some read)
      ↔ hex.length = 2 * n ∧ ∀ c ∈ hex, Lib.Hex.IsDigit c) := by
  have hfits : UInt32.ofNat hex.length ≠ UInt32.ofNat n * 2
      ↔ hex.length ≠ n * 2 := by
    rw [Ne, Ne, ← UInt32.toNat_inj, UInt32.toNat_mul, UInt32.toNat_ofNat',
      UInt32.toNat_ofNat']
    show ¬ hex.length % 2 ^ 32 = n % 2 ^ 32 * 2 % 2 ^ 32 ↔ _
    omega
  have hman : ∀ bs, hexDecode hex n = some bs
      ↔ hex.length = n * 2 ∧ Lib.Hex.decode hex = some bs := by
    intro bs
    unfold hexDecode
    by_cases hlen : hex.length = n * 2
    · rw [if_neg (not_not.mpr hlen), hexDecode_range hlen, and_iff_right hlen]
    · rw [if_pos hlen]
      exact iff_of_false (by simp) fun h => hlen h.1
  refine ⟨?_, ?_, ?_⟩
  · rw [hman]
    unfold procutilHexDecode
    by_cases hlen : hex.length = n * 2
    · rw [if_neg (mt hfits.mp (not_not.mpr hlen)), and_iff_right hlen]
      exact hexDecodeLoop_iff (by omega)
    · rw [if_pos (hfits.mpr hlen)]
      exact iff_of_false (by simp) fun h => hlen h.1
  · rw [hman, Lib.Hex.decode_eq_some_iff]
    constructor
    · rintro ⟨hlen, htext⟩
      have hbs : bs.length = n := by
        have := congrArg List.length htext
        rw [List.length_map, Lib.Hex.length_encode] at this
        omega
      refine ⟨hbs, Lib.Hex.encode bs, procutilHexEncode_eq ?_, htext⟩
      rw [hbs, UInt32.lt_iff_toNat_lt, UInt32.toNat_add, UInt32.toNat_mul,
        UInt32.toNat_ofNat', UInt32.toNat_ofNat']
      show ¬ (2 * n + 1) % 2 ^ 32 < (n % 2 ^ 32 * 2 % 2 ^ 32 + 1) % 2 ^ 32
      omega
    · rintro ⟨hbs, text, henc, htext⟩
      have hout : text = Lib.Hex.encode bs := by
        unfold procutilHexEncode at henc
        split at henc
        · cases henc
        · rw [hexDigits_eq] at henc
          exact (Option.some.inj henc).symm
      rw [hout] at htext
      refine ⟨?_, htext⟩
      have := congrArg List.length htext
      rw [List.length_map, Lib.Hex.length_encode, hbs] at this
      omega
  · simp only [hman, exists_and_left, Lib.Hex.exists_decode_iff]
    rw [← and_assoc]
    refine and_congr_left' ?_
    omega

/-- Digits of either case. -/
theorem hex_text_exact_aB0f :
    procutilHexDecode (ascii "aB0f") (UInt32.ofNat 2) = (true, [0xAB, 0x0F])
    ∧ hexDecode (ascii "aB0f") 2 = some [0xAB, 0x0F]
    ∧ ∀ c ∈ ascii "aB0f", Lib.Hex.IsDigit c := by
  obtain ⟨hsame, hform, htaken⟩ :=
    @hex_text_exact (ascii "aB0f") [0xAB, 0x0F] 2 (by decide) (by decide)
  have hread := hform.mpr ⟨rfl, _, rfl, by decide⟩
  exact ⟨hsame.mpr hread, hread, (htaken.mp ⟨_, hread⟩).2⟩

/-- The bytes of an array, written and read back. -/
theorem procutilHexDecode_encode (v : Vector UInt8 32) :
    procutilHexDecode (Lib.Hex.encode v.toList) 32 = (true, v.toList) := by
  have hlen : (Lib.Hex.encode v.toList).length = 64 := by
    rw [Lib.Hex.length_encode, Vector.length_toList]
  unfold procutilHexDecode
  rw [hlen, if_neg (by decide)]
  exact (hexDecodeLoop_iff (by rw [hlen])).mpr (Lib.Hex.decode_encode _)

-- ================================================================ decimals

theorem cut_eq {cap : Nat} {text : List UInt8} (h : text.length < cap) :
    cut cap text = text := List.take_of_length_le (by omega)

/-- A 64-bit number fits 21 characters and the `NUL`. -/
theorem numToBuf_eq {cap : Nat} (h : 21 < cap) (v : Int64) :
    numToBuf cap v = Lib.Decimal.showInt v.toInt := by
  have hlo := v.le_toInt
  have hhi := v.toInt_lt
  have hlen : (Lib.Decimal.showInt v.toInt).length ≤ 18 + 2 := by
    apply Lib.Decimal.length_showInt_le
    have h10 : (10 : Nat) ^ (18 + 1) = 10000000000000000000 := by decide
    rw [h10]
    omega
  exact cut_eq (by omega)

theorem strtoll_showInt (v : Int64) :
    strtoll (Lib.Decimal.showInt v.toInt) = v := by
  have hlo := v.le_toInt
  have hhi := v.toInt_lt
  have hread := Lib.Decimal.readInt_showInt Lib.Decimal.endsNumber_nil v.toInt
  rw [List.append_nil] at hread
  unfold strtoll
  rw [hread]
  dsimp only
  rw [Int.min_eq_left (by omega), Int.max_eq_right (by omega),
    Int64.ofInt_toInt]

/-- A number reads back from the buffer it was put into. -/
theorem strtoll_numToBuf {cap : Nat} (h : 21 < cap) (v : Int64) :
    strtoll (numToBuf cap v) = v := by
  rw [numToBuf_eq h, strtoll_showInt]

-- ================================================================= options

theorem findArg_spell {exe name : List UInt8}
    {opts : List (List UInt8 × List UInt8)} {flags : List (List UInt8)}
    (hopts : ∀ o ∈ opts, ¬ OptionLike o.2) (hname : OptionLike name)
    (hflags : name ∉ flags) :
    findArg (exe :: (spell opts ++ flags)) name = opts.lookup name := by
  refine valueAfter_spell (fun o ho heq => hopts o ho ?_) hflags
  rw [heq]
  exact hname

/-- A word that does not begin with a dash. -/
theorem not_optionLike_of_head {w : List UInt8}
    (h : ∀ c ∈ w.head?, c ≠ 0x2D) : ¬ OptionLike w := by
  intro hopt
  unfold OptionLike at hopt
  cases w with
  | nil => cases hopt
  | cons c w =>
      rw [List.take_succ_cons] at hopt
      exact h c rfl (List.cons.inj hopt).1

theorem not_optionLike_hex (bs : List UInt8) :
    ¬ OptionLike (Lib.Hex.encode bs) := by
  apply not_optionLike_of_head
  intro c hc h
  cases bs with
  | nil => cases hc
  | cons b bs =>
      rw [Lib.Hex.encode_cons] at hc
      obtain rfl := Option.some.inj hc
      have hrange := Lib.Hex.digit_range (Lib.Hex.high_lt b)
      rw [h] at hrange
      exact absurd hrange (by decide)

/-- Of the first two characters of a number one is a digit. -/
theorem not_optionLike_showInt (v : Int) :
    ¬ OptionLike (Lib.Decimal.showInt v) := by
  have hdash : ∀ c, Lib.Decimal.isDigit c = true → c ≠ 0x2D := fun c hc =>
    (Lib.Decimal.isDigit_plain hc).2.1
  have hdigit : ∀ c ∈ (Lib.Decimal.digits v.natAbs).head?, c ≠ 0x2D := by
    intro c hc
    exact hdash c (Lib.Decimal.isDigit_of_mem_digits
      (List.mem_of_mem_head? hc))
  unfold Lib.Decimal.showInt
  split
  · intro hopt
    unfold OptionLike at hopt
    rw [List.take_succ_cons] at hopt
    have htail := (List.cons.inj hopt).2
    cases hds : Lib.Decimal.digits v.natAbs with
    | nil =>
        rw [hds] at htail
        cases htail
    | cons c ds =>
        rw [hds] at hdigit htail
        exact hdigit c rfl (List.cons.inj htail).1
  · exact not_optionLike_of_head hdigit

theorem not_optionLike_numToBuf {cap : Nat} (h : 21 < cap) (v : Int64) :
    ¬ OptionLike (numToBuf cap v) := by
  rw [numToBuf_eq h]
  exact not_optionLike_showInt _

/-- A cut that leaves two characters leaves what a word looks like. -/
theorem optionLike_cut {cap : Nat} (h : 2 < cap) (w : List UInt8) :
    OptionLike (cut cap w) ↔ OptionLike w := by
  unfold OptionLike cut
  rw [List.take_take, Nat.min_eq_left (by omega)]

/-- A word with more behind it looks like an option only if it does. -/
theorem not_optionLike_append {w : List UInt8} (h : ¬ OptionLike w)
    {c : UInt8} (hc : c ≠ 0x2D) (rest : List UInt8) :
    ¬ OptionLike (w ++ c :: rest) := by
  intro hopt
  unfold OptionLike at h hopt
  match w with
  | [] => exact hc (List.cons.inj hopt).1
  | [d] => exact hc (List.cons.inj (List.cons.inj hopt).2).1
  | d :: e :: w => exact h hopt

end Obicall
