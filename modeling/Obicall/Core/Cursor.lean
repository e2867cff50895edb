/-
The byte cursors of `wire_cursor.h`: a writer that stops at the end of
its buffer and a reader that stops at the end of its input, both with
the sticky `ok` flag the C code threads through every call. The off
field never passes the end of the array, so `cap - off` and `len - off`
never wrap; the structures carry that as a field.

A decoder is written once, for any cursor (`ReadCursor`), and run on the
plain one; other instances say more about the memory it touches.

Each primitive is connected to the byte string it stands for by the
judgments of `Lib.Codec`, and from here on codecs are reasoned about
through those only.
-/
import Mathlib.Data.List.Basic
import Obicall.Core.Types
import Obicall.Lib.Codec

namespace Obicall

open Lib.Codec

-- =============================================================== writing

/-- `wcursor_t` with its `ok` flag: `out` is what has been written, the
first `off` bytes of the buffer. -/
structure WCursor where
  cap : Nat
  out : List UInt8
  ok : Bool
  off_le : out.length ≤ cap

/-- A cursor at the start of a buffer of `cap` bytes. -/
def WCursor.start (cap : Nat) : WCursor := ⟨cap, [], true, Nat.zero_le _⟩

/-- `wc_bytes` (and `wc_fixed`, the same function on characters). -/
def wcBytes (src : List UInt8) : StateM WCursor Unit := fun c =>
  if h : c.ok = true ∧ src.length ≤ c.cap - c.out.length then
    ((), { c with
      out := c.out ++ src
      off_le := by
        have := c.off_le
        rw [List.length_append]
        omega })
  else ((), { c with ok := false })

def wcFixed {n : Nat} (s : Vector UInt8 n) : StateM WCursor Unit :=
  wcBytes s.toList

def wcU8 (v : UInt8) : StateM WCursor Unit := wcBytes [v]

def wcU16 (v : UInt16) : StateM WCursor Unit :=
  wcBytes (leBytes 2 v.toNat).toList

def wcU32 (v : UInt32) : StateM WCursor Unit :=
  wcBytes (leBytes 4 v.toNat).toList

def wcU64 (v : UInt64) : StateM WCursor Unit :=
  wcBytes (leBytes 8 v.toNat).toList

def wcI64 (v : Int64) : StateM WCursor Unit := wcU64 v.toUInt64

def wcI32 (v : Int32) : StateM WCursor Unit := wcU32 v.toUInt32

def wcF64 {F : Type} [DoubleBits F] (v : F) : StateM WCursor Unit :=
  wcU64 (DoubleBits.toBits v)

/-- The loop `for (i = 0; i < count; ++i) wc_f64(&c, a[i], &ok)`. -/
def wcF64s {F : Type} [DoubleBits F] {m : Nat} (count : UInt32)
    (a : Vector F m) : StateM WCursor Unit :=
  (a.toList.take count.toNat).forM wcF64

/-- An encoder's last lines: the bytes written, or
`OBICALL_ERR_BUFFER_TOO_SMALL` when some write did not fit. -/
def wcFinish (cap : Nat) (m : StateM WCursor Unit) :
    Except Status (List UInt8) :=
  let c := (m (WCursor.start cap)).2
  if c.ok then .ok c.out else .error .errBufferTooSmall

-- =============================================================== reading

/-- `rcursor_t` with its `ok` flag. -/
structure RCursor where
  p : List UInt8
  off : Nat
  ok : Bool
  off_le : off ≤ p.length

/-- A cursor at the start of an input. -/
def RCursor.start (p : List UInt8) : RCursor := ⟨p, 0, true, Nat.zero_le _⟩

/-- What a decoder asks of the memory it reads and writes. A decoder is
written once, for any cursor, and run on the plain one here. -/
class ReadCursor (m : Type → Type) where
  /-- `rc_bytes` (and `rc_fixed`) into a zeroed destination -/
  rcBytes (n : Nat) : m (Vector UInt8 n)
  /-- `rc_bytes` into the front of a caller's buffer, whose contents stay
  when the read fails -/
  rcInto (dst : List UInt8) (n : Nat) : m (Vector UInt8 n)
  /-- the `ok` flag so far -/
  rcOk : m Bool
  /-- a loop's stores `a[0]`, `a[1]`, .. into an array of `k` entries,
  all `z` before -/
  rcFill {α : Type} {k : Nat} (z : α) (l : List α) : m (Vector α k)

export ReadCursor (rcBytes rcInto rcOk rcFill)

/-- `rc_bytes`: the destination stays zero when the input is too short,
and after any failed read. -/
def RCursor.bytes (n : Nat) : StateM RCursor (Vector UInt8 n) := fun c =>
  if h : c.ok = true ∧ n ≤ c.p.length - c.off then
    (Vector.ofFn fun i => c.p.getD (c.off + i.val) 0,
      { c with
        off := c.off + n
        off_le := by
          have := c.off_le
          omega })
  else (Vector.replicate n 0, { c with ok := false })

/-- An array whose first entries are `l`, on a background of `z`. -/
def fillVector {α : Type} {m : Nat} (z : α) (l : List α) : Vector α m :=
  Vector.ofFn fun i => l.getD i.val z

/-- The front of a caller's buffer after a read. -/
def RCursor.into (dst : List UInt8) (n : Nat) :
    StateM RCursor (Vector UInt8 n) := do
  let bytes ← RCursor.bytes n
  return if (← get).ok then bytes
    else Vector.ofFn fun i => dst.getD i.val 0

instance : ReadCursor (StateM RCursor) where
  rcBytes := RCursor.bytes
  rcInto := RCursor.into
  rcOk := return (← get).ok
  rcFill z l := return fillVector z l

section Readers

variable {M : Type → Type} [Monad M] [ReadCursor M]

def rcU8 : M UInt8 := return (← rcBytes 1)[0]

def rcU16 : M UInt16 :=
  return UInt16.ofNat (leNat (← rcBytes 2))

def rcU32 : M UInt32 :=
  return UInt32.ofNat (leNat (← rcBytes 4))

def rcU64 : M UInt64 :=
  return UInt64.ofNat (leNat (← rcBytes 8))

def rcI32 : M Int32 := return (← rcU32).toInt32

def rcI64 : M Int64 := return (← rcU64).toInt64

def rcF64 {F : Type} [DoubleBits F] : M F :=
  return DoubleBits.ofBits (← rcU64)

/-- `n` reads in sequence. -/
def rcRepeat {α : Type} (r : M α) : Nat → M (List α)
  | 0 => return []
  | n + 1 => do
    let x ← r
    let xs ← rcRepeat r n
    return x :: xs

/-- The loop `for (i = 0; i < count; ++i) a[i] = rc_f64(&c, &ok)` over a
zeroed array. -/
def rcF64s {F : Type} [DoubleBits F] {m : Nat} (count : UInt32) :
    M (Vector F m) := do
  rcFill (zeroDouble F) (← rcRepeat rcF64 count.toNat)

/-- A decoder's test of the flag and of a count it has read. -/
def rcGuard {α : Type} (n max : Nat) (bad : α) (next : M α) : M α := do
  let ok ← rcOk
  if !ok || n > max then return bad else next

/-- A control message's decoder ends by turning the flag into a status. -/
def rcStatus : M Status :=
  return if ← rcOk then .ok else .errWireMalformed

end Readers

-- ========================================================== byte strings

def u16Bytes (v : UInt16) : List UInt8 := (leBytes 2 v.toNat).toList

def u32Bytes (v : UInt32) : List UInt8 := (leBytes 4 v.toNat).toList

def u64Bytes (v : UInt64) : List UInt8 := (leBytes 8 v.toNat).toList

/-- The first `count` doubles of an array, as they are shipped. -/
def f64sBytes {F : Type} [DoubleBits F] {m : Nat} (count : UInt32)
    (a : Vector F m) : List UInt8 :=
  (a.toList.take count.toNat).flatMap fun x => u64Bytes (DoubleBits.toBits x)

@[simp] theorem length_u16Bytes (v : UInt16) : (u16Bytes v).length = 2 := by
  simp [u16Bytes]

@[simp] theorem length_u32Bytes (v : UInt32) : (u32Bytes v).length = 4 := by
  simp [u32Bytes]

@[simp] theorem length_u64Bytes (v : UInt64) : (u64Bytes v).length = 8 := by
  simp [u64Bytes]

theorem length_f64sBytes {F : Type} [DoubleBits F] {m : Nat}
    (count : UInt32) (a : Vector F m) :
    (f64sBytes count a).length = 8 * min count.toNat m := by
  simp [f64sBytes, List.length_flatMap, Nat.mul_comm]

-- ================================================= the writers, as bytes

/-- The unread bytes, the free space and the flag: what the judgments of
`Lib.Codec` need of a cursor. -/
def WCursor.room (c : WCursor) : Nat := c.cap - c.out.length

abbrev Writes (m : StateM WCursor Unit) (bs : List UInt8) : Prop :=
  Emits WCursor.out WCursor.room (fun c => c.ok = true) m bs

theorem writes_wcBytes (src : List UInt8) : Writes (wcBytes src) src where
  fits c hok hroom := by
    have hfit : c.ok = true ∧ src.length ≤ c.cap - c.out.length := ⟨hok, hroom⟩
    simp only [wcBytes, hfit, and_self, dite_true, true_and]
    simp only [WCursor.room, List.length_append]
    omega
  full c hok hroom := by
    have hno : ¬ (c.ok = true ∧ src.length ≤ c.cap - c.out.length) := by
      intro hfit
      have := hfit.2
      simp only [WCursor.room] at hroom
      omega
    simp [wcBytes, hno]
  bad c hbad := by
    have hno : ¬ (c.ok = true ∧ src.length ≤ c.cap - c.out.length) :=
      fun hfit => hbad hfit.1
    simp [wcBytes, hno]

theorem writes_wcFixed {n : Nat} (s : Vector UInt8 n) :
    Writes (wcFixed s) s.toList := writes_wcBytes _

theorem writes_wcU8 (v : UInt8) : Writes (wcU8 v) [v] := writes_wcBytes _

theorem writes_wcU16 (v : UInt16) : Writes (wcU16 v) (u16Bytes v) :=
  writes_wcBytes _

theorem writes_wcU32 (v : UInt32) : Writes (wcU32 v) (u32Bytes v) :=
  writes_wcBytes _

theorem writes_wcU64 (v : UInt64) : Writes (wcU64 v) (u64Bytes v) :=
  writes_wcBytes _

theorem writes_wcI64 (v : Int64) : Writes (wcI64 v) (u64Bytes v.toUInt64) :=
  writes_wcU64 _

theorem writes_wcI32 (v : Int32) : Writes (wcI32 v) (u32Bytes v.toUInt32) :=
  writes_wcU32 _

theorem writes_wcF64 {F : Type} [DoubleBits F] (v : F) :
    Writes (wcF64 v) (u64Bytes (DoubleBits.toBits v)) := writes_wcU64 _

theorem writes_wcF64s {F : Type} [DoubleBits F] {m : Nat} (count : UInt32)
    (a : Vector F m) : Writes (wcF64s count a) (f64sBytes count a) :=
  Emits.forM writes_wcF64 _

/-- An encoder succeeds exactly when its bytes fit the buffer, and then
it has written exactly them. -/
theorem wcFinish_eq {cap : Nat} {m : StateM WCursor Unit} {bs : List UInt8}
    (h : Writes m bs) :
    wcFinish cap m
      = if bs.length ≤ cap then .ok bs else .error .errBufferTooSmall := by
  have hroom : (WCursor.start cap).room = cap := by
    simp [WCursor.room, WCursor.start]
  by_cases hle : bs.length ≤ cap
  · obtain ⟨hok, hout, _⟩ := h.fits (WCursor.start cap) rfl (by rw [hroom]; exact hle)
    have hbs : (m (WCursor.start cap)).2.out = bs := by
      rw [hout]
      rfl
    simp only [wcFinish, hok, if_true, hle, hbs]
  · have hbad := h.full (WCursor.start cap) rfl (by rw [hroom]; omega)
    simp [wcFinish, hbad, hle]

-- from here on an encoder is known by `wcFinish_eq` only
attribute [irreducible] wcFinish

-- ================================================= the readers, as bytes

/-- The bytes a reader has not consumed yet. -/
def RCursor.rest (c : RCursor) : List UInt8 := c.p.drop c.off

abbrev ReadsBack {α : Type} (m : StateM RCursor α) (bs : List UInt8)
    (a : α) : Prop :=
  Reads RCursor.rest (fun c => c.ok = true) m bs a

theorem reads_rcBytes {n : Nat} (v : Vector UInt8 n) :
    ReadsBack (rcBytes n) v.toList v := by
  intro c tl hok hrest
  have hlen : c.p.length - c.off = n + tl.length := by
    have := congrArg List.length hrest
    simpa [RCursor.rest] using this
  have hfit : c.ok = true ∧ n ≤ c.p.length - c.off := ⟨hok, by omega⟩
  simp only [rcBytes, RCursor.bytes, hfit, and_self, dite_true, true_and]
  constructor
  · apply Vector.ext
    intro i hi
    have hget : c.p[c.off + i]? = (c.p.drop c.off)[i]? := by
      rw [List.getElem?_drop]
    rw [Vector.getElem_ofFn, List.getD_eq_getElem?_getD, hget]
    show (c.rest[i]?).getD 0 = _
    rw [hrest, List.getElem?_append_left (by simpa using hi)]
    simp [hi]
  · show c.p.drop (c.off + n) = tl
    rw [← List.drop_drop]
    show c.rest.drop n = tl
    rw [hrest]
    simp

/-- A caller's buffer takes the bytes like a zeroed one. -/
theorem reads_rcInto (dst : List UInt8) {n : Nat} (v : Vector UInt8 n) :
    ReadsBack (rcInto dst n) v.toList v := by
  have h : ReadsBack
      (do
        let bytes ← rcBytes n
        let ok ← rcOk
        return if ok then bytes else Vector.ofFn fun i => dst.getD i.val 0)
      v.toList v :=
    (reads_rcBytes v).last (.skip (fun _ _ hok hrest => ⟨hok, hok, hrest⟩)
      (Reads.pure _))
  exact h

theorem reads_rcU8 (v : UInt8) : ReadsBack rcU8 [v] v :=
  (reads_rcBytes #v[v]).map fun b => b[0]

theorem reads_rcU16 (v : UInt16) : ReadsBack rcU16 (u16Bytes v) v := by
  have h := (reads_rcBytes (leBytes 2 v.toNat)).map
    (fun b => UInt16.ofNat (leNat b))
  rwa [leNat_leBytes_of_lt v.toNat_lt, UInt16.ofNat_toNat] at h

theorem reads_rcU32 (v : UInt32) : ReadsBack rcU32 (u32Bytes v) v := by
  have h := (reads_rcBytes (leBytes 4 v.toNat)).map
    (fun b => UInt32.ofNat (leNat b))
  rwa [leNat_leBytes_of_lt v.toNat_lt, UInt32.ofNat_toNat] at h

theorem reads_rcU64 (v : UInt64) : ReadsBack rcU64 (u64Bytes v) v := by
  have h := (reads_rcBytes (leBytes 8 v.toNat)).map
    (fun b => UInt64.ofNat (leNat b))
  rwa [leNat_leBytes_of_lt v.toNat_lt, UInt64.ofNat_toNat] at h

theorem reads_rcI32 (v : Int32) : ReadsBack rcI32 (u32Bytes v.toUInt32) v := by
  have h := (reads_rcU32 v.toUInt32).map UInt32.toInt32
  rwa [Int32.toInt32_toUInt32] at h

theorem reads_rcI64 (v : Int64) : ReadsBack rcI64 (u64Bytes v.toUInt64) v := by
  have h := (reads_rcU64 v.toUInt64).map UInt64.toInt64
  rwa [Int64.toInt64_toUInt64] at h

theorem reads_rcF64 {F : Type} [DoubleBits F] (v : F) :
    ReadsBack rcF64 (u64Bytes (DoubleBits.toBits v)) v := by
  have h := (reads_rcU64 (DoubleBits.toBits v)).map (DoubleBits.ofBits (F := F))
  rwa [DoubleBits.ofBits_toBits] at h

theorem reads_rcOk : ReadsBack rcOk [] true := fun _ _ hok hrest =>
  ⟨hok, hok, hrest⟩

theorem reads_rcFill {α : Type} {m : Nat} (z : α) (l : List α) :
    ReadsBack (rcFill z l) [] (fillVector (m := m) z l) := Reads.pure _

/-- Reading a list back, item by item. -/
theorem reads_rcRepeat {α : Type} {r : StateM RCursor α}
    {f : α → List UInt8} (hr : ∀ x, ReadsBack r (f x) x) :
    ∀ xs : List α, ReadsBack (rcRepeat r xs.length) (xs.flatMap f) xs := by
  intro xs
  induction xs with
  | nil => exact Reads.pure []
  | cons x xs ih =>
      rw [List.flatMap_cons]
      exact (hr x).bind (ih.map (x :: ·))

/-- What an array keeps after a round trip: its first `count` entries,
the rest zeroed. -/
def keepFirst {α : Type} {m : Nat} (z : α) (count : UInt32)
    (a : Vector α m) : Vector α m :=
  fillVector z (a.toList.take count.toNat)

theorem getElem_keepFirst {α : Type} {m : Nat} (z : α) (count : UInt32)
    (a : Vector α m) (i : Nat) (hi : i < m) :
    (keepFirst z count a)[i] = if i < count.toNat then a[i] else z := by
  rw [keepFirst, fillVector, Vector.getElem_ofFn, List.getD_eq_getElem?_getD,
    List.getElem?_take]
  by_cases h : i < count.toNat
  · simp [h, hi]
  · simp [h]

theorem yields_rcRepeat {α : Type} (r : StateM RCursor α) (n : Nat) :
    Yields (rcRepeat r n) fun xs => xs.length = n := by
  induction n with
  | zero => exact .pure rfl
  | succ n ih =>
      exact .skip fun x => .bind ih fun xs hxs =>
        .pure (by rw [List.length_cons, hxs])

/-- An array that was read has nothing past its count. -/
theorem yields_rcF64s {F : Type} [DoubleBits F] {m : Nat}
    (count : UInt32) :
    Yields (rcF64s count : StateM RCursor (Vector F m))
      fun v => keepFirst (zeroDouble F) count v = v := by
  refine .bind (yields_rcRepeat rcF64 count.toNat) fun xs hxs => .pure ?_
  apply Vector.ext
  intro i hi
  rw [getElem_keepFirst]
  by_cases h : i < count.toNat
  · rw [if_pos h]
  · have hpast : xs.length ≤ i := by omega
    rw [if_neg h, fillVector, Vector.getElem_ofFn,
      List.getD_eq_getElem?_getD, List.getElem?_eq_none hpast]
    rfl

theorem reads_rcF64s {F : Type} [DoubleBits F] {m : Nat} (count : UInt32)
    (a : Vector F m) (hcount : count.toNat ≤ m) :
    ReadsBack (rcF64s count) (f64sBytes count a)
      (keepFirst (zeroDouble F) count a) := by
  have h := reads_rcRepeat (r := rcF64) reads_rcF64 (a.toList.take count.toNat)
  have hlen : (a.toList.take count.toNat).length = count.toNat := by
    simp [hcount]
  rw [hlen] at h
  exact h.map _

/-- A decoder that reads the front of its input. -/
theorem ReadsBack.run_append {α : Type} {m : StateM RCursor α}
    {bs : List UInt8} {a : α} (h : ReadsBack m bs a) (tl : List UInt8) :
    (m (RCursor.start (bs ++ tl))).1 = a := (h (RCursor.start _) tl rfl rfl).1

/-- A decoder that reads exactly its input. -/
theorem ReadsBack.run {α : Type} {m : StateM RCursor α} {bs : List UInt8}
    {a : α} (h : ReadsBack m bs a) : (m (RCursor.start bs)).1 = a :=
  (h (RCursor.start bs) [] rfl (by simp [RCursor.rest, RCursor.start])).1

-- ============================================ the readers, conversely

abbrev TakesBack {α : Type} (m : StateM RCursor α)
    (R : α → List UInt8 → Prop) : Prop :=
  Takes RCursor.rest (fun c => c.ok = true) m R

theorem takes_rcBytes (n : Nat) :
    TakesBack (rcBytes n) fun v bs => bs = v.toList := by
  intro c hok
  by_cases hfit : c.ok = true ∧ n ≤ c.p.length - c.off
  · refine ⟨hfit.1, _, ?_, rfl⟩
    simp only [rcBytes, RCursor.bytes, hfit, and_self, dite_true]
    show c.p.drop c.off = _ ++ c.p.drop (c.off + n)
    have hle := c.off_le
    rw [← List.take_append_drop n (c.p.drop c.off), List.drop_drop]
    congr 1
    apply List.ext_getElem
    · simp
      omega
    · intro i h₁ h₂
      simp only [Vector.length_toList] at h₂
      rw [List.getElem_take, List.getElem_drop, Vector.getElem_toList,
        Vector.getElem_ofFn, List.getD_eq_getElem?_getD,
        List.getElem?_eq_getElem (by omega), Option.getD_some]
  · simp only [rcBytes, RCursor.bytes, hfit, dite_false] at hok
    cases hok

theorem takes_rcU32 : TakesBack rcU32 fun v bs => bs = u32Bytes v :=
  (takes_rcBytes 4).map fun b bs h => by
    have hlt : leNat b < 2 ^ 32 := leNat_lt b
    rw [h, u32Bytes, UInt32.toNat_ofNat', Nat.mod_eq_of_lt hlt,
      leBytes_leNat]

theorem takes_rcU64 : TakesBack rcU64 fun v bs => bs = u64Bytes v :=
  (takes_rcBytes 8).map fun b bs h => by
    have hlt : leNat b < 2 ^ 64 := leNat_lt b
    rw [h, u64Bytes, UInt64.toNat_ofNat', Nat.mod_eq_of_lt hlt,
      leBytes_leNat]

theorem takes_rcI32 : TakesBack rcI32 fun v bs => bs = u32Bytes v.toUInt32 :=
  takes_rcU32.map fun v bs h => by rw [h, UInt32.toUInt32_toInt32]

theorem takes_rcI64 : TakesBack rcI64 fun v bs => bs = u64Bytes v.toUInt64 :=
  takes_rcU64.map fun v bs h => by rw [h, UInt64.toUInt64_toInt64]

theorem takes_rcF64 {F : Type} [DoubleBits F] :
    TakesBack (rcF64 (F := F))
      fun v bs => bs = u64Bytes (DoubleBits.toBits v) :=
  takes_rcU64.map fun v bs h => by rw [h, DoubleBits.toBits_ofBits]

theorem takes_rcOk : TakesBack rcOk fun ok bs => ok = true ∧ bs = [] :=
  fun _ hok => ⟨hok, [], rfl, hok, rfl⟩

theorem takes_rcInto (dst : List UInt8) (n : Nat) :
    TakesBack (rcInto dst n) fun v bs => bs = v.toList := by
  have h : TakesBack
      (do
        let bytes ← rcBytes n
        let ok ← rcOk
        return if ok then bytes else Vector.ofFn fun i => dst.getD i.val 0)
      fun v bs => bs = v.toList :=
    .bind (takes_rcBytes n) fun bytes => takes_rcOk.map
      fun ok bs hok bs' hbs' => by rw [hok.1, if_pos rfl, hok.2,
        List.append_nil, hbs']
  exact h

/-- What a loop of reads took, item by item. -/
theorem takes_rcRepeat {α : Type} {r : StateM RCursor α}
    {enc : α → List UInt8} (hr : TakesBack r fun a bs => bs = enc a)
    (n : Nat) :
    TakesBack (rcRepeat r n)
      fun xs bs => bs = xs.flatMap enc ∧ xs.length = n := by
  induction n with
  | zero => exact .pure ⟨rfl, rfl⟩
  | succ n ih =>
      refine .bind hr fun x => ih.map fun xs bs hxs cs hx => ⟨?_, ?_⟩
      · rw [List.flatMap_cons, ← hx, ← hxs.1]
      · rw [List.length_cons, hxs.2]

theorem takes_rcFill {α : Type} {m : Nat} (z : α) (l : List α) :
    TakesBack (rcFill z l)
      fun v bs => bs = [] ∧ v = fillVector (m := m) z l :=
  .pure ⟨rfl, rfl⟩

/-- The entries an array was filled with. -/
theorem take_fillVector {α : Type} {m : Nat} (z : α) {xs : List α}
    (h : xs.length ≤ m) :
    (fillVector (m := m) z xs).toList.take xs.length = xs := by
  apply List.ext_getElem
  · simpa using h
  · intro i h₁ h₂
    rw [List.getElem_take, Vector.getElem_toList]
    unfold fillVector
    rw [Vector.getElem_ofFn, List.getD_eq_getElem?_getD,
      List.getElem?_eq_getElem h₂, Option.getD_some]

theorem keepFirst_fillVector {α : Type} {m : Nat} (z : α) (count : UInt32)
    {xs : List α} (hlen : xs.length = count.toNat) (h : xs.length ≤ m) :
    keepFirst z count (fillVector (m := m) z xs) = fillVector z xs := by
  rw [keepFirst, ← hlen, take_fillVector z h]

/-- A counted array, and nothing past its count. -/
theorem takes_rcF64s {F : Type} [DoubleBits F] {m : Nat} {count : UInt32}
    (hcount : count.toNat ≤ m) :
    TakesBack (rcF64s (F := F) (m := m) count)
      fun v bs => bs = f64sBytes count v
        ∧ keepFirst (zeroDouble F) count v = v :=
  (takes_rcRepeat takes_rcF64 count.toNat).map fun xs bs hxs => by
    have hle : xs.length ≤ m := hxs.2 ▸ hcount
    refine ⟨?_, keepFirst_fillVector _ _ hxs.2 hle⟩
    rw [f64sBytes, ← hxs.2, take_fillVector _ hle, hxs.1]

/-- A decoder that says OK was given bytes that, with the struct it
filled, satisfy `Q`, and perhaps more behind them. -/
abbrev Parses {α : Type} (m : StateM RCursor (Status × α))
    (Q : α → List UInt8 → Prop) : Prop :=
  Accepts RCursor.rest (fun c => c.ok = true) (fun r => r.1 = .ok) m
    fun r bs => Q r.2 bs

theorem Parses.run {α : Type} {m : StateM RCursor (Status × α)}
    {Q : α → List UInt8 → Prop} (h : Parses m Q) {inp : List UInt8} {x : α}
    (hdec : (m (RCursor.start inp)).1 = (.ok, x)) :
    ∃ bs tl, inp = bs ++ tl ∧ Q x bs := by
  obtain ⟨-, -, bs, hbs, hq⟩ := h (RCursor.start inp) (by rw [hdec])
  rw [hdec] at hq
  exact ⟨bs, _, hbs, hq⟩

theorem ReadsBack.guard {α : Type} {n m : Nat} (h : n ≤ m) {bad a : α}
    {next : StateM RCursor α} {bs : List UInt8}
    (hnext : ReadsBack next bs a) :
    ReadsBack (rcGuard n m bad next) bs a := by
  refine .test reads_rcOk ?_
  rw [if_neg (by simpa using h)]
  exact hnext

theorem accepts_guard {α : Type} {n m : Nat} {bad : Status × α}
    (hbad : bad.1 ≠ .ok) {next : StateM RCursor (Status × α)}
    {R : Status × α → List UInt8 → Prop}
    (h : n ≤ m → Accepts RCursor.rest (fun c => c.ok = true)
      (fun r => r.1 = .ok) next R) :
    Accepts RCursor.rest (fun c => c.ok = true) (fun r => r.1 = .ok)
      (rcGuard n m bad next) R := by
  refine .bind takes_rcOk fun ok => ?_
  split
  · exact .reject hbad
  next hpass =>
    simp only [Bool.or_eq_true, decide_eq_true_eq, not_or, not_lt] at hpass
    refine (h hpass.2).mono fun r bs hq bs' hbs' => ?_
    rw [hbs'.2]
    exact hq

theorem reads_rcStatus : ReadsBack rcStatus [] .ok :=
  .test reads_rcOk (Reads.pure _)

/-- The flag is read off the cursor it leaves alone. -/
theorem rcOk_run (c : RCursor) :
    ((rcOk : StateM RCursor Bool) c).2 = c
      ∧ (((rcOk : StateM RCursor Bool) c).1 = true → c.ok = true) :=
  ⟨rfl, id⟩

/-- The last lines of a decoder: the flag becomes the status. -/
theorem accepts_verdict {α : Type} {x : α}
    {R : Status × α → List UInt8 → Prop} (hq : R (.ok, x) []) :
    Accepts RCursor.rest (fun c => c.ok = true) (fun r => r.1 = .ok)
      (do
        let ok ← rcOk
        return (if ok then .ok else .errWireMalformed, x)) R :=
  .verdict rcOk_run (fun h => nomatch h) hq

theorem accepts_status {α : Type} {x : α}
    {R : Status × α → List UInt8 → Prop} (hq : R (.ok, x) []) :
    Accepts RCursor.rest (fun c => c.ok = true) (fun r => r.1 = .ok)
      (do
        let status ← rcStatus
        return (status, x)) R :=
  accepts_verdict hq

end Obicall
