/-
No decoder reads past its input or writes past an array, whatever the
input says.

# Checked memory

The decoders are run on a second cursor, where nothing ties `off`, `len`
and the bytes together: they are machine words and a memory, and a load
outside the memory, a store outside an array or a `len - off` that would
wrap ends the run (`none`). `Safe` says that a decoder on checked memory
runs to its end and does what it does on the plain cursor; it is closed
under sequencing, so each decoder is safe field by field. A loop is safe
because its count was compared with the array's size before it.

# Result

`decoders_safe`: every decoder is safe on every input, what it accepts
has its counts in range, and it refuses every truncated message.
-/
import Mathlib.Data.List.Basic
import Obicall.Wire.Proofs.RoundTrip

namespace Obicall

open Lib.Codec

-- ======================================================== checked memory

/-- `rcursor_t` and its flag, as they are in memory. -/
structure CheckedCursor where
  p : List UInt8
  len : UInt32
  off : UInt32
  ok : Bool

/-- A run over checked memory; `none` once an access was out of bounds. -/
abbrev CheckedM : Type → Type := StateT CheckedCursor Option

/-- `n` bytes of a memory, from an offset. -/
def load (p : List UInt8) (off n : Nat) : Option (Vector UInt8 n) :=
  if h : off + n ≤ p.length then
    some (Vector.ofFn fun i => p[off + i.val])
  else none

/-- Stores to the first entries of an array of `k`. -/
def store {α : Type} {k : Nat} (z : α) (l : List α) : Option (Vector α k) :=
  if l.length ≤ k then some (fillVector z l) else none

/-- `rc_bytes`, line by line. -/
def CheckedCursor.bytes (n : Nat) : CheckedM (Vector UInt8 n) := fun c =>
  if !c.ok then some (Vector.replicate n 0, c)
  else if c.len < c.off then none
  else if UInt32.ofNat n > c.len - c.off then
    some (Vector.replicate n 0, { c with ok := false })
  else (load c.p c.off.toNat n).map fun v =>
    (v, { c with off := c.off + UInt32.ofNat n })

/-- `rc_bytes` into a caller's buffer, which must have room. -/
def CheckedCursor.into (dst : List UInt8) (n : Nat) :
    CheckedM (Vector UInt8 n) := do
  let old ← StateT.lift (load dst 0 n)
  let bytes ← CheckedCursor.bytes n
  return if (← get).ok then bytes else old

instance : ReadCursor CheckedM where
  rcBytes := CheckedCursor.bytes
  rcInto := CheckedCursor.into
  rcOk := return (← get).ok
  rcFill z l := StateT.lift (store z l)

/-- The two cursors stand at the same place of the same input. -/
structure CheckedCursor.Agrees (c : CheckedCursor) (r : RCursor) :
    Prop where
  p : c.p = r.p
  len : c.len.toNat = r.p.length
  off : c.off.toNat = r.off
  ok : c.ok = r.ok

/-- On checked memory the run reaches its end, with the plain run's value.
-/
def Safe {α : Type} (mc : CheckedM α) (m : StateM RCursor α) : Prop :=
  ∀ c r, CheckedCursor.Agrees c r →
    ∃ c', mc c = some ((m r).1, c') ∧ c'.Agrees (m r).2

-- ============================================================= sequencing

variable {α β : Type}

theorem Safe.pure (a : α) :
    Safe (Pure.pure a : CheckedM α) (Pure.pure a : StateM RCursor α) :=
  fun c _ h => ⟨c, rfl, h⟩

theorem Safe.bind {mc : CheckedM α} {m : StateM RCursor α}
    {fc : α → CheckedM β} {f : α → StateM RCursor β} (hm : Safe mc m)
    (hf : ∀ a, Safe (fc a) (f a)) : Safe (mc >>= fc) (m >>= f) := by
  intro c r h
  obtain ⟨c₁, hrun₁, h₁⟩ := hm c r h
  obtain ⟨c₂, hrun₂, h₂⟩ := hf (m r).1 c₁ (m r).2 h₁
  refine ⟨c₂, ?_, h₂⟩
  show (mc c >>= fun p => fc p.1 p.2) = _
  rw [hrun₁]
  exact hrun₂

/-- The rest need only be safe for the values the first step can have. -/
theorem Safe.bindY {mc : CheckedM α} {m : StateM RCursor α}
    {fc : α → CheckedM β} {f : α → StateM RCursor β} {P : α → Prop}
    (hm : Safe mc m) (hy : Yields m P) (hf : ∀ a, P a → Safe (fc a) (f a)) :
    Safe (mc >>= fc) (m >>= f) := by
  intro c r h
  obtain ⟨c₁, hrun₁, h₁⟩ := hm c r h
  obtain ⟨c₂, hrun₂, h₂⟩ := hf (m r).1 (hy r) c₁ (m r).2 h₁
  refine ⟨c₂, ?_, h₂⟩
  show (mc c >>= fun p => fc p.1 p.2) = _
  rw [hrun₁]
  exact hrun₂

/-- An access that is in bounds. -/
theorem Safe.lift {x : Option α} {a : α} (hx : x = some a)
    {fc : α → CheckedM β} {m : StateM RCursor β} (h : Safe (fc a) m) :
    Safe (StateT.lift x >>= fc) m := by
  subst hx
  exact h

-- ============================================================= primitives

theorem load_eq {p : List UInt8} {off n : Nat} (h : off + n ≤ p.length) :
    load p off n = some (Vector.ofFn fun i => p.getD (off + i.val) 0) := by
  rw [load, dif_pos h]
  congr 2
  funext i
  rw [List.getD_eq_getElem?_getD, List.getElem?_eq_getElem, Option.getD_some]

theorem safe_rcBytes {n : Nat} (hn : n < 2 ^ 32) :
    Safe (rcBytes n) (rcBytes n) := by
  intro c r h
  have hoff := r.off_le
  have hplace : ¬ c.len < c.off := by
    rw [UInt32.lt_iff_toNat_lt, h.len, h.off]
    omega
  have hrest : (c.len - c.off).toNat = r.p.length - r.off := by
    rw [UInt32.toNat_sub_of_le _ _ (UInt32.not_lt.mp hplace), h.len, h.off]
  have htoNat : (UInt32.ofNat n).toNat = n := UInt32.toNat_ofNat_of_lt' hn
  have hover : UInt32.ofNat n > c.len - c.off
      ↔ ¬ n ≤ r.p.length - r.off := by
    rw [gt_iff_lt, UInt32.lt_iff_toNat_lt, hrest, htoNat, not_le]
  show ∃ c', CheckedCursor.bytes n c
    = some ((RCursor.bytes n r).1, c') ∧ c'.Agrees (RCursor.bytes n r).2
  rw [CheckedCursor.bytes, RCursor.bytes]
  by_cases hok : r.ok = true
  · rw [if_neg (by simp [h.ok, hok]), if_neg hplace]
    by_cases hfit : n ≤ r.p.length - r.off
    · have hin : c.off.toNat + n ≤ c.p.length := by
        rw [h.p, h.off]
        omega
      rw [if_neg (fun hgt => hover.mp hgt hfit), dif_pos ⟨hok, hfit⟩,
        load_eq hin, h.p, h.off]
      refine ⟨_, rfl, rfl, h.len, ?_, h.ok⟩
      have hle := c.len.toNat_lt
      have hlen := h.len
      show (c.off + UInt32.ofNat n).toNat = r.off + n
      rw [UInt32.toNat_add, htoNat, h.off]
      exact Nat.mod_eq_of_lt (by omega)
    · rw [if_pos (hover.mpr hfit), dif_neg fun hboth => hfit hboth.2]
      exact ⟨_, rfl, h.p, h.len, h.off, rfl⟩
  · rw [if_pos (by simp [h.ok, hok]), dif_neg fun hboth => hok hboth.1]
    have hbad : c.ok = false := by simp [h.ok, hok]
    exact ⟨c, rfl, h.p, h.len, h.off, hbad⟩

theorem safe_rcOk : Safe rcOk rcOk := fun c r h =>
  ⟨c, by
    show some (c.ok, c) = some (r.ok, c)
    rw [h.ok], h⟩

theorem safe_rcFill {k : Nat} (z : α) {l : List α} (h : l.length ≤ k) :
    Safe (rcFill (k := k) z l) (rcFill z l) := by
  intro c r hagree
  refine ⟨c, ?_, hagree⟩
  show (store (k := k) z l >>= fun v => some (v, c)) = _
  rw [store, if_pos h]
  rfl

theorem safe_rcInto {n : Nat} (hn : n < 2 ^ 32) {dst : List UInt8}
    (hroom : n ≤ dst.length) : Safe (rcInto dst n) (rcInto dst n) := by
  have hload : load dst 0 n
      = some (Vector.ofFn fun i => dst.getD i.val 0) := by
    rw [load_eq (by omega)]
    simp only [Nat.zero_add]
  have h : Safe
      (do
        let old ← StateT.lift (load dst 0 n)
        let bytes ← rcBytes n
        let ok ← rcOk
        return if ok then bytes else old)
      (do
        let bytes ← rcBytes n
        let ok ← rcOk
        return if ok then bytes else Vector.ofFn fun i => dst.getD i.val 0) :=
    .lift hload <| .bind (safe_rcBytes hn) fun _ => .bind safe_rcOk fun _ =>
      .pure _
  exact h

theorem safe_rcBytes32 : Safe (rcBytes 32) (rcBytes 32) :=
  safe_rcBytes (by decide)

theorem safe_rcU32 : Safe rcU32 rcU32 :=
  .bind (safe_rcBytes (by decide)) fun _ => .pure _

theorem safe_rcU64 : Safe rcU64 rcU64 :=
  .bind (safe_rcBytes (by decide)) fun _ => .pure _

theorem safe_rcI32 : Safe rcI32 rcI32 := .bind safe_rcU32 fun _ => .pure _

theorem safe_rcI64 : Safe rcI64 rcI64 := .bind safe_rcU64 fun _ => .pure _

theorem safe_rcStatus : Safe rcStatus rcStatus :=
  .bind safe_rcOk fun _ => .pure _

theorem safe_rcRepeat {rc : CheckedM α} {r : StateM RCursor α}
    (h : Safe rc r) (n : Nat) : Safe (rcRepeat rc n) (rcRepeat r n) := by
  induction n with
  | zero => exact .pure []
  | succ n ih => exact .bind h fun _ => .bind ih fun _ => .pure _

/-- A loop that fills an array, after its count was found in range. -/
theorem safe_fill {rc : CheckedM α} {r : StateM RCursor α} (h : Safe rc r)
    {n k : Nat} (hn : n ≤ k) (z : α) {fc : Vector α k → CheckedM β}
    {f : Vector α k → StateM RCursor β} (hf : ∀ v, Safe (fc v) (f v)) :
    Safe (rcRepeat rc n >>= fun l => rcFill z l >>= fc)
      (rcRepeat r n >>= fun l => rcFill z l >>= f) :=
  .bindY (safe_rcRepeat h n) (yields_rcRepeat r n) fun _ hl =>
    .bind (safe_rcFill z (hl ▸ hn)) hf

/-- The rest of a decoder runs only with a count in range. -/
theorem safe_guard {n m : Nat} {bad : α} {nc : CheckedM α}
    {next : StateM RCursor α} (h : n ≤ m → Safe nc next) :
    Safe (rcGuard n m bad nc) (rcGuard n m bad next) := by
  refine .bind safe_rcOk fun ok => ?_
  split
  · exact .pure bad
  next hpass =>
    simp only [Bool.or_eq_true, decide_eq_true_eq, not_or, not_lt] at hpass
    exact h hpass.2

-- =============================================================== decoders

section Decoders

variable {F : Type} [DoubleBits F]

theorem safe_rcF64 : Safe (rcF64 (F := F)) rcF64 :=
  .bind safe_rcU64 fun _ => .pure _

theorem safe_rcF64s {m : Nat} {count : UInt32} (h : count.toNat ≤ m) :
    Safe (rcF64s (F := F) (m := m) count) (rcF64s count) :=
  .bindY (safe_rcRepeat safe_rcF64 _) (yields_rcRepeat _ _) fun _ hl =>
    safe_rcFill _ (hl ▸ h)

theorem safe_rcObservation : Safe (rcObservation (F := F)) rcObservation :=
  .bind safe_rcU32 fun _ => .bind safe_rcU32 fun _ =>
  .bind safe_rcBytes32 fun _ => .bind safe_rcU64 fun _ =>
  .bind safe_rcU64 fun _ => .bind safe_rcI64 fun _ =>
  .bind safe_rcI64 fun _ => .bind safe_rcU32 fun _ =>
  .bind safe_rcF64 fun _ => .bind safe_rcU32 fun _ =>
  .bind safe_rcU32 fun _ => .bind safe_rcU32 fun _ =>
  .bind safe_rcU32 fun _ => .bind safe_rcU32 fun _ =>
  safe_guard fun hpayload =>
  .bind (safe_rcF64s hpayload) fun _ => .bind safe_rcU32 fun _ =>
  safe_guard fun hcovariance =>
  .bind (safe_rcF64s hcovariance) fun _ => .bind safe_rcOk fun _ => .pure _

theorem safe_rcResult : Safe (rcResult (F := F)) rcResult :=
  .bind safe_rcU32 fun _ => .bind safe_rcU32 fun _ =>
  .bind safe_rcBytes32 fun _ => .bind safe_rcU64 fun _ =>
  .bind safe_rcU32 fun _ => .bind safe_rcU64 fun _ =>
  .bind safe_rcU32 fun _ => .bind safe_rcU32 fun _ =>
  .bind safe_rcU32 fun _ =>
  safe_guard fun hpayload =>
  .bind (safe_rcF64s hpayload) fun _ => .bind safe_rcU32 fun _ =>
  safe_guard fun hcovariance =>
  .bind (safe_rcF64s hcovariance) fun _ => .bind safe_rcBytes32 fun _ =>
  .bind safe_rcBytes32 fun _ => .bind safe_rcI64 fun _ =>
  .bind safe_rcI64 fun _ => .bind safe_rcU32 fun _ =>
  safe_guard fun hsources =>
  safe_fill safe_rcBytes32 hsources _ fun _ => .bind safe_rcU32 fun _ =>
  .bind safe_rcOk fun _ => .pure _

theorem safe_rcSourcePosition : Safe rcSourcePosition rcSourcePosition :=
  .bind safe_rcBytes32 fun _ => .bind safe_rcU64 fun _ =>
  .bind safe_rcU64 fun _ => .pure _

theorem safe_rcCheckpoint : Safe (rcCheckpoint (F := F)) rcCheckpoint :=
  .bind safe_rcU32 fun _ => .bind safe_rcU32 fun _ =>
  .bind safe_rcBytes32 fun _ => .bind safe_rcU64 fun _ =>
  .bind safe_rcU32 fun _ => .bind safe_rcU32 fun _ =>
  safe_guard fun hdim =>
  .bind (safe_rcF64s hdim) fun _ =>
  .bind (safe_rcF64s (square_le hdim)) fun _ => .bind safe_rcU32 fun _ =>
  .bind safe_rcU32 fun _ => .bind safe_rcU32 fun _ =>
  .bind safe_rcU32 fun _ =>
  safe_guard fun hsources =>
  safe_fill safe_rcSourcePosition hsources _ fun _ =>
  .bind safe_rcI64 fun _ => .bind safe_rcOk fun _ => .pure _

theorem safe_rcEvent (payloadStorage : Option (List UInt8)) :
    Safe (rcEvent payloadStorage) (rcEvent payloadStorage) := by
  refine .bind safe_rcU32 fun _ => .bind safe_rcU32 fun _ =>
    .bind safe_rcU32 fun _ => .bind safe_rcU32 fun _ =>
    .bind safe_rcI64 fun _ => .bind safe_rcU32 fun payloadLen =>
    safe_guard fun hlen => ?_
  split
  · cases payloadStorage with
    | none => exact .pure _
    | some storage =>
        dsimp only
        split
        · exact .pure _
        next hroom =>
          exact .bind (safe_rcInto payloadLen.toNat_lt
            (Nat.le_of_not_lt hroom)) fun _ => .bind safe_rcOk fun _ =>
            .pure _
  · exact .bind safe_rcOk fun _ => .pure _

theorem safe_rcAuthHello : Safe rcAuthHello rcAuthHello :=
  .bind safe_rcU32 fun _ => .bind safe_rcU32 fun _ =>
  .bind safe_rcBytes32 fun _ => .bind safe_rcStatus fun _ => .pure _

theorem safe_rcHeartbeat : Safe rcHeartbeat rcHeartbeat :=
  .bind safe_rcU32 fun _ => .bind safe_rcU64 fun _ =>
  .bind safe_rcU64 fun _ => .bind safe_rcBytes32 fun _ =>
  .bind safe_rcU32 fun _ => .bind safe_rcU32 fun _ =>
  .bind safe_rcI64 fun _ => .bind safe_rcStatus fun _ => .pure _

theorem safe_rcEpochGrant : Safe rcEpochGrant rcEpochGrant :=
  .bind safe_rcU64 fun _ => .bind safe_rcU32 fun _ =>
  .bind safe_rcI64 fun _ => .bind safe_rcStatus fun _ => .pure _

theorem safe_rcEpochRevoke : Safe rcEpochRevoke rcEpochRevoke :=
  .bind safe_rcU64 fun _ => .bind safe_rcU32 fun _ =>
  .bind safe_rcI64 fun _ => .bind safe_rcU32 fun _ =>
  .bind safe_rcStatus fun _ => .pure _

theorem safe_rcReadinessReport : Safe rcReadinessReport rcReadinessReport :=
  .bind safe_rcU32 fun _ => .bind safe_rcBytes32 fun _ =>
  .bind safe_rcU32 fun _ => .bind safe_rcU64 fun _ =>
  .bind safe_rcU32 fun _ => .bind safe_rcStatus fun _ => .pure _

theorem safe_rcReplayRequest : Safe rcReplayRequest rcReplayRequest :=
  .bind safe_rcBytes32 fun _ => .bind safe_rcU64 fun _ =>
  .bind safe_rcStatus fun _ => .pure _

theorem safe_rcAdmissionDecision : Safe rcAdmissionDecision rcAdmissionDecision :=
  .bind safe_rcBytes32 fun _ => .bind safe_rcU64 fun _ =>
  .bind safe_rcBytes32 fun _ => .bind safe_rcU64 fun _ =>
  .bind safe_rcU32 fun _ => .bind safe_rcU32 fun _ =>
  .bind safe_rcI64 fun _ => .bind safe_rcStatus fun _ => .pure _

theorem safe_rcResultAck : Safe rcResultAck rcResultAck :=
  .bind safe_rcBytes32 fun _ => .bind safe_rcU64 fun _ =>
  .bind safe_rcU32 fun _ => .bind safe_rcI32 fun _ =>
  .bind safe_rcStatus fun _ => .pure _

theorem safe_rcStatusReply : Safe rcStatusReply rcStatusReply :=
  .bind safe_rcU32 fun _ => .bind safe_rcU64 fun _ =>
  .bind safe_rcU32 fun _ => .bind safe_rcU64 fun _ =>
  .bind safe_rcI64 fun _ => .bind safe_rcStatus fun _ => .pure _

/-- Every decoder is safe. -/
theorem safe_rcMsg (t : WireType) (payloadStorage : Option (List UInt8)) :
    Safe (rcMsg (F := F) t payloadStorage) (rcMsg t payloadStorage) := by
  cases t with
  | observation => exact .bind safe_rcObservation fun _ => .pure _
  | result => exact .bind safe_rcResult fun _ => .pure _
  | checkpoint => exact .bind safe_rcCheckpoint fun _ => .pure _
  | event => exact .bind (safe_rcEvent payloadStorage) fun _ => .pure _
  | authHello => exact .bind safe_rcAuthHello fun _ => .pure _
  | heartbeat => exact .bind safe_rcHeartbeat fun _ => .pure _
  | epochGrant => exact .bind safe_rcEpochGrant fun _ => .pure _
  | epochRevoke => exact .bind safe_rcEpochRevoke fun _ => .pure _
  | readinessReport => exact .bind safe_rcReadinessReport fun _ => .pure _
  | replayRequest => exact .bind safe_rcReplayRequest fun _ => .pure _
  | admissionDecision => exact .bind safe_rcAdmissionDecision fun _ => .pure _
  | resultAck => exact .bind safe_rcResultAck fun _ => .pure _
  | statusReply => exact .bind safe_rcStatusReply fun _ => .pure _

-- ================================================================= result

/-- A decoder's call on checked memory: `in_len` bytes, from the first. -/
def WireType.decodeChecked (t : WireType)
    (payloadStorage : Option (List UInt8)) (inp : List UInt8) :
    Option (Status × WireMsg F) :=
  ((rcMsg t payloadStorage : CheckedM _)
    ⟨inp, UInt32.ofNat inp.length, 0, true⟩).map Prod.fst

theorem decodeChecked_eq (t : WireType)
    (payloadStorage : Option (List UInt8)) {inp : List UInt8}
    (hlen : inp.length < 2 ^ 32) :
    t.decodeChecked (F := F) payloadStorage inp
      = some (t.decode payloadStorage inp) := by
  have hstart : CheckedCursor.Agrees ⟨inp, UInt32.ofNat inp.length, 0, true⟩
      (RCursor.start inp) :=
    ⟨rfl, UInt32.toNat_ofNat_of_lt' hlen, rfl, rfl⟩
  obtain ⟨c', hrun, -⟩ := safe_rcMsg (F := F) t payloadStorage _ _ hstart
  rw [WireType.decodeChecked, hrun, decode_eq]
  rfl

/-- For every decoder and every buffer a caller may pass with it: on any
input of a 32-bit length it touches nothing outside the input and the
arrays; what it accepts has its counts in range; and of an encoded
payload it refuses every strict prefix. -/
theorem decoders_safe (t : WireType)
    (payloadStorage : Option (List UInt8)) :
    (∀ inp : List UInt8, inp.length < 2 ^ 32 →
      t.decodeChecked (F := F) payloadStorage inp
        = some (t.decode payloadStorage inp))
    ∧ (∀ (inp : List UInt8) (m : WireMsg F),
      t.decode payloadStorage inp = (.ok, m) → m.type = t ∧ m.Encodable)
    ∧ ∀ (m : WireMsg F), m.type = t → m.Encodable →
      ∀ (outCap : Nat) (pre suf : List UInt8),
      m.encode outCap = .ok (pre ++ suf) → suf ≠ [] →
      (t.decode (F := F) payloadStorage pre).1 ≠ .ok := by
  refine ⟨fun inp hlen => decodeChecked_eq t payloadStorage hlen,
    fun inp m hdec => ?_, fun m htype henc outCap pre suf hencode => ?_⟩
  · obtain ⟨hdecoded, -⟩ := decode_accepts hdec
    exact ⟨hdecoded.type, hdecoded.encodable⟩
  · rw [encode_eq henc] at hencode
    split at hencode
    · intro hsuf
      exact decode_prefix htype henc (Except.ok.inj hencode).symm hsuf
        payloadStorage
    · cases hencode

end Decoders

/-- A replay request cut by one byte. -/
theorem decoders_safe_cut :
    (WireType.replayRequest.decode (F := Binary64) none
      replayRequest.bytes.dropLast).1 ≠ .ok := by
  have hencode : (WireMsg.replayRequest (F := Binary64)
      replayRequest).encode 64
      = .ok (replayRequest.bytes.dropLast ++ [0]) := by
    rw [encode_eq (m := .replayRequest replayRequest) trivial]
    decide +kernel
  exact (decoders_safe .replayRequest none).2.2
    (.replayRequest replayRequest) rfl trivial 64 _ _ hencode (by simp)

end Obicall
