/-
Framing does not depend on fragmentation.

# The loops

`sendAll_spec` and `recvAll_spec` say what the loops move whatever the
network does: a send that succeeds wrote its buffer, a receive takes
bytes off the front of the stream and loses none of them, and it times
out cleanly only before its first byte. `recvAll_ok` adds that it does
succeed on a network that never stalls.

# The position

At a frame boundary a call gives the next frame and moves to the next
boundary, or times out and stays, or fails (`recv_boundary`). A failed
call may stop anywhere, which is why `osal.h` has its caller close the
connection; up to there the position is a boundary
(`AtBoundary`), and the frames given are those before it.
-/
import Mathlib.Data.List.Basic
import Obicall.Lib.Run
import Obicall.Osal.Frame

namespace Obicall

open Lib.Run

-- ================================================================== send

theorem sendAll_nil (net : List NetEvent) :
    sendAll [] net = ⟨.ok, [], net⟩ := by
  cases net with
  | nil => rfl
  | cons e net => cases e <;> rfl

theorem sendAll_ready {buf : List UInt8} (hbuf : buf ≠ []) (n : Nat)
    (net : List NetEvent) :
    sendAll buf (.ready n :: net)
      = ⟨(sendAll (buf.drop (n + 1)) net).ret,
          buf.take (n + 1) ++ (sendAll (buf.drop (n + 1)) net).written,
          (sendAll (buf.drop (n + 1)) net).net⟩ := by
  rw [sendAll, if_neg hbuf]

/-- A `send_all` that succeeds wrote its buffer. -/
theorem sendAll_spec (buf : List UInt8) (net : List NetEvent)
    (hok : (sendAll buf net).ret = .ok) : (sendAll buf net).written = buf := by
  by_cases hbuf : buf = []
  · rw [hbuf, sendAll_nil]
  induction net generalizing buf with
  | nil =>
      rw [sendAll, if_neg hbuf] at hok
      cases hok
  | cons e net ih =>
      cases e with
      | timeout =>
          rw [sendAll, if_neg hbuf] at hok
          cases hok
      | failed =>
          rw [sendAll, if_neg hbuf] at hok
          cases hok
      | ready n =>
          rw [sendAll_ready hbuf] at hok ⊢
          have hrest : (sendAll (buf.drop (n + 1)) net).written
              = buf.drop (n + 1) := by
            by_cases hdrop : buf.drop (n + 1) = []
            · rw [hdrop, sendAll_nil]
            · exact ih _ hok hdrop
          show buf.take (n + 1) ++ _ = buf
          rw [hrest, List.take_append_drop]

/-- A frame that was sent is small enough and is on the wire whole. -/
theorem osalSendFrame_ok {f : Frame} {net : List NetEvent}
    (hok : (osalSendFrame f net).1 = .ok) :
    f.payload.length ≤ wireMaxPayload ∧ (osalSendFrame f net).2 = f.bytes := by
  rw [osalSendFrame] at hok ⊢
  by_cases hbig : f.payload.length > wireMaxPayload
  · rw [if_pos hbig] at hok
    cases hok
  · rw [if_neg hbig, obicallWireEncodeHeader_eq] at hok ⊢
    refine ⟨Nat.not_lt.mp hbig, ?_⟩
    dsimp only at hok ⊢
    by_cases hhdr : (sendAll f.header.bytes net).ret ≠ .ok
    · rw [if_pos hhdr] at hok
      cases hok
    · rw [if_neg hhdr] at hok ⊢
      have hwrote := sendAll_spec _ _ (not_not.mp hhdr)
      by_cases hpay : f.payload.length > 0
      · rw [if_pos hpay] at hok ⊢
        dsimp only at hok ⊢
        split at hok
        · cases hok
        next hbody =>
          rw [hwrote, sendAll_spec _ _ (not_not.mp hbody)]
          rfl
      · rw [if_neg hpay]
        have hnil : f.payload = [] := List.length_eq_zero_iff.mp (by omega)
        show (sendAll f.header.bytes net).written = f.bytes
        rw [hwrote, Frame.bytes, hnil, List.append_nil]

-- =============================================================== receive

/-- What `recv_all` does to the stream, whatever the network does. -/
structure RecvAll.Sound (r : RecvAll) (len : Nat) (got stream : List UInt8) :
    Prop where
  nothing_lost : r.bytes ++ r.stream = got ++ stream
  full : r.ret = .ok → r.bytes.length = len
  clean : r.ret = .timedOut → r.bytes = []

theorem timeoutRet_ne_ok (got : List UInt8) : timeoutRet got ≠ .ok := by
  rw [timeoutRet]
  split <;> nofun

theorem eq_nil_of_timeoutRet {got : List UInt8}
    (h : timeoutRet got = .timedOut) : got = [] := by
  rw [timeoutRet] at h
  split at h
  next hgot => exact List.length_eq_zero_iff.mp hgot
  · cases h

theorem recvAll_done {len : Nat} {got : List UInt8}
    (hgot : got.length = len) (stream : List UInt8) (net : List NetEvent) :
    recvAll len got stream net = ⟨.ok, got, stream, net⟩ := by
  have hdone : ¬ got.length < len := by omega
  cases net with
  | nil => rw [recvAll, if_neg hdone]
  | cons e net => cases e <;> rw [recvAll, if_neg hdone]

/-- One `recv`: a non-empty piece of the stream is read. -/
theorem recvAll_ready {len : Nat} {got stream : List UInt8}
    (hlt : got.length < len) (hstream : stream ≠ []) (n : Nat)
    (net : List NetEvent) :
    ∃ chunk, 0 < chunk ∧ got.length + chunk ≤ len
      ∧ recvAll len got stream (.ready n :: net)
        = recvAll len (got ++ stream.take chunk) (stream.drop chunk) net := by
  refine ⟨min (n + 1) (len - got.length), by omega, by omega, ?_⟩
  rw [recvAll, if_pos hlt, if_neg hstream]

theorem sound_done {len : Nat} {got : List UInt8} (hgot : got.length = len)
    (stream : List UInt8) (net : List NetEvent) :
    RecvAll.Sound ⟨.ok, got, stream, net⟩ len got stream :=
  ⟨rfl, fun _ => hgot, nofun⟩

theorem sound_timeout (len : Nat) (got stream : List UInt8)
    (net : List NetEvent) :
    RecvAll.Sound ⟨timeoutRet got, got, stream, net⟩ len got stream :=
  ⟨rfl, fun h => absurd h (timeoutRet_ne_ok got), eq_nil_of_timeoutRet⟩

theorem sound_failed (len : Nat) (got stream : List UInt8)
    (net : List NetEvent) :
    RecvAll.Sound ⟨.failed, got, stream, net⟩ len got stream :=
  ⟨rfl, nofun, nofun⟩

theorem recvAll_spec {len : Nat} {got : List UInt8} (hgot : got.length ≤ len)
    (stream : List UInt8) (net : List NetEvent) :
    (recvAll len got stream net).Sound len got stream := by
  induction net generalizing got stream with
  | nil =>
      rcases Nat.lt_or_eq_of_le hgot with hlt | hdone
      · rw [recvAll, if_pos hlt]
        exact sound_timeout len got stream []
      · rw [recvAll_done hdone]
        exact sound_done hdone stream []
  | cons e net ih =>
      rcases Nat.lt_or_eq_of_le hgot with hlt | hdone
      · cases e with
        | timeout =>
            rw [recvAll, if_pos hlt]
            exact sound_timeout len got stream net
        | failed =>
            rw [recvAll, if_pos hlt]
            exact sound_failed len got stream net
        | ready n =>
            by_cases hnil : stream = []
            · rw [recvAll, if_pos hlt, if_pos hnil]
              exact sound_failed len got stream net
            · obtain ⟨chunk, -, hroom, he⟩ := recvAll_ready hlt hnil n net
              have hlen : (got ++ stream.take chunk).length ≤ len := by
                rw [List.length_append, List.length_take]
                omega
              obtain ⟨hlost, hfull, hclean⟩ := ih hlen (stream.drop chunk)
              rw [he]
              refine ⟨?_, hfull, hclean⟩
              rw [hlost, List.append_assoc, List.take_append_drop]
      · rw [recvAll_done hdone]
        exact sound_done hdone stream _

/-- The same for a call of `recv_all`, which starts with nothing read. -/
theorem recvAll_sound (len : Nat) (stream : List UInt8)
    (net : List NetEvent) :
    (recvAll len [] stream net).Sound len [] stream :=
  recvAll_spec (Nat.zero_le len) stream net

/-- A `recv_all` that succeeds takes the next `len` bytes. -/
theorem recvAll_full {len : Nat} {stream : List UInt8} {net : List NetEvent}
    (hok : (recvAll len [] stream net).ret = .ok)
    (hlen : len ≤ stream.length) :
    (recvAll len [] stream net).bytes = stream.take len
      ∧ (recvAll len [] stream net).stream = stream.drop len := by
  obtain ⟨hlost, hfull, -⟩ := recvAll_sound len stream net
  have htake : (stream.take len).length = len := List.length_take_of_le hlen
  refine List.append_inj ?_ ((hfull hok).trans htake.symm)
  rw [hlost, List.take_append_drop, List.nil_append]

/-- A `recv_all` that times out cleanly took nothing. -/
theorem recvAll_clean {len : Nat} {stream : List UInt8} {net : List NetEvent}
    (h : (recvAll len [] stream net).ret = .timedOut) :
    (recvAll len [] stream net).stream = stream := by
  obtain ⟨hlost, -, hclean⟩ := recvAll_sound len stream net
  rw [hclean h] at hlost
  exact hlost

/-- A network that never stalls for the next `len` bytes, even if it
moves them one at a time. -/
def Attends (net : List NetEvent) (len : Nat) : Prop :=
  len ≤ net.length ∧ ∀ e ∈ net, ∃ n, e = .ready n

/-- On such a network `recv_all` succeeds, and leaves one that does not
stall for the bytes after. -/
theorem recvAll_ok {len more : Nat} {got stream : List UInt8}
    {net : List NetEvent} (hgot : got.length ≤ len)
    (hlen : len ≤ got.length + stream.length)
    (hnet : Attends net (len - got.length + more)) :
    (recvAll len got stream net).ret = .ok
      ∧ Attends (recvAll len got stream net).net more := by
  induction net generalizing got stream with
  | nil =>
      obtain ⟨hmany, hready⟩ := hnet
      rw [List.length_nil] at hmany
      rw [recvAll_done (by omega)]
      exact ⟨rfl, Nat.le_trans (Nat.le_add_left ..) hmany, hready⟩
  | cons e net ih =>
      obtain ⟨hmany, hready⟩ := hnet
      rcases Nat.lt_or_eq_of_le hgot with hlt | hdone
      · obtain ⟨⟨n, rfl⟩, hrest⟩ := List.forall_mem_cons.mp hready
        have hnil : stream ≠ [] := by
          rintro rfl
          rw [List.length_nil] at hlen
          omega
        obtain ⟨chunk, hpos, hroom, he⟩ := recvAll_ready hlt hnil n net
        rw [List.length_cons] at hmany
        rw [he]
        -- one event is used, and at least one byte read
        apply ih
        · rw [List.length_append, List.length_take]
          omega
        · rw [List.length_append, List.length_take, List.length_drop]
          omega
        · refine ⟨?_, hrest⟩
          rw [List.length_append, List.length_take]
          omega
      · rw [recvAll_done hdone]
        exact ⟨rfl, Nat.le_trans (Nat.le_add_left ..) hmany, hready⟩

theorem recvAll_of_attends {len more : Nat} {stream : List UInt8}
    {net : List NetEvent} (hlen : len ≤ stream.length)
    (hnet : Attends net (len + more)) :
    (recvAll len [] stream net).ret = .ok
      ∧ Attends (recvAll len [] stream net).net more :=
  recvAll_ok (Nat.zero_le len) (Nat.le_trans hlen (Nat.le_add_left ..)) hnet

-- ============================================================ one frame

theorem toList_hdrBuf {bytes : List UInt8}
    (hlen : bytes.length = wireHeaderLen) : (hdrBuf bytes).toList = bytes := by
  apply List.ext_getElem
  · rw [Vector.length_toList, hlen]
  · intro i h₁ h₂
    simp [hdrBuf, List.getElem?_eq_getElem h₂]

/-- The header of a frame that can be sent is one a receiver accepts. -/
theorem Frame.header_supported {f : Frame}
    (hf : f.payload.length ≤ wireMaxPayload) : f.header.Supported :=
  ⟨rfl, Nat.le_trans (Nat.mod_le ..) hf⟩

theorem Frame.toNat_payloadLen {f : Frame}
    (hf : f.payload.length ≤ wireMaxPayload) :
    f.header.payloadLen.toNat = f.payload.length :=
  Nat.mod_eq_of_lt (Nat.lt_of_le_of_lt hf (by decide))

theorem Frame.length_bytes (f : Frame) :
    f.bytes.length = wireHeaderLen + f.payload.length := by
  rw [Frame.bytes, List.length_append, WireHeader.length_bytes]

/-- A `recv_all` that succeeds on `bs ++ rest` reads `bs`. -/
theorem recvAll_append {bs rest : List UInt8} {net : List NetEvent}
    (hok : (recvAll bs.length [] (bs ++ rest) net).ret = .ok) :
    (recvAll bs.length [] (bs ++ rest) net).bytes = bs
      ∧ (recvAll bs.length [] (bs ++ rest) net).stream = rest := by
  have hlen : bs.length ≤ (bs ++ rest).length := by
    rw [List.length_append]
    exact Nat.le_add_right ..
  obtain ⟨hbytes, hstream⟩ := recvAll_full hok hlen
  exact ⟨hbytes.trans List.take_left, hstream.trans List.drop_left⟩

variable {f : Frame} {rest : List UInt8} {net : List NetEvent}

/-- The payload of a frame that is next in the stream: read whole, its
checksum is the header's, so only the network or the buffer's size can
fail the call. -/
theorem osalRecvPayload_eq (hf : f.payload.length ≤ wireMaxPayload)
    (cap : UInt32) :
    osalRecvPayload cap f.header (f.payload ++ rest) net
      = let body := recvAll f.payload.length [] (f.payload ++ rest) net
        if f.header.payloadLen > cap then (.failed, f.payload ++ rest)
        else if body.ret ≠ .ok then (.failed, body.stream)
        else (.frame f, rest) := by
  have hbody : (if f.header.payloadLen > 0 then
      recvAll f.header.payloadLen.toNat [] (f.payload ++ rest) net
      else ⟨.ok, [], f.payload ++ rest, net⟩)
      = recvAll f.payload.length [] (f.payload ++ rest) net := by
    rw [Frame.toNat_payloadLen hf]
    split
    · rfl
    next hzero =>
      -- nothing to receive, which is what `recvAll` makes of it
      have hlen : f.payload.length = 0 := by
        rw [← Frame.toNat_payloadLen hf]
        exact Nat.le_zero.mp (Nat.not_lt.mp hzero)
      rw [hlen]
      exact (recvAll_done rfl _ net).symm
  have hcrc : obicallCrc32 f.payload = f.header.crc32 := rfl
  rw [osalRecvPayload, hbody]
  dsimp only
  congr 1
  split
  · rfl
  next hok =>
    obtain ⟨hbytes, hstream⟩ := recvAll_append (not_not.mp hok)
    rw [hbytes, hstream, if_neg (not_not.mpr hcrc)]
    rfl

/-- A header that is next in the stream, read whole, is decoded. -/
theorem osalRecvFrame_eq (hf : f.payload.length ≤ wireMaxPayload)
    (cap : UInt32)
    (hok : (recvAll wireHeaderLen [] (f.bytes ++ rest) net).ret = .ok) :
    osalRecvFrame cap (f.bytes ++ rest) net
      = osalRecvPayload cap f.header (f.payload ++ rest)
          (recvAll wireHeaderLen [] (f.bytes ++ rest) net).net := by
  have hsplit : f.bytes ++ rest = f.header.bytes ++ (f.payload ++ rest) :=
    List.append_assoc ..
  have hhdr : (recvAll wireHeaderLen [] (f.bytes ++ rest) net).bytes
      = f.header.bytes ∧
      (recvAll wireHeaderLen [] (f.bytes ++ rest) net).stream
        = f.payload ++ rest := by
    rw [hsplit, ← f.header.length_bytes] at hok ⊢
    exact recvAll_append hok
  have hdec : obicallWireDecodeHeader (hdrBuf f.header.bytes) .zero
      = (.ok, f.header) :=
    obicallWireDecodeHeader_bytes (Frame.header_supported hf)
      (toList_hdrBuf f.header.length_bytes) .zero
  rw [osalRecvFrame, if_neg (not_not.mpr hok), hhdr.1, hhdr.2, hdec]

/-- A call at a frame boundary gives the frame there, or leaves it, or
fails. -/
theorem recv_boundary (hf : f.payload.length ≤ wireMaxPayload)
    (cap : UInt32) (rest : List UInt8) (net : List NetEvent) :
    osalRecvFrame cap (f.bytes ++ rest) net = (.frame f, rest)
      ∨ osalRecvFrame cap (f.bytes ++ rest) net
        = (.timedOut, f.bytes ++ rest)
      ∨ (osalRecvFrame cap (f.bytes ++ rest) net).1 = .failed := by
  cases hret : (recvAll wireHeaderLen [] (f.bytes ++ rest) net).ret with
  | timedOut =>
      rw [osalRecvFrame, if_pos (by rw [hret]; nofun), recvAll_clean hret, hret]
      exact .inr (.inl rfl)
  | failed =>
      rw [osalRecvFrame, if_pos (by rw [hret]; nofun), hret]
      exact .inr (.inr rfl)
  | ok =>
      rw [osalRecvFrame_eq hf cap hret, osalRecvPayload_eq hf]
      dsimp only
      split
      · exact .inr (.inr rfl)
      · split
        · exact .inr (.inr rfl)
        · exact .inl rfl

/-- It gives the frame when the network does not stall for it and the
buffer holds it. -/
theorem recv_attended (hf : f.payload.length ≤ wireMaxPayload)
    {cap : UInt32} (hcap : f.payload.length ≤ cap.toNat)
    (hnet : Attends net f.bytes.length) (rest : List UInt8) :
    osalRecvFrame cap (f.bytes ++ rest) net = (.frame f, rest) := by
  rw [f.length_bytes] at hnet
  have hlong : wireHeaderLen ≤ (f.bytes ++ rest).length := by
    rw [List.length_append, f.length_bytes]
    omega
  have hlong' : f.payload.length ≤ (f.payload ++ rest).length := by
    rw [List.length_append]
    omega
  obtain ⟨hok, hmore⟩ := recvAll_of_attends hlong hnet
  obtain ⟨hbody, -⟩ := @recvAll_of_attends _ 0 _ _ hlong' hmore
  have hfits : ¬ f.header.payloadLen > cap := by
    rw [gt_iff_lt, UInt32.lt_iff_toNat_lt, Frame.toNat_payloadLen hf]
    exact Nat.not_lt.mpr hcap
  rw [osalRecvFrame_eq hf cap hok, osalRecvPayload_eq hf]
  dsimp only
  rw [if_neg hfits, if_neg (not_not.mpr hbody)]

/-- A call on a stream with nothing left times out or fails. -/
theorem recv_empty (cap : UInt32) (net : List NetEvent) :
    osalRecvFrame cap [] net = (.timedOut, [])
      ∨ (osalRecvFrame cap [] net).1 = .failed := by
  cases hret : (recvAll wireHeaderLen [] [] net).ret with
  | timedOut =>
      rw [osalRecvFrame, if_pos (by rw [hret]; nofun), recvAll_clean hret, hret]
      exact .inl rfl
  | failed =>
      rw [osalRecvFrame, if_pos (by rw [hret]; nofun), hret]
      exact .inr rfl
  | ok =>
      exfalso
      obtain ⟨hlost, hfull, -⟩ := recvAll_sound wireHeaderLen [] net
      have hnil := (List.append_eq_nil_iff.mp hlost).1
      have hlen := hfull hret
      rw [hnil] at hlen
      cases hlen

theorem osalRecvPayload_ne_timedOut (cap : UInt32) (hdr : WireHeader)
    (stream : List UInt8) (net : List NetEvent) :
    (osalRecvPayload cap hdr stream net).1 ≠ .timedOut := by
  rw [osalRecvPayload]
  split
  · nofun
  · generalize (if hdr.payloadLen > 0 then
      recvAll hdr.payloadLen.toNat [] stream net
      else ⟨.ok, [], stream, net⟩) = body
    dsimp only
    split
    · nofun
    · split <;> nofun

/-- A call that times out consumed nothing, wherever the stream stands. -/
theorem recv_timedOut {cap : UInt32} {stream : List UInt8}
    {net : List NetEvent}
    (h : (osalRecvFrame cap stream net).1 = .timedOut) :
    (osalRecvFrame cap stream net).2 = stream := by
  rw [osalRecvFrame] at h ⊢
  by_cases hok : (recvAll wireHeaderLen [] stream net).ret = .ok
  · exfalso
    rw [if_neg (not_not.mpr hok)] at h
    split at h
    · exact osalRecvPayload_ne_timedOut _ _ _ _ h
    · cases h
  · rw [if_pos hok] at h ⊢
    cases hret : (recvAll wireHeaderLen [] stream net).ret with
    | timedOut => exact recvAll_clean hret
    | failed =>
        rw [hret] at h
        cases h
    | ok => exact absurd hret hok

-- ================================================================== runs

/-- The receiver at the boundary after the first `k` of the frames
sent. -/
def Receiver.boundary (sent : List Frame) (k : Nat) : Receiver where
  stream := (sent.drop k).flatMap Frame.bytes
  frames := sent.take k

/-- Frames that were all sent are on the wire one after the other. -/
theorem wireOf_eq {sends : List (Frame × List NetEvent)}
    (hok : ∀ s ∈ sends, (osalSendFrame s.1 s.2).1 = .ok) :
    wireOf sends = (sends.map Prod.fst).flatMap Frame.bytes := by
  induction sends with
  | nil => rfl
  | cons s sends ih =>
      obtain ⟨hs, hsends⟩ := List.forall_mem_cons.mp hok
      rw [wireOf, List.flatMap_cons, (osalSendFrame_ok hs).2,
        List.map_cons, List.flatMap_cons]
      exact congrArg (s.1.bytes ++ ·) (ih hsends)

section
variable {sent : List Frame} {k : Nat}

theorem boundary_lt (hk : k < sent.length) :
    (Receiver.boundary sent k).stream
      = sent[k].bytes ++ (Receiver.boundary sent (k + 1)).stream := by
  rw [Receiver.boundary, List.drop_eq_getElem_cons hk, List.flatMap_cons]
  rfl

theorem boundary_length (sent : List Frame) :
    (Receiver.boundary sent sent.length).stream = [] := by
  rw [Receiver.boundary, List.drop_length]
  rfl

/-- A call that gives the next frame moves to the next boundary. -/
theorem step_boundary_frame (hk : k < sent.length) {c : RecvCall}
    (h : (Receiver.boundary sent k).recv c
      = (.frame sent[k], (Receiver.boundary sent (k + 1)).stream)) :
    (Receiver.boundary sent k).step c = .boundary sent (k + 1) := by
  rw [Receiver.step, h]
  show (⟨_, sent.take k ++ [sent[k]]⟩ : Receiver) = .boundary sent (k + 1)
  rw [List.take_append_getElem hk]
  rfl

theorem step_timedOut {r : Receiver} {c : RecvCall}
    (h : (r.recv c).1 = .timedOut) : r.step c = r := by
  have hstream : (r.recv c).2 = r.stream := recv_timedOut h
  rw [Receiver.step, h, hstream]

theorem step_failed {r : Receiver} {c : RecvCall}
    (h : (r.recv c).1 = .failed) : (r.step c).frames = r.frames := by
  rw [Receiver.step, h]

/-- From a boundary a call that does not fail goes to a boundary: the
same, or the next. -/
theorem step_boundary (hsent : ∀ f ∈ sent, f.payload.length ≤ wireMaxPayload)
    (hk : k ≤ sent.length) {c : RecvCall}
    (hc : ((Receiver.boundary sent k).recv c).1 ≠ .failed) :
    (Receiver.boundary sent k).step c = .boundary sent k
      ∨ (k < sent.length
        ∧ (Receiver.boundary sent k).step c = .boundary sent (k + 1)) := by
  rcases Nat.lt_or_eq_of_le hk with hlt | rfl
  · have hcall := recv_boundary (hsent _ (List.getElem_mem hlt)) c.payloadCap
      (Receiver.boundary sent (k + 1)).stream c.net
    rw [← boundary_lt hlt] at hcall
    rcases hcall with h | h | h
    · exact .inr ⟨hlt, step_boundary_frame hlt h⟩
    · exact .inl (step_timedOut (congrArg Prod.fst h))
    · exact absurd h hc
  · have hcall := recv_empty c.payloadCap c.net
    rw [← boundary_length sent] at hcall
    rcases hcall with h | h
    · exact .inl (step_timedOut (congrArg Prod.fst h))
    · exact absurd h hc

/-- A call the network attends to, with a buffer for the frame. -/
def RecvCall.Attends (c : RecvCall) (f : Frame) : Prop :=
  f.payload.length ≤ c.payloadCap.toNat
    ∧ Obicall.Attends c.net f.bytes.length

theorem step_attended (hsent : ∀ f ∈ sent, f.payload.length ≤ wireMaxPayload)
    (hk : k < sent.length) {c : RecvCall} (hc : c.Attends sent[k]) :
    (Receiver.boundary sent k).step c = .boundary sent (k + 1) := by
  have hcall := recv_attended (hsent _ (List.getElem_mem hk)) hc.1 hc.2
    (Receiver.boundary sent (k + 1)).stream
  rw [← boundary_lt hk] at hcall
  exact step_boundary_frame hk hcall

/-- No call of the run fails. -/
abbrev NoneFails (r : Receiver) (calls : List RecvCall) : Prop :=
  Meets Receiver.step (fun r c => (r.recv c).1 ≠ .failed) r calls

/-- Calls of which enough are attended to give every frame left, whatever
the others do short of failing. -/
theorem run_attended (hsent : ∀ f ∈ sent, f.payload.length ≤ wireMaxPayload)
    (hk : k ≤ sent.length) {more reads : List RecvCall}
    (hmore : NoneFails (.boundary sent k) more) (hreads : reads.Sublist more)
    (hattend : List.Forall₂ RecvCall.Attends reads (sent.drop k)) :
    (run Receiver.step (.boundary sent k) more).frames = sent := by
  induction more generalizing k reads with
  | nil =>
      rw [List.sublist_nil.mp hreads] at hattend
      have hend : sent.drop k = [] := List.forall₂_nil_left_iff.mp hattend
      exact List.take_of_length_le (List.drop_eq_nil_iff.mp hend)
  | cons c more ih =>
      rw [run_cons]
      -- a call the plan did not count on may still give the frame
      have hnext (hlt : k < sent.length) {reads : List RecvCall}
          (hreads : reads.Sublist more)
          (hattend : List.Forall₂ RecvCall.Attends reads (sent.drop (k + 1)))
          (hstep : (Receiver.boundary sent k).step c
            = .boundary sent (k + 1)) :
          (run Receiver.step ((Receiver.boundary sent k).step c) more).frames
            = sent := by
        have hrest := hmore.2
        rw [hstep] at hrest ⊢
        exact ih hlt hrest hreads hattend
      cases hreads with
      | cons _ hreads =>
          rcases step_boundary hsent hk hmore.1 with hstep | ⟨hlt, hstep⟩
          · have hrest := hmore.2
            rw [hstep] at hrest ⊢
            exact ih hk hrest hreads hattend
          · rw [List.drop_eq_getElem_cons hlt] at hattend
            cases hattend with
            | cons _ hattend =>
                exact hnext hlt (List.sublist_of_cons_sublist hreads)
                  hattend hstep
      | cons_cons _ hreads =>
          have hlt : k < sent.length := by
            by_contra hge
            rw [List.drop_of_length_le (Nat.le_of_not_lt hge)] at hattend
            cases hattend
          rw [List.drop_eq_getElem_cons hlt] at hattend
          obtain ⟨hc, hattend⟩ := List.forall₂_cons.mp hattend
          exact hnext hlt hreads hattend (step_attended hsent hlt hc)

end

/-- Whatever the network does, up to the first call that fails the frames
given are those sent, in order, and the receiver stands between two of
them; a call that times out consumed nothing; and calls that do not fail
give every frame, once the network attends to as many as are left. -/
theorem framing_independent {sends : List (Frame × List NetEvent)}
    (hsends : ∀ s ∈ sends, (osalSendFrame s.1 s.2).1 = .ok)
    {calls : List RecvCall}
    (hcalls : NoneFails (.start (wireOf sends)) calls) :
    let sent := sends.map Prod.fst
    let r := run Receiver.step (.start (wireOf sends)) calls
    (∃ k ≤ sent.length, r.frames = sent.take k
      ∧ r.stream = (sent.drop k).flatMap Frame.bytes
      ∧ ∀ more reads, NoneFails r more → reads.Sublist more →
          List.Forall₂ RecvCall.Attends reads (sent.drop k) →
          (run Receiver.step r more).frames = sent)
    ∧ ∀ c, (r.step c).frames <+: sent
      ∧ ((r.recv c).1 = .timedOut → r.step c = r) := by
  intro sent r
  have hsmall : ∀ f ∈ sent, f.payload.length ≤ wireMaxPayload := by
    intro f hf
    obtain ⟨s, hs, rfl⟩ := List.mem_map.mp hf
    exact (osalSendFrame_ok (hsends s hs)).1
  have hstart : Receiver.start (wireOf sends) = .boundary sent 0 := by
    rw [wireOf_eq hsends]
    rfl
  obtain ⟨k, hk, hr⟩ : ∃ k ≤ sent.length, r = .boundary sent k := by
    refine run_inv_of_meets
      (P := fun r => ∃ k ≤ sent.length, r = .boundary sent k) ?_
      ⟨0, Nat.zero_le _, hstart⟩ hcalls
    rintro _ c ⟨k, hk, rfl⟩ hc
    rcases step_boundary hsmall hk hc with h | ⟨hlt, h⟩
    · exact ⟨k, hk, h⟩
    · exact ⟨k + 1, hlt, h⟩
  refine ⟨⟨k, hk, ?_, ?_, ?_⟩, fun c => ⟨?_, step_timedOut⟩⟩
  · rw [hr]
    rfl
  · rw [hr]
    rfl
  · intro more reads hmore hreads hattend
    rw [hr] at hmore ⊢
    exact run_attended hsmall hk hmore hreads hattend
  · rw [hr]
    by_cases hc : ((Receiver.boundary sent k).recv c).1 = .failed
    · rw [step_failed hc]
      exact List.take_prefix k sent
    · rcases step_boundary hsmall hk hc with h | ⟨-, h⟩
      · rw [h]
        exact List.take_prefix k sent
      · rw [h]
        exact List.take_prefix (k + 1) sent

/-- Two frames of which the second comes one byte at a time. -/
def twoSends : List (Frame × List NetEvent) :=
  [(⟨msgHeartbeat, [7, 8]⟩, [.ready 3, .ready 20, .ready 1]),
    (⟨msgResultAck, [9]⟩, [.ready 15, .ready 0])]

/-- The first call waits, the second gets the first frame in pieces. -/
def waitThenRead : List RecvCall :=
  [⟨64, [.timeout]⟩, ⟨64, [.ready 4, .ready 40, .ready 0, .ready 0]⟩]

theorem framing_independent_pieces :
    (∀ s ∈ twoSends, (osalSendFrame s.1 s.2).1 = .ok)
    ∧ NoneFails (.start (wireOf twoSends)) waitThenRead
    ∧ ∀ c, ((run Receiver.step (.start (wireOf twoSends))
      waitThenRead).step c).frames <+: twoSends.map Prod.fst := by
  have hsends : ∀ s ∈ twoSends, (osalSendFrame s.1 s.2).1 = .ok := by
    decide +kernel
  have hcalls : NoneFails (.start (wireOf twoSends)) waitThenRead := by
    decide +kernel
  refine ⟨hsends, hcalls, fun c => ?_⟩
  exact ((framing_independent hsends hcalls).2 c).1

/-- A frame whose payload is itself a frame. -/
def envelope : Frame := ⟨msgObservationSubmit, Frame.bytes ⟨msgHeartbeat, []⟩⟩

/-- A call that reads the header and then stalls fails; called again, it
takes what the payload holds for a frame. -/
theorem stalled_call_reads_payload :
    let sends := [(envelope, [NetEvent.ready 15, .ready 15])]
    let calls : List RecvCall := [⟨64, [.ready 15]⟩, ⟨64, [.ready 15]⟩]
    (∀ s ∈ sends, (osalSendFrame s.1 s.2).1 = .ok
      ∧ s.1.payload.length ≤ 64)
    ∧ ¬ (run Receiver.step (.start (wireOf sends)) calls).frames
      <+: sends.map Prod.fst := by
  decide +kernel

end Obicall
