/-
Replies match requests on the broker's connection to the gate, until a
read times out.

# The numbers

The gate answers every request of the main loop once (`serve_answers`),
so the connection is an `Exchange` in order, and the reply read next
answers the first request whose reply was not read. The main loop gives
up a reply whenever a read times out: it has sent as many requests as it
has read replies and given up, and the one it is waiting for
(`LinkInv.count`).

# The law

A frame is read after the request it answers exactly when no reply was
given up before (`read_paired_iff`), since a reply that is given up still
arrives, and is read after the next request. With that, a run is paired
exactly when every read of it is on time (`replies_paired_iff`).
-/
import Mathlib.Data.List.Basic
import Obicall.Broker.GateLink
import Obicall.Gate.Proofs.Lives

namespace Obicall

open Lib.Pairing Lib.Run

variable {F : Type}

-- ============================================================= statement

/-- A frame read is the reply to the request just sent, and after a
heartbeat the broker believes in the epoch of that reply. -/
def Read.Paired (answers : List (Nat × Answer F)) (r : Read) : Prop :=
  r.answered = r.asked
    ∧ (r.request = .heartbeat →
      ∃ m, answers.lookup r.asked = some (.statusReply m)
        ∧ r.epochBelief = m.gateEpoch)

/-- Every frame read so far. -/
def Link.Paired (s : Link F) : Prop := ∀ r ∈ s.reads, r.Paired s.answers

/-- A frame is read only while no read has timed out. -/
def Link.OnTime (s : Link F) : LinkEvent F → Prop
  | .read => s.awaiting = none ∨ s.conn.replies = [] ∨ s.timeouts = 0
  | _ => True

-- =============================================================== answers

/-- The request an answer answers. -/
def Answer.request : Answer F → Request
  | .statusReply _ => .heartbeat
  | .resultAck _ _ => .publish

theorem frame_statusReply (m : MsgStatusReply) :
    (Answer.statusReply m : Answer F).frame
      = some ⟨msgStatusReply, m.bytes⟩ := by
  rw [Answer.frame, obicallWireEncodeStatusReply_eq m (by omega)]

theorem frame_resultAck (m : MsgResultAck) (r : Result F) :
    (Answer.resultAck m r).frame = some ⟨msgResultAck, m.bytes⟩ := by
  rw [Answer.frame, obicallWireEncodeResultAck_eq m (by omega)]

/-- Every answer has a frame, and the broker's buffers hold it. -/
theorem Answer.frame_fits (a : Answer F) :
    ∃ f, a.frame = some f ∧ f.payload.length ≤ 64 := by
  cases a with
  | statusReply m =>
      refine ⟨_, frame_statusReply m, ?_⟩
      rw [m.length_bytes]
      omega
  | resultAck m r =>
      refine ⟨_, frame_resultAck m r, ?_⟩
      rw [m.length_bytes]
      omega

variable [DoubleBits F]

/-- A frame as the main loop sends it. -/
inductive Sent (F : Type) [DoubleBits F] : Request → Frame → Prop where
  | heartbeat (hb : MsgHeartbeat) (hid : IsBroker hb.brokerId) :
      Sent F .heartbeat ⟨msgHeartbeat, hb.bytes⟩
  | publish (r : Result F) (hr : r.Encodable) :
      Sent F .publish ⟨msgResultPublish, r.bytes⟩

/-- The type of a request's frame. -/
def Request.msgType : Request → UInt8
  | .publish => msgResultPublish
  | .heartbeat => msgHeartbeat

/-- A frame tells which request it is. -/
theorem Sent.unique {k k' : Request} {f : Frame} (h : Sent F k f)
    (h' : Sent F k' f) : k = k' := by
  have htype {k : Request} (h : Sent F k f) : f.msgType = k.msgType := by
    cases h <;> rfl
  have hkk : k.msgType = k'.msgType := (htype h).symm.trans (htype h')
  cases k <;> cases k' <;> first | rfl | exact absurd hkk (by decide)

theorem handleHeartbeat_reply (ctx : GateCtx) (file : Option (List UInt8))
    {hb : MsgHeartbeat} (hid : IsBroker hb.brokerId) (now : Int64)
    (diskOk : Bool) :
    ∃ m, (handleHeartbeat ctx file hb.bytes now diskOk).reply = some m := by
  have hnote : ctx.noteHeartbeat hb.bytes now = some (ctx.noted hb now) :=
    noteHeartbeat_eq_some.mpr
      ⟨hb, obicallWireDecodeHeartbeat_bytes hb, hid, rfl⟩
  rw [handleHeartbeat, hnote]
  exact ⟨_, sendStatusReply_eq _ now⟩

theorem handleResultPublish_reply (ctx : GateCtx)
    (file : Option (List UInt8)) {r : Result F} (hr : r.Encodable)
    (now : Int64) (diskOk : Bool) :
    ∃ a, (handleResultPublish (F := F) ctx file r.bytes now diskOk).reply
      = some a := by
  cases hd : obicallGateDecidePublish ctx.state r.normalize now with
  | mk o rest =>
    rw [handleResultPublish_eq (obicallWireDecodeResult_bytes hr) hd]
    dsimp only
    split
    · exact ⟨_, rfl⟩
    · exact ⟨_, rfl⟩

omit [DoubleBits F] in
/-- What a handler replied is what it left in the outbox. -/
theorem drop_outbox_after {α : Type} (g : GateSys F) (ctx : GateCtx)
    {h : Handled α} {a : α} (hreply : h.reply = some a)
    (answer : α → Answer F) :
    ((g.after ctx h answer).outbox.drop g.outbox.length).map Prod.fst
      = [answer a] := by
  rw [GateSys.after, hreply]
  show ((g.outbox ++ _).drop g.outbox.length).map Prod.fst = _
  rw [List.drop_left]
  rfl

/-- The gate answers a request of the main loop once. -/
theorem serve_answers {k : Request} {f : Frame} (hf : Sent F k f)
    (g : GateSys F) (ctx : GateCtx) (now : Int64) (diskOk : Bool) :
    ∃ a : Answer F, a.request = k
      ∧ ((g.dispatch ctx f.msgType f.payload now diskOk).outbox.drop
          g.outbox.length).map Prod.fst = [a] := by
  cases hf with
  | heartbeat hb hid =>
      obtain ⟨m, hm⟩ := handleHeartbeat_reply ctx g.file hid now diskOk
      refine ⟨.statusReply m, rfl, ?_⟩
      rw [GateSys.dispatch, if_pos rfl, drop_outbox_after g ctx hm]
  | publish r hr =>
      obtain ⟨a, ha⟩ := handleResultPublish_reply ctx g.file hr now diskOk
      refine ⟨.resultAck a.1 a.2, rfl, ?_⟩
      have hne : msgResultPublish ≠ msgHeartbeat := by decide
      rw [GateSys.dispatch, if_neg hne, if_pos rfl, drop_outbox_after g ctx ha]

-- ============================================================= invariant

/-- What every run of the main loop keeps. -/
structure LinkInv (s : Link F) : Prop where
  order : InOrder s.conn
  /-- a request was read, given up, or is being waited for -/
  count : s.conn.asked = s.conn.taken + s.timeouts
    + if s.awaiting = none then 0 else 1
  broker : IsBroker s.broker.brokerId
  requests : ∀ p ∈ s.conn.requests, ∃ k, Sent F k p.2
  log : Logged (fun a f => Answer.frame a = some f) s.conn s.answers
  reads : ∀ r ∈ s.reads, r.answered < s.conn.taken
  /-- the request being waited for, and its answer -/
  lastRequest : ∀ k, s.awaiting = some k → ∀ p ∈ s.conn.requests,
    p.1 + 1 = s.conn.asked → Sent F k p.2
  lastAnswer : ∀ k, s.awaiting = some k → ∀ a,
    s.answers.lookup (s.conn.asked - 1) = some a → a.request = k

variable [DoubleArith F]

theorem linkInv_start (gate : GateSys F) (isB : Bool)
    (opts : BrokerOptions F) : LinkInv (Link.start gate isB opts) where
  order := InOrder.start Frame Frame
  count := rfl
  broker := by
    cases isB with
    | true => exact .inr rfl
    | false => exact .inl rfl
  requests := nofun
  log := logged_start _
  reads := nofun
  lastRequest := nofun
  lastAnswer := nofun

omit [DoubleArith F] in
/-- Sending a request, and waiting for its reply. -/
theorem linkInv_send {s : Link F} (h : LinkInv s) (hidle : s.awaiting = none)
    {k : Request} {f : Frame} (hf : Sent F k f) : LinkInv (s.send k f) where
  order := h.order.ask f
  count := by
    show s.conn.asked + 1 = s.conn.taken + s.timeouts + 1
    rw [h.count, if_pos hidle]
  broker := h.broker
  requests := by
    intro p hp
    rcases List.mem_append.mp hp with hp | hp
    · exact h.requests p hp
    · rw [List.mem_singleton.mp hp]
      exact ⟨k, hf⟩
  log := h.log.ask f
  reads := h.reads
  lastRequest := by
    intro k' hk' p hp hlast
    obtain rfl : k = k' := Option.some.inj hk'
    rcases List.mem_append.mp hp with hp | hp
    · exact absurd (Nat.succ.inj hlast)
        (Nat.ne_of_lt (h.order.mem_requests hp).2)
    · rw [List.mem_singleton.mp hp]
      exact hf
  lastAnswer := by
    intro k' _ a (ha : s.answers.lookup s.conn.asked = some a)
    have hnone : s.answers.lookup s.conn.asked = none := by
      apply h.log.lookup_eq_none
      rw [h.order.asked]
      exact Nat.le_add_right ..
    rw [hnone] at ha
    cases ha

omit [DoubleArith F] in
/-- What the gate's turn comes to: one answer, to the oldest request. -/
theorem serve_eq {s : Link F} (h : LinkInv s) {ctx : GateCtx}
    (hctx : s.gate.proc = some ctx) {p : Nat × Frame}
    {rest : List (Nat × Frame)} (hreq : s.conn.requests = p :: rest)
    (now : Int64) (diskOk : Bool) :
    ∃ (a : Answer F) (b : Frame), a.frame = some b ∧ Sent F a.request p.2
      ∧ s.serve now diskOk
        = { s with
            gate := s.gate.dispatch ctx p.2.msgType p.2.payload now diskOk
            conn := s.conn.answer [b]
            answers := s.answers ++ [(p.1, a)] } := by
  obtain ⟨k, hk⟩ := h.requests p (hreq ▸ List.mem_cons_self)
  obtain ⟨a, rfl, ha⟩ := serve_answers hk s.gate ctx now diskOk
  obtain ⟨b, hb, -⟩ := a.frame_fits
  refine ⟨a, b, hb, hk, ?_⟩
  rw [Link.serve, hctx, hreq]
  dsimp only
  rw [ha, List.filterMap_cons_some hb]
  rfl

omit [DoubleArith F] in
/-- The gate answers the oldest request. -/
theorem linkInv_serve {s : Link F} (h : LinkInv s) (now : Int64)
    (diskOk : Bool) : LinkInv (s.serve now diskOk) := by
  cases hctx : s.gate.proc with
  | none =>
      rw [Link.serve, hctx]
      exact h
  | some ctx =>
      cases hreq : s.conn.requests with
      | nil =>
          rw [Link.serve, hctx, hreq]
          exact h
      | cons p rest =>
          obtain ⟨a, b, hb, hk, heq⟩ := serve_eq h hctx hreq now diskOk
          have horder := h.order.answer hreq b
          have hlog := h.log.answer h.order hreq hb
          rw [heq]
          rw [answer_cons hreq] at horder hlog ⊢
          have hrest : ∀ q ∈ rest, q ∈ s.conn.requests :=
            hreq ▸ fun q hq => List.mem_cons_of_mem p hq
          exact {
            order := horder
            count := h.count
            broker := h.broker
            requests := fun q hq => h.requests q (hrest q hq)
            log := hlog
            reads := h.reads
            lastRequest := fun k hk' q hq =>
              h.lastRequest k hk' q (hrest q hq)
            lastAnswer := by
              intro k hk' a' ha'
              rw [List.lookup_append] at ha'
              rcases Option.or_eq_some_iff.mp ha' with hold | ⟨-, hlast⟩
              · exact h.lastAnswer k hk' a' hold
              · rw [lookup_singleton] at hlast
                obtain ⟨hlast, rfl⟩ := hlast
                have hp : p ∈ s.conn.requests := hreq ▸ List.mem_cons_self
                have hid' : p.1 + 1 = s.conn.asked := by
                  rw [← hlast]
                  exact Nat.sub_add_cancel
                    (Nat.one_le_of_lt (h.order.mem_requests hp).2)
                exact hk.unique (h.lastRequest k hk' p hp hid') }

omit [DoubleArith F] [DoubleBits F] in
/-- What the main loop believes is no part of the invariant. -/
theorem digest_eq (s : Link F) (k : Request) (f : Frame) :
    ∃ epochBelief ownerBelief,
      s.digest k f = { s with epochBelief, ownerBelief } := by
  rw [Link.digest]
  split
  · split
    · exact ⟨_, _, rfl⟩
    · exact ⟨_, _, rfl⟩
  · exact ⟨_, _, rfl⟩

omit [DoubleArith F] [DoubleBits F] in
theorem read_eq {s : Link F} {k : Request} (hk : s.awaiting = some k)
    {p : Nat × Frame} {rest : List (Nat × Frame)}
    (hrep : s.conn.replies = p :: rest) :
    s.read
      = { s.digest k p.2 with
          awaiting := none
          conn := s.conn.take
          reads := s.reads
            ++ [⟨k, s.conn.asked - 1, p.1, (s.digest k p.2).epochBelief⟩] } := by
  obtain ⟨e, o, hd⟩ := digest_eq s k p.2
  rw [Link.read, hk, hrep]
  dsimp only
  rw [hd]

omit [DoubleArith F] in
theorem linkInv_read {s : Link F} (h : LinkInv s) : LinkInv s.read := by
  cases hk : s.awaiting with
  | none =>
      rw [Link.read, hk]
      exact h
  | some k =>
      cases hrep : s.conn.replies with
      | nil =>
          rw [Link.read, hk, hrep]
          exact h
      | cons p rest =>
          obtain ⟨e, o, hd⟩ := digest_eq s k p.2
          have hcount := h.count
          rw [hk, if_neg (Option.some_ne_none k)] at hcount
          rw [read_eq hk hrep, hd]
          exact {
            order := h.order.take hrep
            count := by
              show s.conn.asked = s.conn.taken + 1 + s.timeouts + 0
              omega
            broker := h.broker
            requests := h.requests
            log := h.log.take hrep
            reads := by
              intro r hr
              show r.answered < s.conn.taken + 1
              rcases List.mem_append.mp hr with hr | hr
              · exact Nat.lt_succ_of_lt (h.reads r hr)
              · rw [List.mem_singleton.mp hr]
                exact Nat.lt_succ_of_le
                  (Nat.le_of_eq (h.order.next_reply hrep).1)
            lastRequest := nofun
            lastAnswer := nofun }

theorem processEntry_brokerId (g : BrokerCtx F) (e : QueueEntry F)
    (now : Int64) (epochBelief : UInt64) :
    (g.processEntry e now epochBelief).1.brokerId = g.brokerId := by
  obtain ⟨_, _, _, _, _, _, h⟩ := processEntry_frame g e now epochBelief
  rw [h]

omit [DoubleArith F] in
/-- Another broker context with the same id changes nothing. -/
theorem LinkInv.withBroker {s : Link F} (h : LinkInv s) {g : BrokerCtx F}
    (hg : g.brokerId = s.broker.brokerId) :
    LinkInv { s with broker := g } :=
  ⟨h.order, h.count, hg ▸ h.broker, h.requests, h.log, h.reads,
    h.lastRequest, h.lastAnswer⟩

/-- A publish goes on to wait for a reply, or nothing was sent. -/
theorem publish_cases (s : Link F) (e : QueueEntry F) (now : Int64) :
    ∃ g : BrokerCtx F, g.brokerId = s.broker.brokerId
      ∧ ((∃ f, Sent F .publish f
          ∧ s.publish e now = { s with broker := g }.send .publish f)
        ∨ s.publish e now = { s with broker := g }) := by
  have hid := processEntry_brokerId s.broker e now s.epochBelief
  rw [Link.publish]
  cases hturn : s.broker.processEntry e now s.epochBelief with
  | mk g result =>
    rw [hturn] at hid
    refine ⟨g, hid, ?_⟩
    dsimp only
    cases hsent : obicallWireEncodeResult result 2048 with
    | error st => exact .inr rfl
    | ok payload =>
        obtain ⟨hr, rfl⟩ := obicallWireEncodeResult_ok hsent
        exact .inl ⟨_, .publish _ hr, rfl⟩

theorem linkInv_publish {s : Link F} (h : LinkInv s)
    (hidle : s.awaiting = none) (e : QueueEntry F) (now : Int64) :
    LinkInv (s.publish e now) := by
  obtain ⟨g, hg, ⟨f, hf, heq⟩ | heq⟩ := publish_cases s e now
  · rw [heq]
    exact linkInv_send (h.withBroker hg) hidle hf
  · rw [heq]
    exact h.withBroker hg

omit [DoubleArith F] [DoubleBits F] in
theorem heartbeat_eq (s : Link F) (readerAlive : Bool) (now : Int64) :
    s.heartbeat readerAlive now
      = s.send .heartbeat ⟨msgHeartbeat,
          (s.broker.heartbeat s.epochBelief readerAlive now).bytes⟩ := by
  rw [Link.heartbeat, obicallWireEncodeHeartbeat_eq _ (by omega)]

theorem linkInv_step (s : Link F) (e : LinkEvent F) (h : LinkInv s) :
    LinkInv (s.step e) := by
  cases e with
  | publish e now =>
      rw [Link.step]
      split
      next hidle => exact linkInv_publish h hidle e now
      · exact h
  | heartbeat readerAlive now =>
      rw [Link.step]
      split
      next hidle =>
        rw [heartbeat_eq]
        exact linkInv_send h hidle (.heartbeat _ h.broker)
      · exact h
  | serve now diskOk => exact linkInv_serve h now diskOk
  | elsewhere msgType payload now diskOk =>
      rw [Link.step]
      split
      · exact h
      · exact ⟨h.order, h.count, h.broker, h.requests, h.log, h.reads,
          h.lastRequest, h.lastAnswer⟩
  | read => exact linkInv_read h
  | timeout =>
      rw [Link.step]
      split
      · exact h
      next hawait =>
        have hcount := h.count
        rw [if_neg hawait] at hcount
        exact {
          order := h.order
          count := by
            show s.conn.asked = s.conn.taken + (s.timeouts + 1) + 0
            omega
          broker := h.broker
          requests := h.requests
          log := h.log
          reads := h.reads
          lastRequest := nofun
          lastAnswer := nofun }

-- =============================================================== pairing

omit [DoubleArith F] in
/-- Later answers are to other requests than those whose replies were
read. -/
theorem paired_append_iff {s : Link F} (h : LinkInv s) {r : Read}
    (hr : r ∈ s.reads) {p : Nat × Answer F}
    (hp : s.conn.taken + s.conn.replies.length ≤ p.1) :
    r.Paired (s.answers ++ [p]) ↔ r.Paired s.answers := by
  refine and_congr_right fun hask => ?_
  have hlt : r.asked < p.1 := by
    rw [← hask]
    exact Nat.lt_of_lt_of_le (h.reads r hr)
      (Nat.le_trans (Nat.le_add_right ..) hp)
  rw [lookup_append_of_lt s.answers hlt]

omit [DoubleArith F] in
/-- A frame is read after its own request exactly when no read has timed
out; a heartbeat's then sets what the gate put in it. -/
theorem read_paired_iff {s : Link F} (h : LinkInv s) {k : Request}
    (hk : s.awaiting = some k) {p : Nat × Frame} {rest : List (Nat × Frame)}
    (hrep : s.conn.replies = p :: rest) :
    Read.Paired s.answers
        ⟨k, s.conn.asked - 1, p.1, (s.digest k p.2).epochBelief⟩
      ↔ s.timeouts = 0 := by
  have hcount := h.count
  rw [hk, if_neg (Option.some_ne_none k)] at hcount
  have hid := (h.order.next_reply hrep).1
  constructor
  · rintro ⟨hask, -⟩
    show s.timeouts = 0
    have hask' : p.1 = s.conn.asked - 1 := hask
    omega
  · intro hzero
    have hask : p.1 = s.conn.asked - 1 := by omega
    refine ⟨hask, fun (hbeat : k = .heartbeat) => ?_⟩
    obtain ⟨a, ha, hframe⟩ := h.log.replies p (hrep ▸ List.mem_cons_self)
    rw [hask] at ha
    have hreq := h.lastAnswer k hk a ha
    rw [hbeat] at hreq ⊢
    cases a with
    | resultAck m r => cases hreq
    | statusReply m =>
        refine ⟨m, ha, ?_⟩
        rw [frame_statusReply, Option.some_inj] at hframe
        show (s.digest .heartbeat p.2).epochBelief = m.gateEpoch
        rw [← hframe, Link.digest, if_pos ⟨rfl, rfl⟩,
          obicallWireDecodeStatusReply_bytes]

omit [DoubleArith F] in
theorem paired_serve_iff {s : Link F} (h : LinkInv s) (now : Int64)
    (diskOk : Bool) : (s.serve now diskOk).Paired ↔ s.Paired := by
  cases hctx : s.gate.proc with
  | none => rw [Link.serve, hctx]
  | some ctx =>
      cases hreq : s.conn.requests with
      | nil => rw [Link.serve, hctx, hreq]
      | cons p rest =>
          obtain ⟨a, b, -, -, heq⟩ := serve_eq h hctx hreq now diskOk
          have hid : s.conn.taken + s.conn.replies.length ≤ p.1 :=
            Nat.le_of_eq (h.order.next_request hreq).1.symm
          rw [heq]
          exact forall₂_congr fun r hr => paired_append_iff h hr hid

omit [DoubleArith F] in
theorem paired_read_iff {s : Link F} (h : LinkInv s) :
    s.read.Paired ↔ s.Paired ∧ s.OnTime .read := by
  cases hk : s.awaiting with
  | none =>
      rw [Link.read, hk]
      exact (and_iff_left (.inl hk)).symm
  | some k =>
      cases hrep : s.conn.replies with
      | nil =>
          rw [Link.read, hk, hrep]
          exact (and_iff_left (.inr (.inl hrep))).symm
      | cons p rest =>
          have hreads : s.read.reads = s.reads
              ++ [⟨k, s.conn.asked - 1, p.1, (s.digest k p.2).epochBelief⟩] := by
            rw [read_eq hk hrep]
          have hanswers : s.read.answers = s.answers := by
            obtain ⟨e, o, hd⟩ := digest_eq s k p.2
            rw [read_eq hk hrep, hd]
          have htime : s.OnTime .read ↔ s.timeouts = 0 := by
            show s.awaiting = none ∨ s.conn.replies = [] ∨ s.timeouts = 0 ↔ _
            rw [hk, hrep]
            simp
          rw [Link.Paired, hreads, hanswers, List.forall_mem_append,
            List.forall_mem_singleton, read_paired_iff h hk hrep, htime]
          rfl

/-- A step keeps the pairing exactly when it is on time. -/
theorem paired_step_iff (s : Link F) (e : LinkEvent F) (h : LinkInv s) :
    (s.step e).Paired ↔ s.Paired ∧ s.OnTime e := by
  cases e with
  | publish e now =>
      refine Iff.trans ?_ (and_iff_left trivial).symm
      rw [Link.step]
      split
      · obtain ⟨g, -, ⟨f, -, heq⟩ | heq⟩ := publish_cases s e now
        · rw [heq]
          rfl
        · rw [heq]
          rfl
      · rfl
  | heartbeat readerAlive now =>
      refine Iff.trans ?_ (and_iff_left trivial).symm
      rw [Link.step]
      split
      · rw [heartbeat_eq]
        rfl
      · rfl
  | serve now diskOk =>
      exact (paired_serve_iff h now diskOk).trans (and_iff_left trivial).symm
  | elsewhere msgType payload now diskOk =>
      refine Iff.trans ?_ (and_iff_left trivial).symm
      rw [Link.step]
      split
      · rfl
      · rfl
  | read => exact paired_read_iff h
  | timeout =>
      refine Iff.trans ?_ (and_iff_left trivial).symm
      rw [Link.step]
      split
      · rfl
      · rfl

/-- Every frame the main loop reads is the reply to the request it has
just sent, and every heartbeat's reply sets the epoch the gate put in it,
exactly when no frame is read after a read of the run has timed out. -/
theorem replies_paired_iff (gate : GateSys F) (isB : Bool)
    (opts : BrokerOptions F) (es : List (LinkEvent F)) :
    (linkRun gate isB opts es).Paired
      ↔ Meets Link.step Link.OnTime (.start gate isB opts) es := by
  have h := run_iff_meets linkInv_step paired_step_iff
    (linkInv_start gate isB opts) es
  exact h.trans (and_iff_right nofun)

/-- A gate without a state file, and a broker without sensors. -/
def freshGate : GateSys Binary64 :=
  gateRun Binary64 [.start ⟨Vector.replicate 32 0, 50, 700⟩ 0]

def noSensors : BrokerOptions Binary64 where
  pipelineId := [112]
  configDigest := Vector.replicate 32 0
  resultValidityMs := 500
  sensorFreshWindowMs := 1000
  dgtEnabled := false
  dgtHysteresisMargin := 0.05
  kfParams := ⟨0.05, 0.1, 10.0, 10.0, 30.0⟩
  sensorIds := []

/-- The reply to a first, unhealthy heartbeat comes after its read has
timed out; the second, healthy one is answered with the epoch the gate
has just granted. -/
def lateReply : List (LinkEvent Binary64) :=
  [.heartbeat false 0, .timeout, .serve 10 true, .heartbeat true 20,
    .serve 30 true, .read]

/-- Broker A reads the first reply after the second heartbeat: it owns
epoch 1 and believes in epoch 0. -/
theorem lateReply_not_paired :
    let s := linkRun freshGate false noSensors lateReply
    s.gate.proc.map (fun ctx => (ctx.state.epoch, ctx.state.ownerBrokerId))
        = some (1, brokerA)
      ∧ s.epochBelief = 0 ∧ ¬ s.Paired := by
  have hreads : (linkRun freshGate false noSensors lateReply).reads
      = [⟨.heartbeat, 1, 0, 0⟩] := by decide +kernel
  refine ⟨by decide +kernel, by decide +kernel, fun h => ?_⟩
  have hr := (h ⟨.heartbeat, 1, 0, 0⟩ (hreads ▸ List.mem_singleton_self _)).1
  cases hr

end Obicall
