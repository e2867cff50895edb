/-
The gate process (`gate_main.c`) and the runs it can take.

# One process

`GateCtx` is `g_ctx`. Each message handler takes the context, the bytes
of the state file and what the disk will answer if `persist_locked` is
called, and returns what it leaves behind (`Handled`). A handler holds
the mutex from reading the state to persisting it, so handlers run one
at a time and the order of their replies is the order in which they were
built; the frame is sent after the mutex is released.

# Runs

`GateSys.step` adds what surrounds the process: starting it on whatever
state file there is, killing it at any point, and sending a reply that
was built earlier. A crash in the middle of a handler is a crash after a
message whose disk outcome says whether the rename had happened. The
ghost fields record the grants made, the states that became durable, and
whether a reported field is ahead of the file.
-/
import Mathlib.Data.List.Basic
import Obicall.Core.Control
import Obicall.Core.Gate
import Obicall.Lib.Run

namespace Obicall

-- =============================================================== context

/-- `broker_view_t`. -/
structure BrokerView where
  known : Bool
  readiness : GateReadiness
  lastHeartbeatNs : Int64
  deriving DecidableEq

/-- A view after `memset(.., 0, ..)`. -/
def BrokerView.zero : BrokerView where
  known := false
  readiness :=
    { healthy := 0
      configDigest := Vector.replicate 32 0
      checkpointSchemaVersion := 0
      lastProcessedWindowSeq := 0 }
  lastHeartbeatNs := 0

/-- `gate_ctx_t`, without the fields no handler reads (the mutex, the
file's name, the run token and two unused timeouts). -/
structure GateCtx where
  state : GateState
  brokers : Vector BrokerView 3
  requiredConfigDigest : DigestBytes
  requiredCheckpointSchemaVersion : UInt32
  maxAllowedReplayGap : UInt64
  confirmTimeoutNs : Int64
  startTimeNs : Int64
  deriving DecidableEq

/-- The gate's command line, as far as the handlers depend on it. -/
structure GateConfig where
  configDigest : DigestBytes
  maxReplayGap : UInt64
  confirmTimeoutNs : Int64

/-- `OBICALL_CHECKPOINT_SCHEMA_VERSION`. -/
def checkpointSchemaVersion : UInt32 := 1

/-- `main` up to the listening socket: start from the state file when
there is one, refuse to start (`none`) when it does not load. -/
def gateMain (cfg : GateConfig) (file : Option (List UInt8))
    (now : Int64) : Option GateCtx :=
  let boot (state : GateState) : GateCtx :=
    { state :=
        { state with structSize := sizeofGateState, schemaVersion := 1 }
      brokers := Vector.replicate 3 .zero
      requiredConfigDigest := cfg.configDigest
      requiredCheckpointSchemaVersion := checkpointSchemaVersion
      maxAllowedReplayGap := cfg.maxReplayGap
      confirmTimeoutNs := cfg.confirmTimeoutNs
      startTimeNs := now }
  match file with
  | none => some (boot .zero)
  | some bytes =>
      match obicallGateLoadState bytes .zero with
      | (.ok, state) => some (boot state)
      | (_, _) => none

-- ============================================================== handlers

/-- What a handler leaves behind: the context, the state file, the
outcome of its `persist_locked` call if it made one, and its reply. -/
structure Handled (α : Type) where
  ctx : GateCtx
  file : Option (List UInt8)
  saved : Option Bool
  reply : Option α

/-- `persist_locked`: the state goes to a temporary file which then
replaces the state file, so a failure leaves the old file in place. -/
def persistLocked (ctx : GateCtx) (file : Option (List UInt8))
    (diskOk : Bool) : Bool × Option (List UInt8) :=
  match obicallGatePersistState ctx.state with
  | .ok bytes => if diskOk then (true, some bytes) else (false, file)
  | .error _ => (false, file)

/-- The loop over the pipelines' high-waters. -/
def GateState.committedHighWater (s : GateState) : UInt64 :=
  (s.pipelines.toList.take s.pipelineCount.toNat).foldl
    (fun highWater p =>
      if p.lastCommittedWindowSeq > highWater then p.lastCommittedWindowSeq
      else highWater) 0

/-- The broker `evaluate_promotion_locked` promotes, if any. -/
def GateCtx.promotionTarget (ctx : GateCtx) (now : Int64) :
    Option UInt32 :=
  let owner := ctx.state.ownerBrokerId
  if owner = brokerNone then
    let view := ctx.brokers[1]
    if view.known && view.readiness.healthy != 0 then some brokerA else none
  else match ctx.brokers[owner.toNat]? with
    | none => none
    | some ownerView =>
        if !ownerView.known then none
        else if now - ownerView.lastHeartbeatNs ≤ ctx.confirmTimeoutNs then
          none
        else
          let other := if owner = brokerA then brokerB else brokerA
          let view := if owner = brokerA then ctx.brokers[2]
            else ctx.brokers[1]
          let req : GatePromotionRequirements :=
            { requiredConfigDigest := ctx.requiredConfigDigest
              requiredCheckpointSchemaVersion :=
                ctx.requiredCheckpointSchemaVersion
              maxAllowedReplayGap := ctx.maxAllowedReplayGap }
          if !view.known then none
          else if obicallGateShadowPromotable view.readiness req
              ctx.state.committedHighWater then some other
          else none

/-- `evaluate_promotion_locked`: promote in memory, then persist; the
outcome of the persist is not looked at. -/
def evaluatePromotionLocked (ctx : GateCtx) (file : Option (List UInt8))
    (now : Int64) (diskOk : Bool) : Handled MsgStatusReply :=
  match ctx.promotionTarget now with
  | none => { ctx, file, saved := none, reply := none }
  | some broker =>
      let ctx := { ctx with state := obicallGatePromote ctx.state broker }
      let (saved, file) := persistLocked ctx file diskOk
      { ctx, file, saved := some saved, reply := none }

/-- The reply built from memory by `handle_heartbeat` and
`handle_status_query`. -/
def GateCtx.statusReply (ctx : GateCtx) (now : Int64) : MsgStatusReply where
  running := 1
  gateEpoch := ctx.state.epoch
  ownerBrokerId := ctx.state.ownerBrokerId
  lastCommittedWindowSeq := ctx.state.committedHighWater
  uptimeNs := now - ctx.startTimeNs

/-- A reply goes out only when it encodes into the frame buffer. -/
def GateCtx.sendStatusReply (ctx : GateCtx) (now : Int64) :
    Option MsgStatusReply :=
  let reply := ctx.statusReply now
  if (obicallWireEncodeStatusReply reply 64).isOk then some reply else none

/-- The view a heartbeat leaves behind. -/
def heartbeatView (hb : MsgHeartbeat) (now : Int64) : BrokerView where
  known := true
  readiness :=
    { healthy := hb.healthy
      configDigest := hb.configDigest
      checkpointSchemaVersion := hb.checkpointSchemaVersion
      lastProcessedWindowSeq := hb.lastWindowSeq }
  lastHeartbeatNs := now

/-- The first half of `handle_heartbeat`: who it is from, noted in
`brokers[]`; `none` when the message is dropped. -/
def GateCtx.noteHeartbeat (ctx : GateCtx) (payload : List UInt8)
    (now : Int64) : Option GateCtx :=
  match obicallWireDecodeHeartbeat payload with
  | (.ok, hb) =>
      if hb.brokerId = brokerA then
        some { ctx with brokers := ctx.brokers.set 1 (heartbeatView hb now) }
      else if hb.brokerId = brokerB then
        some { ctx with brokers := ctx.brokers.set 2 (heartbeatView hb now) }
      else none
  | (_, _) => none

/-- What the gate knows of a broker. -/
def GateCtx.view (ctx : GateCtx) (b : UInt32) : BrokerView :=
  if b = brokerA then ctx.brokers[1] else ctx.brokers[2]

/-- The context with a broker's heartbeat noted. -/
def GateCtx.noted (ctx : GateCtx) (hb : MsgHeartbeat) (now : Int64) :
    GateCtx :=
  { ctx with
    brokers :=
      if hb.brokerId = brokerA then ctx.brokers.set 1 (heartbeatView hb now)
      else ctx.brokers.set 2 (heartbeatView hb now) }

/-- `handle_heartbeat`. -/
def handleHeartbeat (ctx : GateCtx) (file : Option (List UInt8))
    (payload : List UInt8) (now : Int64) (diskOk : Bool) :
    Handled MsgStatusReply :=
  match ctx.noteHeartbeat payload now with
  | none => { ctx, file, saved := none, reply := none }
  | some ctx =>
      let h := evaluatePromotionLocked ctx file now diskOk
      { h with reply := h.ctx.sendStatusReply now }

/-- `handle_status_query`. -/
def handleStatusQuery (ctx : GateCtx) (file : Option (List UInt8))
    (now : Int64) : Handled MsgStatusReply :=
  { ctx, file, saved := none, reply := ctx.sendStatusReply now }

/-- The switch on the outcome in `handle_result_publish`. -/
def rejectStatus (outcome : GatePublishOutcome) (persistedOk : Bool) :
    Status :=
  match outcome with
  | .commit => if persistedOk then .ok else .errGatePersistence
  | .shadowRecorded => .ok
  | .rejectNotOwner => .errGateNotOwner
  | .rejectStaleEpoch => .errGateStaleEpoch
  | .rejectDuplicateWindow => .errGateDuplicateWindow
  | .rejectExpired => .errGateExpired
  | .rejectIncompatible => .errGateIncompatible
  | .rejectNoCapacity => .errInternal

/-- The `RESULT_ACK` of `handle_result_publish`. -/
def resultAck {F : Type} (result : Result F) (outcome : GatePublishOutcome)
    (persistedOk : Bool) : MsgResultAck where
  pipelineId := strncpy31 (cString result.pipelineId)
  windowSeq := result.windowSeq
  accepted := if outcome = .commit ∧ persistedOk = true then 1 else 0
  rejectStatus := (rejectStatus outcome persistedOk).code

/-- `handle_result_publish`; the reply is paired with the result it is
about. -/
def handleResultPublish {F : Type} [DoubleBits F] (ctx : GateCtx)
    (file : Option (List UInt8)) (payload : List UInt8) (now : Int64)
    (diskOk : Bool) : Handled (MsgResultAck × Result F) :=
  match obicallWireDecodeResult payload with
  | (.ok, result) =>
      let (outcome, _, state) :=
        obicallGateDecidePublish ctx.state result now
      let ctx := { ctx with state }
      let (saved, file) :=
        if outcome = .commit then
          let (persisted, file) := persistLocked ctx file diskOk
          (some persisted, file)
        else (none, file)
      let ack := resultAck result outcome (saved.getD true)
      { ctx, file, saved
        reply :=
          if (obicallWireEncodeResultAck ack 128).isOk then
            some (ack, result)
          else none }
  | (_, _) => { ctx, file, saved := none, reply := none }

-- ================================================================== runs

/-- A reply frame; a `RESULT_ACK` with the result it is about. -/
inductive Answer (F : Type) where
  | statusReply (m : MsgStatusReply)
  | resultAck (m : MsgResultAck) (result : Result F)

/-- Whether a reply that was built has left the process. -/
inductive Fate where
  | pending | sent | lost
  deriving DecidableEq

/-- The process, the disk, and the history. -/
structure GateSys (F : Type) where
  proc : Option GateCtx
  file : Option (List UInt8)
  /-- every reply built, in the order of building -/
  outbox : List (Answer F × Fate)
  /-- every grant made: the epoch and its owner -/
  grants : List (UInt64 × UInt32)
  /-- the states started from and the states written to the file -/
  durable : List GateState
  /-- a reported field changed and no persist has succeeded since -/
  unsaved : Bool

/-- Before the first start: no process, no state file. -/
def GateSys.init (F : Type) : GateSys F where
  proc := none
  file := none
  outbox := []
  grants := []
  durable := []
  unsaved := false

/-- What can happen next. Message contents, clock readings and the
disk's answers are arbitrary. -/
inductive GateEvent where
  | start (cfg : GateConfig) (now : Int64)
  | crash
  | recv (msgType : UInt8) (payload : List UInt8) (now : Int64)
      (diskOk : Bool)
  | send (i : Nat)

/-- The three fields a `STATUS_REPLY` reports. -/
def GateState.reported (s : GateState) : UInt64 × UInt32 × UInt64 :=
  (s.epoch, s.ownerBrokerId, s.committedHighWater)

/-- The history after a handler that started from `ctx`. -/
def GateSys.after {F α : Type} (g : GateSys F) (ctx : GateCtx)
    (h : Handled α) (answer : α → Answer F) : GateSys F where
  proc := some h.ctx
  file := h.file
  outbox := g.outbox ++ (h.reply.map fun a => (answer a, .pending)).toList
  grants :=
    if h.ctx.state.epoch = ctx.state.epoch then g.grants
    else g.grants ++ [(h.ctx.state.epoch, h.ctx.state.ownerBrokerId)]
  durable :=
    if h.saved = some true then g.durable ++ [h.ctx.state] else g.durable
  unsaved :=
    h.saved != some true
      && (g.unsaved || h.ctx.state.reported != ctx.state.reported)

/-- `connection_thread`'s switch on the message type. -/
def GateSys.dispatch {F : Type} [DoubleBits F] (g : GateSys F)
    (ctx : GateCtx) (msgType : UInt8) (payload : List UInt8) (now : Int64)
    (diskOk : Bool) : GateSys F :=
  if msgType = msgHeartbeat then
    g.after ctx (handleHeartbeat ctx g.file payload now diskOk) .statusReply
  else if msgType = msgResultPublish then
    g.after ctx
      (handleResultPublish (F := F) ctx g.file payload now diskOk)
      fun a => .resultAck a.1 a.2
  else if msgType = msgStatusQuery then
    g.after ctx (handleStatusQuery ctx g.file now) .statusReply
  else g

/-- A pending reply leaves the process. -/
def Fate.send : Fate → Fate
  | .pending => .sent
  | f => f

/-- A pending reply dies with the process. -/
def Fate.lose : Fate → Fate
  | .pending => .lost
  | f => f

/-- One step of the system. -/
def GateSys.step {F : Type} [DoubleBits F] (g : GateSys F) :
    GateEvent → GateSys F
  | .start cfg now =>
      match g.proc, gateMain cfg g.file now with
      | none, some ctx =>
          { g with
            proc := some ctx
            durable := g.durable ++ [ctx.state]
            unsaved := false }
      | _, _ => g
  | .crash =>
      { g with
        proc := none
        outbox := g.outbox.map fun o => (o.1, o.2.lose) }
  | .recv msgType payload now diskOk =>
      match g.proc with
      | none => g
      | some ctx => g.dispatch ctx msgType payload now diskOk
  | .send i =>
      match g.proc with
      | none => g
      | some _ =>
          { g with outbox := g.outbox.modify i fun o => (o.1, o.2.send) }

/-- A run from before the first start. -/
def gateRun (F : Type) [DoubleBits F] (es : List GateEvent) : GateSys F :=
  Lib.Run.run GateSys.step (GateSys.init F) es

/-- The result of an acknowledgement with `accepted = 1`. -/
def Answer.acceptedResult {F : Type} : Answer F → Option (Result F)
  | .resultAck m r => if m.accepted = 1 then some r else none
  | .statusReply _ => none

/-- The results acknowledged with `accepted = 1`, in the order of their
commits. -/
def GateSys.accepted {F : Type} (g : GateSys F) : List (Result F) :=
  g.outbox.filterMap fun o =>
    if o.2 = .sent then o.1.acceptedResult else none

end Obicall
