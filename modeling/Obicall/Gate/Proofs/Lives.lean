/-
One gate process, from its start to its crash.

# The context alone

Between a start and a crash the context decides what a message does
(`GateCtx.next`): neither the file nor the disk's answers are read back.
A life is a run of `GateCtx.next` from a context that has heard nobody
(`Life.ctx_eq`), and every reachable state of a running process is the
end of one (`life_of_running`).

# What the process knows

`Told` says that the views are those of the last heartbeats since the
start, and that the requirements are the command line's. The rules of
promotion are then read off the heartbeats themselves.
-/
import Mathlib.Data.List.Basic
import Mathlib.Data.List.Induction
import Obicall.Gate.Proofs.Fencing

namespace Obicall

open Lib.Run

-- ================================================================= views

def IsBroker (b : UInt32) : Prop := b = brokerA ∨ b = brokerB

instance (b : UInt32) : Decidable (IsBroker b) :=
  inferInstanceAs (Decidable (_ ∨ _))

theorem IsBroker.ne_none {b : UInt32} (h : IsBroker b) : b ≠ brokerNone := by
  rcases h with rfl | rfl
  · decide
  · decide

/-- The requirements `evaluate_promotion_locked` passes on. -/
def GateCtx.requirements (ctx : GateCtx) : GatePromotionRequirements where
  requiredConfigDigest := ctx.requiredConfigDigest
  requiredCheckpointSchemaVersion := ctx.requiredCheckpointSchemaVersion
  maxAllowedReplayGap := ctx.maxAllowedReplayGap

theorem view_noted (ctx : GateCtx) {hb : MsgHeartbeat} (now : Int64)
    (hhb : IsBroker hb.brokerId) {b : UInt32} (hb' : IsBroker b) :
    (ctx.noted hb now).view b
      = if b = hb.brokerId then heartbeatView hb now else ctx.view b := by
  rw [GateCtx.view, GateCtx.view, GateCtx.noted]
  rcases hhb with h | h <;> rcases hb' with h' | h' <;>
    simp [h, h', brokerA, brokerB]

/-- A heartbeat is noted when it decodes and names a broker. -/
theorem noteHeartbeat_eq_some {ctx ctx' : GateCtx} {payload : List UInt8}
    {now : Int64} :
    ctx.noteHeartbeat payload now = some ctx'
      ↔ ∃ hb, obicallWireDecodeHeartbeat payload = (.ok, hb)
        ∧ IsBroker hb.brokerId ∧ ctx' = ctx.noted hb now := by
  rw [GateCtx.noteHeartbeat]
  split
  next hb hdec =>
    rw [hdec]
    constructor
    · intro h
      refine ⟨hb, rfl, ?_⟩
      split at h
      next hA => exact ⟨.inl hA, by cases h; simp [GateCtx.noted, hA]⟩
      next hA =>
        split at h
        next hB => exact ⟨.inr hB, by cases h; simp [GateCtx.noted, hA]⟩
        · cases h
    · rintro ⟨hb', he, hhb, rfl⟩
      obtain rfl : hb = hb' := congrArg Prod.snd he
      rcases hhb with hA | hB
      · simp [GateCtx.noted, hA]
      · simp [GateCtx.noted, hB, brokerA, brokerB]
  next st hb hst hdec =>
    refine iff_of_false (fun h => by cases h) ?_
    rintro ⟨hb', he, -⟩
    exact hst (congrArg Prod.fst (hdec.symm.trans he))

-- ========================================================= one message

/-- What a heartbeat does to the context. -/
def GateCtx.heard (ctx : GateCtx) (payload : List UInt8) (now : Int64) :
    GateCtx :=
  match ctx.noteHeartbeat payload now with
  | none => ctx
  | some ctx =>
      { ctx with
        state := (ctx.promotionTarget now).elim ctx.state
          (obicallGatePromote ctx.state) }

/-- What a published result does to the state. -/
def GateCtx.published (F : Type) [DoubleBits F] (ctx : GateCtx)
    (payload : List UInt8) (now : Int64) : GateState :=
  match obicallWireDecodeResult (F := F) payload with
  | (.ok, result) => (obicallGateDecidePublish ctx.state result now).2.2
  | (_, _) => ctx.state

/-- What an event does to the context of a running process. -/
def GateCtx.next (F : Type) [DoubleBits F] (ctx : GateCtx) :
    GateEvent → GateCtx
  | .recv msgType payload now _ =>
      if msgType = msgHeartbeat then ctx.heard payload now
      else if msgType = msgResultPublish then
        { ctx with state := ctx.published F payload now }
      else ctx
  | _ => ctx

theorem handleHeartbeat_ctx (ctx : GateCtx) (file : Option (List UInt8))
    (payload : List UInt8) (now : Int64) (diskOk : Bool) :
    (handleHeartbeat ctx file payload now diskOk).ctx
      = ctx.heard payload now := by
  rw [handleHeartbeat, GateCtx.heard]
  cases ctx.noteHeartbeat payload now with
  | none => rfl
  | some ctx =>
      dsimp only
      cases ht : ctx.promotionTarget now with
      | none => rw [evaluatePromotionLocked_none ht, Option.elim_none]
      | some b => rw [evaluatePromotionLocked_some ht, Option.elim_some]

variable {F : Type} [DoubleBits F]

theorem handleResultPublish_ctx (ctx : GateCtx)
    (file : Option (List UInt8)) (payload : List UInt8) (now : Int64)
    (diskOk : Bool) :
    (handleResultPublish (F := F) ctx file payload now diskOk).ctx
      = { ctx with state := ctx.published F payload now } := by
  rw [GateCtx.published]
  cases hdec : obicallWireDecodeResult (F := F) payload with
  | mk status result =>
    by_cases hok : status = .ok
    · subst hok
      cases hd : obicallGateDecidePublish ctx.state result now with
      | mk o rest =>
        obtain ⟨i, s'⟩ := rest
        rw [handleResultPublish_eq hdec hd]
        dsimp only
        rw [hd]
        by_cases ho : o = .commit
        · rw [if_pos ho]
        · rw [if_neg ho]
    · simp only [handleResultPublish, hdec]

/-- While a process runs, its context moves by `GateCtx.next`. -/
theorem proc_step {g : GateSys F} {ctx : GateCtx} (h : g.proc = some ctx)
    {e : GateEvent} (he : e ≠ .crash) :
    (g.step e).proc = some (ctx.next F e) := by
  cases e with
  | crash => exact absurd rfl he
  | start cfg now =>
      simp only [GateSys.step, h]
      rfl
  | send i =>
      simp only [GateSys.step, h]
      rfl
  | recv msgType payload now diskOk =>
      simp only [GateSys.step, h, GateCtx.next]
      rcases dispatch_cases g ctx msgType payload now diskOk with
        ⟨ht, heq⟩ | ⟨ht, heq⟩ | ⟨ht, heq⟩ | ⟨h₁, h₂, _, heq⟩
      · rw [heq, if_pos ht]
        exact congrArg some (handleHeartbeat_ctx ..)
      · rw [heq, if_neg (by rw [ht]; decide), if_pos ht]
        exact congrArg some (handleResultPublish_ctx ..)
      · rw [heq, if_neg (by rw [ht]; decide), if_neg (by rw [ht]; decide)]
        rfl
      · rw [heq, if_neg h₁, if_neg h₂, h]

/-- The context after a run of messages. -/
def GateCtx.after (F : Type) [DoubleBits F] (ctx : GateCtx)
    (es : List GateEvent) : GateCtx := run (GateCtx.next F) ctx es

theorem proc_run {g : GateSys F} {ctx : GateCtx} (h : g.proc = some ctx)
    {es : List GateEvent} (hes : ∀ e ∈ es, e ≠ .crash) :
    (run GateSys.step g es).proc = some (ctx.after F es) := by
  induction es generalizing g ctx with
  | nil => exact h
  | cons e es ih =>
      obtain ⟨he, hes⟩ := List.forall_mem_cons.mp hes
      exact ih (proc_step h he) hes

-- ============================================================ heartbeats

/-- The heartbeat of a broker that an event is, with its clock. -/
def GateEvent.heartbeat : GateEvent → Option (MsgHeartbeat × Int64)
  | .recv msgType payload now _ =>
      if msgType = msgHeartbeat then
        match obicallWireDecodeHeartbeat payload with
        | (.ok, hb) => if IsBroker hb.brokerId then some (hb, now) else none
        | (_, _) => none
      else none
  | _ => none

/-- The heartbeats of one broker, in order. -/
def heartbeatsFrom (b : UInt32) (es : List GateEvent) :
    List (MsgHeartbeat × Int64) :=
  (es.filterMap GateEvent.heartbeat).filter fun p => p.1.brokerId = b

/-- When a broker was last heard. -/
def lastHeard (b : UInt32) (es : List GateEvent) : Option Int64 :=
  (heartbeatsFrom b es).getLast?.map Prod.snd

/-- The context once a heartbeat is noted and promotion evaluated. -/
def GateCtx.promoted (ctx : GateCtx) (now : Int64) : GateCtx :=
  { ctx with
    state := (ctx.promotionTarget now).elim ctx.state
      (obicallGatePromote ctx.state) }

omit [DoubleBits F] in
theorem heartbeat_eq_some {e : GateEvent} {hb : MsgHeartbeat} {now : Int64}
    (h : e.heartbeat = some (hb, now)) : IsBroker hb.brokerId
      ∧ ∃ payload diskOk, e = .recv msgHeartbeat payload now diskOk
        ∧ obicallWireDecodeHeartbeat payload = (.ok, hb) := by
  cases e with
  | recv msgType payload now' diskOk =>
      simp only [GateEvent.heartbeat] at h
      split at h
      next ht =>
        split at h
        next hb' hdec =>
          split at h
          next hbroker =>
            cases h
            exact ⟨hbroker, payload, diskOk, by rw [ht], hdec⟩
          · cases h
        · cases h
      · cases h
  | start cfg t => cases h
  | crash => cases h
  | send i => cases h

/-- A broker's heartbeat is noted, then promotion is evaluated. -/
theorem next_of_heartbeat {e : GateEvent} {hb : MsgHeartbeat} {now : Int64}
    (h : e.heartbeat = some (hb, now)) (ctx : GateCtx) :
    ctx.next F e = (ctx.noted hb now).promoted now := by
  obtain ⟨hbroker, payload, diskOk, rfl, hdec⟩ := heartbeat_eq_some h
  have hnote : ctx.noteHeartbeat payload now = some (ctx.noted hb now) :=
    noteHeartbeat_eq_some.mpr ⟨hb, hdec, hbroker, rfl⟩
  rw [GateCtx.next, if_pos rfl, GateCtx.heard, hnote]
  rfl

omit [DoubleBits F] in
/-- A heartbeat message that is not a broker's heartbeat is dropped. -/
theorem noteHeartbeat_of_not_heartbeat {payload : List UInt8}
    {now : Int64} {diskOk : Bool}
    (h : (GateEvent.recv msgHeartbeat payload now diskOk).heartbeat = none)
    (ctx : GateCtx) : ctx.noteHeartbeat payload now = none := by
  rw [Option.eq_none_iff_forall_ne_some]
  intro ctx' hnote
  obtain ⟨hb, hdec, hbroker, -⟩ := noteHeartbeat_eq_some.mp hnote
  simp only [GateEvent.heartbeat, if_true, hdec, if_pos hbroker] at h
  cases h

/-- A context that differs in the state only, not in the grant. -/
structure GateCtx.SameGrant (ctx ctx' : GateCtx) : Prop where
  rest : ctx' = { ctx with state := ctx'.state }
  epoch : ctx'.state.epoch = ctx.state.epoch
  owner : ctx'.state.ownerBrokerId = ctx.state.ownerBrokerId

/-- Any other event leaves views, requirements and grant as they are. -/
theorem next_of_not_heartbeat {e : GateEvent} (h : e.heartbeat = none)
    (ctx : GateCtx) : ctx.SameGrant (ctx.next F e) := by
  have hsame : ctx.SameGrant ctx := ⟨rfl, rfl, rfl⟩
  cases e with
  | start cfg t => exact hsame
  | crash => exact hsame
  | send i => exact hsame
  | recv msgType payload now diskOk =>
      rw [GateCtx.next]
      split
      next ht =>
        subst ht
        rw [GateCtx.heard, noteHeartbeat_of_not_heartbeat h]
        exact hsame
      next ht =>
        split
        · rw [GateCtx.published]
          split
          next result hdec =>
            cases hd : obicallGateDecidePublish ctx.state result now with
            | mk o rest =>
              obtain ⟨i, s'⟩ := rest
              obtain ⟨hepoch, howner⟩ := decide_grant hd
              exact ⟨rfl, hepoch, howner⟩
          · exact hsame
        · exact hsame

-- ================================================================ a life

/-- Events of one process: it starts on what the events before have left
on the disk, and no crash is among its messages. -/
structure Life (F : Type) [DoubleBits F] (before : List GateEvent)
    (cfg : GateConfig) (t₀ : Int64) (msgs : List GateEvent) : Prop where
  idle : (gateRun F before).proc = none
  started : (gateMain cfg (gateRun F before).file t₀).isSome
  running : ∀ e ∈ msgs, e ≠ .crash

/-- The events of a life, with what came before. -/
def lifeEvents (before : List GateEvent) (cfg : GateConfig) (t₀ : Int64)
    (msgs : List GateEvent) : List GateEvent :=
  before ++ .start cfg t₀ :: msgs

/-- The context at the end of a life. -/
theorem Life.ctx_eq {before msgs : List GateEvent} {cfg : GateConfig}
    {t₀ : Int64} (life : Life F before cfg t₀ msgs) {ctx : GateCtx}
    (hctx : (gateRun F (lifeEvents before cfg t₀ msgs)).proc = some ctx) :
    ∃ boot, gateMain cfg (gateRun F before).file t₀ = some boot
      ∧ ctx = boot.after F msgs := by
  obtain ⟨boot, hboot⟩ := Option.isSome_iff_exists.mp life.started
  refine ⟨boot, hboot, ?_⟩
  have hstart : ((gateRun F before).step (.start cfg t₀)).proc
      = some boot := by
    simp only [GateSys.step, life.idle, hboot]
  have hrun := proc_run hstart life.running
  rw [gateRun, lifeEvents, run_append, run_cons] at hctx
  exact Option.some.inj (hctx.symm.trans hrun)

/-- The requirements of a command line. -/
def GateConfig.requirements (cfg : GateConfig) :
    GatePromotionRequirements where
  requiredConfigDigest := cfg.configDigest
  requiredCheckpointSchemaVersion := checkpointSchemaVersion
  maxAllowedReplayGap := cfg.maxReplayGap

/-- The view that the heartbeats of a broker leave. -/
def viewAfter (hbs : List (MsgHeartbeat × Int64)) : BrokerView :=
  hbs.getLast?.elim .zero fun p => heartbeatView p.1 p.2

/-- The context knows what the events told it, and its command line. -/
structure Told (cfg : GateConfig) (es : List GateEvent) (ctx : GateCtx) :
    Prop where
  view : ∀ b, IsBroker b → ctx.view b = viewAfter (heartbeatsFrom b es)
  requirements : ctx.requirements = cfg.requirements
  confirm : ctx.confirmTimeoutNs = cfg.confirmTimeoutNs

omit [DoubleBits F] in
theorem told_boot {cfg : GateConfig} {file : Option (List UInt8)}
    {t₀ : Int64} {boot : GateCtx} (h : gateMain cfg file t₀ = some boot) :
    Told cfg [] boot := by
  have hboot : ∃ state, boot =
      { state, brokers := Vector.replicate 3 .zero
        requiredConfigDigest := cfg.configDigest
        requiredCheckpointSchemaVersion := checkpointSchemaVersion
        maxAllowedReplayGap := cfg.maxReplayGap
        confirmTimeoutNs := cfg.confirmTimeoutNs, startTimeNs := t₀ } := by
    simp only [gateMain] at h
    split at h
    · exact ⟨_, (Option.some.inj h).symm⟩
    · split at h
      · exact ⟨_, (Option.some.inj h).symm⟩
      · cases h
  obtain ⟨state, rfl⟩ := hboot
  refine ⟨fun b _ => ?_, rfl, rfl⟩
  rw [GateCtx.view]
  split
  · rfl
  · rfl

omit [DoubleBits F] in
theorem heartbeatsFrom_append (b : UInt32) (es : List GateEvent)
    (e : GateEvent) :
    heartbeatsFrom b (es ++ [e]) = heartbeatsFrom b es
      ++ (e.heartbeat.toList.filter fun p => p.1.brokerId = b) := by
  rw [heartbeatsFrom, heartbeatsFrom, List.filterMap_append,
    List.filter_append]
  cases h : e.heartbeat with
  | none => simp [h]
  | some p => simp [h]

omit [DoubleBits F] in
/-- A noted heartbeat tells the context who sent it. -/
theorem Told.noted {cfg : GateConfig} {es : List GateEvent}
    {ctx : GateCtx} (h : Told cfg es ctx) {e : GateEvent}
    {hb : MsgHeartbeat} {now : Int64} (he : e.heartbeat = some (hb, now)) :
    Told cfg (es ++ [e]) (ctx.noted hb now) := by
  obtain ⟨hbroker, -⟩ := heartbeat_eq_some he
  refine ⟨fun b hb' => ?_, h.requirements, h.confirm⟩
  rw [view_noted ctx now hbroker hb', heartbeatsFrom_append, he]
  by_cases hsame : b = hb.brokerId
  · simp [hsame, viewAfter]
  · simp [hsame, Ne.symm hsame, h.view b hb']

theorem Told.next {cfg : GateConfig} {es : List GateEvent} {ctx : GateCtx}
    (h : Told cfg es ctx) (e : GateEvent) :
    Told cfg (es ++ [e]) (ctx.next F e) := by
  cases he : e.heartbeat with
  | some p =>
      have hnoted := h.noted he
      rw [next_of_heartbeat he]
      exact ⟨hnoted.view, hnoted.requirements, hnoted.confirm⟩
  | none =>
      have hnext := next_of_not_heartbeat (F := F) he ctx
      rw [hnext.rest]
      refine ⟨fun b hb => ?_, h.requirements, h.confirm⟩
      rw [heartbeatsFrom_append, he, Option.toList_none, List.filter_nil,
        List.append_nil]
      exact h.view b hb

/-- At any point of its life a process knows what it was told in it. -/
theorem Life.told {before msgs : List GateEvent} {cfg : GateConfig}
    {t₀ : Int64} (life : Life F before cfg t₀ msgs) {ctx : GateCtx}
    (hctx : (gateRun F (lifeEvents before cfg t₀ msgs)).proc = some ctx) :
    Told cfg msgs ctx := by
  obtain ⟨boot, hboot, rfl⟩ := life.ctx_eq hctx
  exact run_trace (fun _ _ e _ h => h.next e) (told_boot hboot) life.running

omit [DoubleBits F] in
/-- A broker is known once it was heard. -/
theorem Told.heard_iff {cfg : GateConfig} {es : List GateEvent}
    {ctx : GateCtx} (h : Told cfg es ctx) {b : UInt32} (hb : IsBroker b)
    {t : Int64} :
    lastHeard b es = some t
      ↔ (ctx.view b).known = true ∧ (ctx.view b).lastHeartbeatNs = t := by
  rw [h.view b hb, lastHeard, viewAfter]
  cases (heartbeatsFrom b es).getLast? with
  | none => simp [BrokerView.zero]
  | some p => simp [heartbeatView]

end Obicall
