/-
What one message can do to the gate, said once: `Handles` lists the
three things that can happen to state, file and acknowledgements, and
each handler is shown to do one of them. Everything proved about runs of
the gate is a case split on `Handles`.
-/
import Mathlib.Data.List.Basic
import Obicall.Gate.Process
import Obicall.Gate.Proofs.Marks

namespace Obicall

open Lib.Fence

variable {F : Type}

-- ============================================================ persisting

/-- The file after a persist of `s` that ended in `saved`. -/
def SavedAs (s : GateState) (file file' : Option (List UInt8))
    (saved : Bool) : Prop :=
  if saved then ∃ bytes, obicallGatePersistState s = .ok bytes
    ∧ file' = some bytes
  else file' = file

theorem persistLocked_spec (ctx : GateCtx) (file : Option (List UInt8))
    (diskOk : Bool) :
    SavedAs ctx.state file (persistLocked ctx file diskOk).2
      (persistLocked ctx file diskOk).1 := by
  rw [persistLocked]
  cases hp : obicallGatePersistState ctx.state with
  | error e => rfl
  | ok bytes =>
      cases diskOk with
      | false => rfl
      | true => exact ⟨bytes, hp, rfl⟩

/-- On a working disk, persisting a state in range succeeds. -/
theorem persistLocked_diskOk {ctx : GateCtx} (file : Option (List UInt8))
    (hrange : ctx.state.InRange) :
    (persistLocked ctx file true).1 = true := by
  rw [persistLocked, obicallGatePersistState_eq,
    if_neg (Nat.not_lt.mpr hrange)]
  rfl

-- ====================================================== reported fields

/-- Opening a slot reports nothing new: its high-water is zero. -/
theorem Opens.committedHighWater {s s' : GateState} {id : PipelineId}
    {i : Fin maxPipelines} (h : Opens s s' id i) :
    s'.committedHighWater = s.committedHighWater := by
  have hold : s'.pipelines.toList.take s.pipelineCount.toNat
      = s.pipelines.toList.take s.pipelineCount.toNat := by
    apply List.ext_getElem (by simp)
    intro n hn hn'
    simp only [List.length_take, Vector.length_toList] at hn
    simp only [List.getElem_take, Vector.getElem_toList]
    have hlt : n < maxPipelines := by omega
    have hne : (⟨n, hlt⟩ : Fin maxPipelines) ≠ i := by
      intro he
      have hval : n = i.val := congrArg Fin.val he
      have := h.first
      omega
    exact h.rest ⟨n, hlt⟩ hne
  have hnew : s'.pipelines.toList[s.pipelineCount.toNat]?
      = some { GatePipelineState.zero with pipelineId := id } := by
    have hlt : s.pipelineCount.toNat < maxPipelines := h.first ▸ i.isLt
    rw [List.getElem?_eq_getElem (by simpa using hlt), Vector.getElem_toList]
    have hslot := h.slot
    simp only [Fin.getElem_fin, h.first] at hslot
    rw [hslot]
  have hkeep : ∀ hw : UInt64, (if (0 : UInt64) > hw then 0 else hw) = hw :=
    fun _ => if_neg (UInt64.not_lt.mpr UInt64.zero_le)
  rw [GateState.committedHighWater, GateState.committedHighWater, h.count,
    List.take_add_one, hold, hnew, Option.toList_some, List.foldl_append]
  exact hkeep _

theorem decide_inRange [DoubleBits F] {s s' : GateState} {r : Result F}
    {now : Int64} {o : GatePublishOutcome} {i : Option (Fin maxPipelines)}
    (h : obicallGateDecidePublish s r now = (o, i, s'))
    (ho : o ≠ .commit) : s.InRange → s'.InRange := by
  rcases decide_cases h with ⟨_, rfl | ⟨j, hslot⟩⟩ | ⟨hc, _⟩
  · exact id
  · exact inRange_slotFor hslot
  · exact absurd hc ho

/-- A publish decision other than a commit changes no reported field. -/
theorem decide_reported [DoubleBits F] {s s' : GateState} {r : Result F} {now : Int64}
    {o : GatePublishOutcome} {i : Option (Fin maxPipelines)}
    (h : obicallGateDecidePublish s r now = (o, i, s'))
    (ho : o ≠ .commit) : s'.reported = s.reported := by
  rcases decide_cases h with ⟨_, rfl | ⟨j, hslot⟩⟩ | ⟨hc, _⟩
  · rfl
  · rcases slotFor_cases hslot with ⟨_, rfl⟩ | ⟨_, hopen, hep, how⟩
    · rfl
    · rw [GateState.reported, hep, how, hopen.committedHighWater]
      rfl
  · exact absurd hc ho

-- ============================================================== handlers

/-- The broker that follows an owner. -/
def successor (owner : UInt32) : UInt32 :=
  if owner = brokerNone then brokerA
  else if owner = brokerA then brokerB
  else brokerA

/-- A promotion goes to the owner's successor. -/
theorem promotionTarget_eq {ctx : GateCtx} {now : Int64} {b : UInt32}
    (h : ctx.promotionTarget now = some b) :
    b = successor ctx.state.ownerBrokerId := by
  simp only [GateCtx.promotionTarget] at h
  rw [successor]
  by_cases hnone : ctx.state.ownerBrokerId = brokerNone
  · rw [if_pos hnone] at h ⊢
    split at h
    · exact (Option.some.inj h).symm
    · cases h
  · rw [if_neg hnone] at h ⊢
    split at h
    · cases h
    by_cases hA : ctx.state.ownerBrokerId = brokerA
    · simp only [hA, if_true] at h ⊢
      repeat' split at h
      all_goals first | exact (Option.some.inj h).symm | cases h
    · simp only [hA, if_false] at h ⊢
      repeat' split at h
      all_goals first | exact (Option.some.inj h).symm | cases h

/-- What a message can do: nothing the mark or a reply shows, a
promotion, or a commit. The last argument is the result the reply
acknowledges as accepted. -/
inductive Handles (s : GateState) (file : Option (List UInt8)) :
    GateState → Option (List UInt8) → Option Bool → Option (Result F) →
    Prop
  | quiet {s' : GateState} (hmark : s'.mark = s.mark)
      (hreported : s'.reported = s.reported)
      (hrange : s.InRange → s'.InRange) :
      Handles s file s' file none none
  | promote {file' : Option (List UInt8)} {saved : Bool}
      (hsaved : SavedAs (obicallGatePromote s (successor s.ownerBrokerId))
        file file' saved) :
      Handles s file (obicallGatePromote s (successor s.ownerBrokerId))
        file' (some saved) none
  | commit {s' : GateState} {file' : Option (List UInt8)} {saved : Bool}
      {r : Result F} (hcommit : Commits s r s')
      (hsaved : SavedAs s' file file' saved) :
      Handles s file s' file' (some saved) (if saved then some r else none)

/-- The result a handled message acknowledges as accepted. -/
def Handled.accepts {α : Type} (h : Handled α) (answer : α → Answer F) :
    Option (Result F) := h.reply.bind fun a => (answer a).acceptedResult

/-- A promotion that is due: the state moves, the persist is tried. -/
theorem evaluatePromotionLocked_some {ctx : GateCtx} {now : Int64}
    {b : UInt32} (h : ctx.promotionTarget now = some b)
    (file : Option (List UInt8)) (diskOk : Bool) :
    evaluatePromotionLocked ctx file now diskOk
      = let ctx' := { ctx with state := obicallGatePromote ctx.state b }
        { ctx := ctx', file := (persistLocked ctx' file diskOk).2
          saved := some (persistLocked ctx' file diskOk).1, reply := none } := by
  simp only [evaluatePromotionLocked, h]

theorem evaluatePromotionLocked_none {ctx : GateCtx} {now : Int64}
    (h : ctx.promotionTarget now = none) (file : Option (List UInt8))
    (diskOk : Bool) :
    evaluatePromotionLocked ctx file now diskOk
      = { ctx, file, saved := none, reply := none } := by
  simp only [evaluatePromotionLocked, h]

theorem evaluatePromotionLocked_spec (ctx : GateCtx)
    (file : Option (List UInt8)) (now : Int64) (diskOk : Bool) :
    Handles (F := F) ctx.state file
      (evaluatePromotionLocked ctx file now diskOk).ctx.state
      (evaluatePromotionLocked ctx file now diskOk).file
      (evaluatePromotionLocked ctx file now diskOk).saved none := by
  cases ht : ctx.promotionTarget now with
  | none =>
      rw [evaluatePromotionLocked_none ht]
      exact .quiet rfl rfl id
  | some b =>
      have hb := promotionTarget_eq ht
      subst hb
      rw [evaluatePromotionLocked_some ht]
      have hsaved := persistLocked_spec
        { ctx with
          state := obicallGatePromote ctx.state
            (successor ctx.state.ownerBrokerId) } file diskOk
      exact .promote hsaved

/-- A status reply always fits its frame buffer. -/
theorem sendStatusReply_eq (ctx : GateCtx) (now : Int64) :
    ctx.sendStatusReply now = some (ctx.statusReply now) := by
  rw [GateCtx.sendStatusReply, obicallWireEncodeStatusReply_eq _ (by omega)]
  rfl

/-- A noted heartbeat is not part of the durable state. -/
theorem noteHeartbeat_state {ctx ctx' : GateCtx} {payload : List UInt8}
    {now : Int64} (h : ctx.noteHeartbeat payload now = some ctx') :
    ctx'.state = ctx.state := by
  rw [GateCtx.noteHeartbeat] at h
  split at h
  · split at h
    · cases h; rfl
    split at h
    · cases h; rfl
    · cases h
  · cases h

theorem handleHeartbeat_spec (ctx : GateCtx) (file : Option (List UInt8))
    (payload : List UInt8) (now : Int64) (diskOk : Bool) :
    Handles (F := F) ctx.state file
      (handleHeartbeat ctx file payload now diskOk).ctx.state
      (handleHeartbeat ctx file payload now diskOk).file
      (handleHeartbeat ctx file payload now diskOk).saved none := by
  cases hn : ctx.noteHeartbeat payload now with
  | none =>
      simp only [handleHeartbeat, hn]
      exact .quiet rfl rfl id
  | some ctx' =>
      simp only [handleHeartbeat, hn]
      rw [← noteHeartbeat_state hn]
      exact evaluatePromotionLocked_spec ctx' file now diskOk

/-- The acknowledgement says accepted exactly for a persisted commit. -/
theorem accepted_resultAck {r : Result F} {o : GatePublishOutcome}
    {persistedOk : Bool} :
    (resultAck r o persistedOk).accepted = 1
      ↔ o = .commit ∧ persistedOk = true := by
  by_cases h : o = .commit ∧ persistedOk = true
  · simp only [resultAck, h, and_self, if_true]
  · simp only [resultAck, h, if_false]
    exact iff_of_false (by decide) not_false

/-- Every acknowledgement fits its frame buffer. -/
theorem handleResultPublish_eq [DoubleBits F] {ctx : GateCtx}
    {payload : List UInt8} {now : Int64} {result : Result F}
    {o : GatePublishOutcome} {i : Option (Fin maxPipelines)}
    {s' : GateState}
    (hdec : obicallWireDecodeResult payload = (.ok, result))
    (hd : obicallGateDecidePublish ctx.state result now = (o, i, s'))
    (file : Option (List UInt8)) (diskOk : Bool) :
    handleResultPublish ctx file payload now diskOk
      = let ctx' := { ctx with state := s' }
        if o = .commit then
          { ctx := ctx', file := (persistLocked ctx' file diskOk).2
            saved := some (persistLocked ctx' file diskOk).1
            reply := some (resultAck result o
              (persistLocked ctx' file diskOk).1, result) }
        else
          { ctx := ctx', file, saved := none
            reply := some (resultAck result o true, result) } := by
  have hsent : ∀ m : MsgResultAck,
      (obicallWireEncodeResultAck m 128).isOk = true := by
    intro m
    rw [obicallWireEncodeResultAck_eq m (by omega)]
    rfl
  by_cases ho : o = .commit
  · simp only [handleResultPublish, hdec, hd, ho, if_true, hsent,
      Option.getD_some]
  · simp only [handleResultPublish, hdec, hd, ho, if_false, hsent, if_true,
      Option.getD_none]

theorem handleResultPublish_spec [DoubleBits F] (ctx : GateCtx)
    (file : Option (List UInt8)) (payload : List UInt8) (now : Int64)
    (diskOk : Bool) :
    let h := handleResultPublish (F := F) ctx file payload now diskOk
    Handles ctx.state file h.ctx.state h.file h.saved
      (h.accepts fun a => .resultAck a.1 a.2) := by
  intro h
  cases hdec : obicallWireDecodeResult (F := F) payload with
  | mk status result =>
    by_cases hok : status = .ok
    · subst hok
      cases hd : obicallGateDecidePublish ctx.state result now with
      | mk o rest =>
        obtain ⟨i, s'⟩ := rest
        have heq : h = _ := handleResultPublish_eq hdec hd file diskOk
        by_cases ho : o = .commit
        · rw [heq, if_pos ho]
          subst ho
          simp only [Handled.accepts, Option.bind_some,
            Answer.acceptedResult, accepted_resultAck, true_and]
          have hsaved :=
            persistLocked_spec { ctx with state := s' } file diskOk
          exact .commit (decide_commit hd) hsaved
        · rw [heq, if_neg ho]
          simp only [Handled.accepts, Option.bind_some,
            Answer.acceptedResult, accepted_resultAck, ho, false_and,
            if_false]
          exact .quiet (decide_other hd ho) (decide_reported hd ho)
            (decide_inRange hd ho)
    · have heq : h = { ctx, file, saved := none, reply := none } := by
        simp only [h, handleResultPublish, hdec]
      rw [heq]
      exact .quiet rfl rfl id

theorem handleStatusQuery_spec (ctx : GateCtx)
    (file : Option (List UInt8)) (now : Int64) :
    Handles (F := F) ctx.state file
      (handleStatusQuery ctx file now).ctx.state
      (handleStatusQuery ctx file now).file
      (handleStatusQuery ctx file now).saved none :=
  .quiet rfl rfl id

/-- What one message does is a handler's doing. -/
theorem dispatch_cases [DoubleBits F] (g : GateSys F) (ctx : GateCtx)
    (msgType : UInt8) (payload : List UInt8) (now : Int64) (diskOk : Bool) :
    (msgType = msgHeartbeat ∧
      g.dispatch ctx msgType payload now diskOk
        = g.after ctx (handleHeartbeat ctx g.file payload now diskOk)
          .statusReply) ∨
    (msgType = msgResultPublish ∧
      g.dispatch ctx msgType payload now diskOk
        = g.after ctx
          (handleResultPublish (F := F) ctx g.file payload now diskOk)
          fun a => .resultAck a.1 a.2) ∨
    (msgType = msgStatusQuery ∧
      g.dispatch ctx msgType payload now diskOk
        = g.after ctx (handleStatusQuery ctx g.file now) .statusReply) ∨
    (msgType ≠ msgHeartbeat ∧ msgType ≠ msgResultPublish ∧
      msgType ≠ msgStatusQuery ∧
      g.dispatch ctx msgType payload now diskOk = g) := by
  rw [GateSys.dispatch]
  by_cases h₁ : msgType = msgHeartbeat
  · exact .inl ⟨h₁, if_pos h₁⟩
  · rw [if_neg h₁]
    by_cases h₂ : msgType = msgResultPublish
    · exact .inr (.inl ⟨h₂, if_pos h₂⟩)
    · rw [if_neg h₂]
      by_cases h₃ : msgType = msgStatusQuery
      · exact .inr (.inr (.inl ⟨h₃, if_pos h₃⟩))
      · exact .inr (.inr (.inr ⟨h₁, h₂, h₃, if_neg h₃⟩))

/-- A status reply accepts nothing. -/
theorem accepts_statusReply (h : Handled MsgStatusReply) :
    h.accepts (F := F) .statusReply = none := by
  rw [Handled.accepts]
  cases h.reply with
  | none => rfl
  | some m => rfl

/-- What holds before a message and after anything a handler can do
holds after the message. -/
theorem dispatch_elim [DoubleBits F] {P : GateSys F → Prop}
    (g : GateSys F) (ctx : GateCtx) (msgType : UInt8)
    (payload : List UInt8) (now : Int64) (diskOk : Bool) (hsame : P g)
    (hafter : ∀ {α : Type} (h : Handled α) (answer : α → Answer F),
      Handles ctx.state g.file h.ctx.state h.file h.saved
        (h.accepts answer) → P (g.after ctx h answer)) :
    P (g.dispatch ctx msgType payload now diskOk) := by
  rcases dispatch_cases g ctx msgType payload now diskOk with
    ⟨_, heq⟩ | ⟨_, heq⟩ | ⟨_, heq⟩ | ⟨_, _, _, heq⟩
  · rw [heq]
    exact hafter _ _ (accepts_statusReply _ ▸ handleHeartbeat_spec ..)
  · rw [heq]
    exact hafter _ _ (handleResultPublish_spec ..)
  · rw [heq]
    exact hafter _ _ (accepts_statusReply _ ▸ handleStatusQuery_spec ..)
  · rw [heq]
    exact hsame

/-- What an event can make of the process and what surrounds it. -/
inductive GateStepped [DoubleBits F] (g : GateSys F) :
    GateEvent → GateSys F → Prop
  /-- a start while it runs or that fails, or an event while it does not
  run -/
  | same (e : GateEvent) : GateStepped g e g
  | started {cfg : GateConfig} {now : Int64} {ctx : GateCtx}
      (hproc : g.proc = none) (hmain : gateMain cfg g.file now = some ctx) :
      GateStepped g (.start cfg now)
        { g with
          proc := some ctx
          durable := g.durable ++ [ctx.state]
          unsaved := false }
  | crashed :
      GateStepped g .crash
        { g with
          proc := none
          outbox := g.outbox.map fun o => (o.1, o.2.lose) }
  | received {ctx : GateCtx} (msgType : UInt8) (payload : List UInt8)
      (now : Int64) (diskOk : Bool) (hproc : g.proc = some ctx) :
      GateStepped g (.recv msgType payload now diskOk)
        (g.dispatch ctx msgType payload now diskOk)
  | sent {ctx : GateCtx} (i : Nat) (hproc : g.proc = some ctx) :
      GateStepped g (.send i)
        { g with outbox := g.outbox.modify i fun o => (o.1, o.2.send) }

theorem gateStepped [DoubleBits F] (g : GateSys F) (e : GateEvent) :
    GateStepped g e (g.step e) := by
  cases e with
  | start cfg now =>
      simp only [GateSys.step]
      split
      next hproc hmain => exact .started hproc hmain
      · exact .same _
  | crash => exact .crashed
  | recv msgType payload now diskOk =>
      simp only [GateSys.step]
      split
      · exact .same _
      next hproc => exact .received msgType payload now diskOk hproc
  | send i =>
      simp only [GateSys.step]
      split
      · exact .same _
      next hproc => exact .sent i hproc

end Obicall
