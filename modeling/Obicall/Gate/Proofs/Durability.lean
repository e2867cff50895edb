/-
Persistence precedes acknowledgment, and where it does not.

A `RESULT_ACK` with `accepted = 1` is always backed by the state file:
`handle_result_publish` looks at the outcome of its persist. A
`STATUS_REPLY` is built from memory, and `evaluate_promotion_locked`
drops the outcome of its persist, so a reply can report an epoch, an
owner or a window that no state file ever held.

# The condition

`GateSys.unsaved` is raised by a message that changes a reported field
without a successful persist, and lowered by the next success or start.
A run reports only durable states when each status reply is built while
nothing is unsaved: the reply's own promotion, if it makes one, reaches
the disk, and otherwise nothing was pending before (`statusSaved`).
-/
import Mathlib.Data.List.Basic
import Obicall.Core.Binary64
import Obicall.Gate.Proofs.Fencing

namespace Obicall

open Lib.Fence Lib.Run

variable {F : Type}

-- ============================================================ definitions

/-- The three fields a status reply shows. -/
def MsgStatusReply.reported (m : MsgStatusReply) : UInt64 × UInt32 × UInt64 :=
  (m.gateEpoch, m.ownerBrokerId, m.lastCommittedWindowSeq)

/-- A reply's report was durable: some state started from or written to
the file shows the same three fields. -/
def GateSys.WasDurable (g : GateSys F) (m : MsgStatusReply) : Prop :=
  ∃ s ∈ g.durable, s.reported = m.reported

instance (g : GateSys F) (m : MsgStatusReply) : Decidable (g.WasDurable m) :=
  inferInstanceAs (Decidable (∃ s ∈ g.durable, s.reported = m.reported))

/-- The result's window is committed for its pipeline in the state file,
and some written state has it as its high-water. -/
def GateSys.FileRecords (g : GateSys F) (r : Result F) : Prop :=
  (r.windowSeq.toNat : WithBot Nat) ≤ (recovered g.file).high r.pipelineId
  ∧ ∃ s ∈ g.durable, s.high r.pipelineId = (r.windowSeq.toNat : WithBot Nat)

/-- The status reply in an answer. -/
def Answer.report : Answer F → Option MsgStatusReply
  | .statusReply m => some m
  | .resultAck _ _ => none

/-- The status replies that have left the process. -/
def GateSys.sentReports (g : GateSys F) : List MsgStatusReply :=
  g.outbox.filterMap fun o => if o.2 = .sent then o.1.report else none

/-- Persistence precedes acknowledgment, in this state. -/
structure GateSys.PersistenceFirst (g : GateSys F) : Prop where
  reports : ∀ m ∈ g.sentReports, g.WasDurable m
  acks : ∀ r ∈ g.accepted, g.FileRecords r

/-- The message builds its status reply, if it builds one, with nothing
unsaved: its promotion reaches the disk, or nothing was pending. -/
def statusSaved (g : GateSys F) : GateEvent → Bool
  | .recv msgType payload now diskOk =>
      match g.proc with
      | none => true
      | some ctx =>
          if msgType = msgHeartbeat then
            match ctx.noteHeartbeat payload now with
            | none => true
            | some ctx' =>
                if (ctx'.promotionTarget now).isSome then diskOk
                else !g.unsaved
          else if msgType = msgStatusQuery then !g.unsaved
          else true
  | _ => true

-- ============================================================== invariant

/-- Every status reply built so far. -/
def GateSys.reports (g : GateSys F) : List MsgStatusReply :=
  g.outbox.filterMap fun o => o.1.report

/-- What holds in every reachable state, whatever the disk does. -/
structure DurInv (g : GateSys F) : Prop where
  inRange : ∀ ctx, g.proc = some ctx → ctx.state.InRange
  fileRange : (recovered g.file).InRange
  ahead : ∀ ctx, g.proc = some ctx →
    ∀ k, (recovered g.file).high k ≤ ctx.state.high k
  recorded : ∀ r ∈ g.commits, g.FileRecords r
  saved : ∀ ctx, g.proc = some ctx → g.unsaved = false →
    ∃ s ∈ g.durable, s.reported = ctx.state.reported

/-- The file after a persist is in range when the state and the old file
are. -/
theorem SavedAs.inRange {s : GateState} {file file' : Option (List UInt8)}
    {saved : Bool} (h : SavedAs s file file' saved) (hs : s.InRange)
    (hfile : (recovered file).InRange) : (recovered file').InRange := by
  cases saved with
  | false =>
      have hsame : file' = file := h
      exact hsame ▸ hfile
  | true =>
      obtain ⟨bytes, hp, hf⟩ := h
      rw [hf, recovered_persist hp]
      exact hs

theorem SavedAs.recovered_high {s : GateState}
    {file file' : Option (List UInt8)} {saved : Bool}
    (h : SavedAs s file file' saved) :
    (recovered file').high = if saved then s.high else (recovered file).high := by
  have hmark := congrArg Mark.high h.recovered_mark
  cases saved with
  | false => exact hmark
  | true => exact hmark

/-- The high-waters in memory and in the file after a handled message:
neither falls, and the file's stay below the memory's. -/
theorem Handles.high {s s' : GateState} {file file' : Option (List UInt8)}
    {saved : Option Bool} {acc : Option (Result F)}
    (h : Handles s file s' file' saved acc)
    (hahead : ∀ k, (recovered file).high k ≤ s.high k) :
    (∀ k, (recovered file).high k ≤ (recovered file').high k)
    ∧ ∀ k, (recovered file').high k ≤ s'.high k := by
  have hsave : ∀ {s' : GateState} {file' : Option (List UInt8)}
      {saved : Bool}, SavedAs s' file file' saved →
      (∀ k, s.high k ≤ s'.high k) →
      (∀ k, (recovered file).high k ≤ (recovered file').high k)
      ∧ ∀ k, (recovered file').high k ≤ s'.high k := by
    intro s' file' saved hsaved hle
    rw [hsaved.recovered_high]
    cases saved with
    | false => exact ⟨fun k => le_rfl, fun k => (hahead k).trans (hle k)⟩
    | true => exact ⟨fun k => (hahead k).trans (hle k), fun k => le_rfl⟩
  cases h with
  | quiet hmark _ _ =>
      have hhigh : s'.high = s.high := congrArg Mark.high hmark
      exact ⟨fun k => le_rfl, fun k => hhigh ▸ hahead k⟩
  | promote hsaved => exact hsave hsaved fun k => le_rfl
  | commit hcommit hsaved => exact hsave hsaved hcommit.le.high

/-- A handled message stays in range, in memory and in the file. -/
theorem Handles.inRange {s s' : GateState}
    {file file' : Option (List UInt8)} {saved : Option Bool}
    {acc : Option (Result F)} (h : Handles s file s' file' saved acc)
    (hs : s.InRange) (hfile : (recovered file).InRange) :
    s'.InRange ∧ (recovered file').InRange := by
  cases h with
  | quiet _ _ hrange => exact ⟨hrange hs, hfile⟩
  | promote hsaved => exact ⟨hs, hsaved.inRange hs hfile⟩
  | commit hcommit hsaved =>
      exact ⟨hcommit.inRange hs, hsaved.inRange (hcommit.inRange hs) hfile⟩

/-- An accepted result is in the file, at its very window. -/
theorem Handles.accepted {s s' : GateState}
    {file file' : Option (List UInt8)} {saved : Option Bool}
    {r : Result F} (h : Handles s file s' file' saved (some r)) :
    saved = some true
    ∧ s'.high r.pipelineId = (r.windowSeq.toNat : WithBot Nat)
    ∧ (recovered file').high = s'.high := by
  generalize hacc : some r = acc at h
  cases h with
  | quiet _ _ _ => cases hacc
  | promote _ => cases hacc
  | @commit s' file' sv r' hcommit hsaved =>
      cases sv with
      | false => cases hacc
      | true =>
          cases hacc
          exact ⟨rfl, hcommit.window, hsaved.recovered_high⟩

/-- What was recorded stays recorded. -/
theorem GateSys.FileRecords.mono {g g' : GateSys F} {r : Result F}
    (h : g.FileRecords r)
    (hfile : ∀ k, (recovered g.file).high k ≤ (recovered g'.file).high k)
    (hdur : ∀ s ∈ g.durable, s ∈ g'.durable) : g'.FileRecords r := by
  obtain ⟨hle, s, hs, hhigh⟩ := h
  exact ⟨hle.trans (hfile _), s, hdur s hs, hhigh⟩

theorem mem_durable_after {α : Type} (g : GateSys F) (ctx : GateCtx)
    (h : Handled α) (answer : α → Answer F) :
    ∀ s ∈ g.durable, s ∈ (g.after ctx h answer).durable := by
  intro s hs
  simp only [GateSys.after]
  split
  · exact List.mem_append_left _ hs
  · exact hs

theorem saved_mem_durable_after {α : Type} (g : GateSys F) (ctx : GateCtx)
    {h : Handled α} (answer : α → Answer F) (hsaved : h.saved = some true) :
    h.ctx.state ∈ (g.after ctx h answer).durable := by
  simp only [GateSys.after, hsaved, if_true]
  exact List.mem_append_right _ (List.mem_singleton.mpr rfl)

/-- A handled message keeps the invariant. -/
theorem DurInv.after {α : Type} {g : GateSys F} {ctx : GateCtx}
    {h : Handled α} {answer : α → Answer F} (hg : DurInv g)
    (hproc : g.proc = some ctx)
    (hh : Handles ctx.state g.file h.ctx.state h.file h.saved
      (h.accepts answer)) : DurInv (g.after ctx h answer) := by
  have hctx : ∀ ctx', (g.after ctx h answer).proc = some ctx' →
      h.ctx = ctx' := fun ctx' he => Option.some.inj he
  obtain ⟨hmono, hahead⟩ := hh.high (hg.ahead ctx hproc)
  obtain ⟨hrange, hfrange⟩ := hh.inRange (hg.inRange ctx hproc) hg.fileRange
  refine
    { inRange := fun ctx' he => hctx ctx' he ▸ hrange
      fileRange := hfrange
      ahead := fun ctx' he => hctx ctx' he ▸ hahead
      recorded := ?_
      saved := ?_ }
  · intro r hr
    rw [commits_after] at hr
    rcases List.mem_append.mp hr with hr | hr
    · exact (hg.recorded r hr).mono hmono
        (mem_durable_after g ctx h answer)
    · rw [Option.mem_toList] at hr
      rw [hr] at hh
      obtain ⟨hsaved, hwindow, hfile⟩ := hh.accepted
      refine ⟨?_, h.ctx.state, saved_mem_durable_after g ctx answer hsaved,
        hwindow⟩
      show _ ≤ (recovered h.file).high r.pipelineId
      rw [hfile, hwindow]
  · intro ctx' he hunsaved
    rw [← hctx ctx' he]
    by_cases hsaved : h.saved = some true
    · exact ⟨_, saved_mem_durable_after g ctx answer hsaved, rfl⟩
    · have hflag : (h.saved != some true
          && (g.unsaved || h.ctx.state.reported != ctx.state.reported))
          = false := hunsaved
      have hne : (h.saved != some true) = true := by
        simpa using hsaved
      rw [hne, Bool.true_and, Bool.or_eq_false_iff] at hflag
      obtain ⟨s, hs, hrep⟩ := hg.saved ctx hproc hflag.1
      refine ⟨s, mem_durable_after g ctx h answer s hs, ?_⟩
      have hsame : h.ctx.state.reported = ctx.state.reported := by
        simpa using hflag.2
      rw [hrep, hsame]

/-- A step keeps the invariant. -/
theorem DurInv.step [DoubleBits F] {g : GateSys F} (hg : DurInv g)
    (e : GateEvent) : DurInv (g.step e) := by
  have hstep := gateStepped g e
  generalize g.step e = g' at hstep ⊢
  cases hstep with
  | same => exact hg
  | @started _ _ ctx hproc hmain =>
      have hstate := gateMain_state hmain
      have hctx : ∀ ctx', some ctx = some ctx' → ctx = ctx' :=
        fun ctx' he => Option.some.inj he
      have hdur : ∀ s ∈ g.durable, s ∈ g.durable ++ [ctx.state] :=
        fun s hs => List.mem_append_left _ hs
      exact
        { inRange := fun ctx' he =>
            hctx ctx' he ▸ hstate ▸ hg.fileRange
          fileRange := hg.fileRange
          ahead := fun ctx' he k => hctx ctx' he ▸ hstate ▸ le_rfl
          recorded := fun r hr =>
            (hg.recorded r hr).mono (fun _ => le_rfl) hdur
          saved := fun ctx' he _ => ⟨ctx.state,
            List.mem_append_right _ (List.mem_singleton.mpr rfl),
            by rw [hctx ctx' he]⟩ }
  | crashed =>
      have hcommits := commits_map_fate Fate.lose g.outbox
      exact
        { inRange := fun _ h => by cases h
          fileRange := hg.fileRange
          ahead := fun _ h => by cases h
          recorded := fun r hr =>
            hg.recorded r ((congrArg (r ∈ ·) hcommits).mp hr)
          saved := fun _ h => by cases h }
  | received msgType payload now diskOk hproc =>
      exact dispatch_elim g _ msgType payload now diskOk hg
        fun h answer hh => hg.after hproc hh
  | sent i =>
      have hcommits := commits_modify_fate Fate.send i g.outbox
      exact
        { inRange := hg.inRange
          fileRange := hg.fileRange
          ahead := hg.ahead
          recorded := fun r hr =>
            hg.recorded r ((congrArg (r ∈ ·) hcommits).mp hr)
          saved := hg.saved }

theorem DurInv.init (F : Type) : DurInv (GateSys.init F) where
  inRange _ h := nomatch h
  fileRange := Nat.zero_le _
  ahead _ h := nomatch h
  recorded _ h := nomatch h
  saved _ h := nomatch h

-- ========================================================= status replies

/-- Every status reply built shows a durable state. -/
def GateSys.ReportsDurable (g : GateSys F) : Prop :=
  ∀ m ∈ g.reports, g.WasDurable m

theorem GateSys.WasDurable.mono {g g' : GateSys F} {m : MsgStatusReply}
    (h : g.WasDurable m) (hdur : ∀ s ∈ g.durable, s ∈ g'.durable) :
    g'.WasDurable m := by
  obtain ⟨s, hs, hrep⟩ := h
  exact ⟨s, hdur s hs, hrep⟩

/-- A handler that replies from its own state, with nothing unsaved
afterwards, replies with durable fields. -/
theorem GateSys.ReportsDurable.after {g : GateSys F} {ctx : GateCtx}
    {h : Handled MsgStatusReply} (hg : g.ReportsDurable)
    (hinv : DurInv (g.after ctx h .statusReply))
    (hreply : ∀ m, h.reply = some m →
      m.reported = h.ctx.state.reported
      ∧ (g.after ctx h (F := F) .statusReply).unsaved = false) :
    (g.after ctx h .statusReply).ReportsDurable := by
  have hdur := mem_durable_after g ctx h .statusReply
  intro m hm
  simp only [GateSys.reports, GateSys.after, List.filterMap_append] at hm
  rcases List.mem_append.mp hm with hm | hm
  · exact (hg m hm).mono hdur
  · cases hr : h.reply with
    | none => simp [hr] at hm
    | some m' =>
        have hmm : m = m' := by simpa [hr, Answer.report, eq_comm] using hm
        subst hmm
        obtain ⟨hrep, hunsaved⟩ := hreply m hr
        obtain ⟨s, hs, hsrep⟩ := hinv.saved h.ctx rfl hunsaved
        exact ⟨s, hs, hsrep.trans hrep.symm⟩

/-- A heartbeat that meets the condition leaves nothing unsaved when it
replies, and replies from the state it leaves. -/
theorem handleHeartbeat_saved {g : GateSys F} {ctx : GateCtx}
    (hrange : ctx.state.InRange) {payload : List UInt8} {now : Int64}
    {diskOk : Bool}
    (hcond : ∀ ctx', ctx.noteHeartbeat payload now = some ctx' →
      if (ctx'.promotionTarget now).isSome then diskOk = true
      else g.unsaved = false) (m : MsgStatusReply)
    (hm : (handleHeartbeat ctx g.file payload now diskOk).reply = some m) :
    let h := handleHeartbeat ctx g.file payload now diskOk
    m.reported = h.ctx.state.reported
      ∧ (g.after ctx h (F := F) .statusReply).unsaved = false := by
  cases hn : ctx.noteHeartbeat payload now with
  | none =>
      simp only [handleHeartbeat, hn] at hm
      cases hm
  | some ctx' =>
      have hstate := noteHeartbeat_state hn
      have hc := hcond ctx' hn
      simp only [handleHeartbeat, hn, sendStatusReply_eq,
        Option.some.injEq] at hm
      subst hm
      simp only [handleHeartbeat, hn, GateSys.after]
      refine ⟨rfl, ?_⟩
      cases ht : ctx'.promotionTarget now with
      | none =>
          rw [ht] at hc
          rw [evaluatePromotionLocked_none ht]
          have hunsaved : g.unsaved = false := hc
          simp [hunsaved, hstate]
      | some b =>
          rw [ht] at hc
          have hdisk : diskOk = true := hc
          subst hdisk
          rw [evaluatePromotionLocked_some ht]
          have hok : (persistLocked
              { ctx' with state := obicallGatePromote ctx'.state b }
              g.file true).1 = true :=
            persistLocked_diskOk g.file (hstate.symm ▸ hrange)
          simp [hok]

/-- A step that meets the condition adds only durable reports. -/
theorem reportsDurable_step [DoubleBits F] {g : GateSys F}
    (hinv : DurInv g) (hg : g.ReportsDurable) {e : GateEvent}
    (hcond : statusSaved g e = true) : (g.step e).ReportsDurable := by
  have hinv' := hinv.step e
  have hstep := gateStepped g e
  generalize g.step e = g' at hinv' hstep ⊢
  cases hstep with
  | same => exact hg
  | started =>
      exact fun m hm => (hg m hm).mono fun s hs => List.mem_append_left _ hs
  | crashed =>
      intro m hm
      simp only [GateSys.reports, List.filterMap_map] at hm
      exact hg m hm
  | @received ctx msgType payload now diskOk hproc =>
      simp only [statusSaved, hproc] at hcond
      rcases dispatch_cases g ctx msgType payload now diskOk with
        ⟨hmsg, heq⟩ | ⟨hmsg, heq⟩ | ⟨hmsg, heq⟩ |
        ⟨_, _, _, heq⟩
      · rw [heq] at hinv' ⊢
        refine hg.after hinv' fun m hm => handleHeartbeat_saved
          (hinv.inRange ctx hproc) (fun ctx' hn => ?_) m hm
        rw [if_pos hmsg, hn] at hcond
        by_cases ht : (ctx'.promotionTarget now).isSome = true
        · rw [if_pos ht]
          exact (if_pos ht).symm.trans hcond
        · rw [if_neg ht]
          have hnot := (if_neg ht).symm.trans hcond
          simpa using hnot
      · rw [heq]
        intro m hm
        have hsame : (g.after ctx
            (handleResultPublish (F := F) ctx g.file payload now diskOk)
            fun a => .resultAck a.1 a.2).reports = g.reports := by
          simp only [GateSys.reports, GateSys.after,
            List.filterMap_append]
          cases (handleResultPublish (F := F) ctx g.file payload now
            diskOk).reply with
          | none => simp
          | some a => simp [Answer.report]
        exact (hg m (hsame ▸ hm)).mono (mem_durable_after g ctx _ _)
      · rw [heq] at hinv' ⊢
        refine hg.after hinv' fun m hm => ?_
        have hm' : m = ctx.statusReply now := by
          simpa [handleStatusQuery, sendStatusReply_eq] using hm.symm
        rw [if_neg (by rw [hmsg]; decide), if_pos hmsg] at hcond
        have hunsaved : g.unsaved = false := by simpa using hcond
        subst hm'
        exact ⟨rfl, by simp [GateSys.after, handleStatusQuery, hunsaved]⟩
      · rw [heq]
        exact hg
  | sent i =>
      have hsame := filterMap_modify_fst Answer.report Fate.send i g.outbox
      exact fun m hm => hg m ((congrArg (m ∈ ·) hsame).mp hm)

theorem durInv_run [DoubleBits F] (es : List GateEvent) :
    DurInv (gateRun F es) :=
  run_inv (fun _ e h => h.step e) (DurInv.init F) es

/-- Runs that meet the condition report only durable states. -/
theorem reportsDurable_run [DoubleBits F] {es : List GateEvent}
    (h : Meets GateSys.step (fun g e => statusSaved g e = true)
      (GateSys.init F) es) : (gateRun F es).ReportsDurable := by
  have hboth := run_inv_of_meets
    (P := fun g : GateSys F => DurInv g ∧ g.ReportsDurable)
    (fun g e hg hc => ⟨hg.1.step e, reportsDurable_step hg.1 hg.2 hc⟩)
    ⟨DurInv.init F, fun _ hm => nomatch hm⟩ h
  exact hboth.2

/-- The acknowledgement half holds in every run: whatever the disk does,
an accepted result that left the process is in the state file. -/
theorem accepted_recorded [DoubleBits F] (es : List GateEvent) :
    ∀ r ∈ (gateRun F es).accepted, (gateRun F es).FileRecords r :=
  fun r hr => (durInv_run es).recorded r ((accepted_sublist _).subset hr)

/-- What was sent was built. -/
theorem sentReports_subset (g : GateSys F) : g.sentReports ⊆ g.reports := by
  intro m hm
  rw [GateSys.sentReports, List.mem_filterMap] at hm
  obtain ⟨o, ho, hm⟩ := hm
  rw [GateSys.reports, List.mem_filterMap]
  refine ⟨o, ho, ?_⟩
  by_cases hsent : o.2 = .sent
  · rwa [if_pos hsent] at hm
  · rw [if_neg hsent] at hm
    cases hm

/-- In a run whose status replies are built with nothing unsaved,
persistence precedes every acknowledgement. -/
theorem persistenceFirst_of_saved [DoubleBits F] (es : List GateEvent)
    (h : Meets GateSys.step (fun g e => statusSaved g e = true)
      (GateSys.init F) es) : (gateRun F es).PersistenceFirst where
  reports m hm := reportsDurable_run h m (sentReports_subset _ hm)
  acks := accepted_recorded es

theorem persistenceFirst_firstCommit :
    (gateRun Binary64 firstCommit).sentReports.length = 1
    ∧ (gateRun Binary64 firstCommit).PersistenceFirst :=
  ⟨by decide +kernel,
    persistenceFirst_of_saved firstCommit (by decide +kernel)⟩

/-- A first grant whose persist fails, and its reply. -/
def failedGrant : List GateEvent :=
  [.start ⟨Vector.replicate 32 0, 50, 700⟩ 0,
    .recv msgHeartbeat heartbeatA.bytes 10 false, .send 0]

/-- Its reply reports epoch 1 owned by A; no state file ever held it. -/
theorem failedGrant_not_persistenceFirst :
    ¬ (gateRun Binary64 failedGrant).PersistenceFirst := by
  intro h
  have hsent : (⟨1, 1, brokerA, 0, 10⟩ : MsgStatusReply)
      ∈ (gateRun Binary64 failedGrant).sentReports := by decide +kernel
  exact absurd (h.reports _ hsent) (by decide +kernel)

end Obicall
