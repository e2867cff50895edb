/-
What a refused publish leaves behind. `handle_result_publish` lets
`obicall_gate_decide_publish` commit in memory and persists afterwards.
Every refusal of the decision itself leaves each pipeline's record as it
was; a commit that cannot be persisted is refused too, but its record
stays, and the broker that sends the result again is told that it is a
duplicate.

# The main result

`leavesNothing_iff`: a refused publish leaves nothing behind exactly when
the message does not bring a result that the gate would commit while the
state cannot be persisted.
-/
import Obicall.Gate.Proofs.Influence

namespace Obicall

open Lib.Fence Lib.Table

variable {F : Type}

-- ================================================================ records

/-- What a slot says is committed: the flag, the window and the digest. -/
def GatePipelineState.record (p : GatePipelineState) :
    UInt32 × UInt64 × DigestBytes :=
  (p.hasCommitted, p.lastCommittedWindowSeq, p.lastCommittedDigest)

/-- What the state says is committed for a pipeline id, all zero where
the id has no slot. -/
def GateState.committed (s : GateState) (id : PipelineId) :
    UInt32 × UInt64 × DigestBytes :=
  (s.findPipeline id).elim GatePipelineState.zero.record fun i =>
    (s.pipelines.get i).record

theorem committed_of_found {s : GateState} {id : PipelineId}
    {i : Fin maxPipelines} (h : s.findPipeline id = some i) :
    s.committed id = (s.pipelines.get i).record := by
  rw [GateState.committed, h, Option.elim_some]

theorem committed_of_not_found {s : GateState} {id : PipelineId}
    (h : s.findPipeline id = none) :
    s.committed id = GatePipelineState.zero.record := by
  rw [GateState.committed, h, Option.elim_none]

/-- The high-water is read off the record. -/
theorem high_eq_committed (s : GateState) (id : PipelineId) :
    s.high id
      = if (s.committed id).1 ≠ 0 then
          ((s.committed id).2.1.toNat : WithBot Nat)
        else ⊥ := by
  cases hf : s.findPipeline id with
  | none =>
      rw [high_of_not_found hf, committed_of_not_found hf]
      rfl
  | some i =>
      rw [high_of_found hf, committed_of_found hf]
      rfl

/-- Finding or opening a slot changes no record. -/
theorem committed_slotFor {s s' : GateState} {id : PipelineId}
    {i : Fin maxPipelines} (h : s.slotFor id = some (i, s'))
    (k : PipelineId) : s'.committed k = s.committed k := by
  rcases slotFor_cases h with ⟨-, rfl⟩ | ⟨hnone, hopen, -, -⟩
  · rfl
  by_cases hk : k = id
  · subst hk
    have hslot : (s'.pipelines.get i).record = _ :=
      congrArg GatePipelineState.record hopen.slot
    rw [committed_of_found (hopen.found hnone), committed_of_not_found hnone]
    exact hslot
  · obtain ⟨hfind, hne⟩ := hopen.slots_other hk
    cases hf : s.findPipeline k with
    | none =>
        rw [committed_of_not_found hf, committed_of_not_found (hfind.trans hf)]
    | some j =>
        rw [committed_of_found hf, committed_of_found (hfind.trans hf)]
        exact congrArg GatePipelineState.record
          (hopen.rest j (hne j (holds_of_findPipeline hf)))

variable [DoubleBits F]

/-- A decision against a commit changes no record. -/
theorem committed_of_not_commit {s s' : GateState} {r : Result F}
    {now : Int64} {o : GatePublishOutcome} {i : Option (Fin maxPipelines)}
    (h : obicallGateDecidePublish s r now = (o, i, s')) (ho : o ≠ .commit)
    (k : PipelineId) : s'.committed k = s.committed k := by
  rcases decide_cases h with ⟨-, rfl | ⟨j, hslot⟩⟩ | ⟨hc, -⟩
  · rfl
  · exact committed_slotFor hslot k
  · exact absurd hc ho

/-- A commit changes its pipeline's record. -/
theorem committed_of_commit {s s' : GateState} {r : Result F} {now : Int64}
    {i : Option (Fin maxPipelines)}
    (h : obicallGateDecidePublish s r now = (.commit, i, s')) :
    s'.committed r.pipelineId ≠ s.committed r.pipelineId := by
  intro hsame
  have hcommit := decide_commit h
  have habove : s.high r.pipelineId < (r.windowSeq.toNat : WithBot Nat) :=
    hcommit.admits.above
  rw [← hcommit.window, high_eq_committed, high_eq_committed, hsame]
    at habove
  exact lt_irrefl _ habove

-- ========================================================= the conditions

/-- The checks that a result passes to be committed: its own struct and in
time, a slot for its pipeline, an owner, and admitted by the mark. -/
structure GateState.Committable (s : GateState) (r : Result F)
    (now : Int64) : Prop where
  considered : r.Considered now
  room : HasRoom maxPipelines s.ids r.pipelineId
  owned : s.ownerBrokerId ≠ brokerNone
  admits : s.mark.Admits r.asCommit

omit [DoubleBits F] in
theorem verdict_eq_commit {m : Mark PipelineId UInt32} {r : Result F} :
    verdict m r = .commit ↔ m.owner ≠ brokerNone ∧ m.Admits r.asCommit := by
  rw [verdict]
  constructor
  · intro h
    split_ifs at h with hnone hbroker hlow hepoch hdup
    exact ⟨hnone, ⟨not_not.mp hepoch, not_not.mp hbroker, not_le.mp hdup⟩⟩
  · rintro ⟨hnone, hepoch, hbroker, habove⟩
    have hbroker' : r.brokerId = m.owner := hbroker
    have hepoch' : r.epoch.toNat = m.epoch := hepoch
    have habove' : m.high r.pipelineId < (r.windowSeq.toNat : WithBot Nat) :=
      habove
    rw [if_neg hnone, if_neg (not_not.mpr hbroker'),
      if_neg (not_not.mpr hepoch'), if_neg (not_le.mpr habove')]

theorem outcome_eq_commit_iff {s : GateState} {r : Result F} {now : Int64} :
    (obicallGateDecidePublish s r now).1 = .commit
      ↔ s.Committable r now := by
  by_cases hc : r.Considered now
  · rw [outcome_of_considered hc]
    by_cases hroom : HasRoom maxPipelines s.ids r.pipelineId
    · rw [if_pos hroom, verdict_eq_commit]
      exact ⟨fun ⟨howned, hadm⟩ => ⟨hc, hroom, howned, hadm⟩,
        fun h => ⟨h.owned, h.admits⟩⟩
    · rw [if_neg hroom]
      exact iff_of_false (by decide) fun h => hroom h.room
  · refine iff_of_false (fun h => ?_) fun h => hc h.considered
    obtain ⟨o, ho⟩ := decide_of_not_considered hc
    have hdec := ho s
    rw [hdec] at h
    subst h
    exact committed_of_commit hdec rfl

omit [DoubleBits F] in
/-- Persisting succeeds on a working disk, for a state in range. -/
theorem persistLocked_eq_true_iff {ctx : GateCtx} {file : Option (List UInt8)}
    {diskOk : Bool} :
    (persistLocked ctx file diskOk).1 = true
      ↔ diskOk = true ∧ ctx.state.InRange := by
  rw [persistLocked, obicallGatePersistState_eq, GateState.InRange]
  by_cases hbig : ctx.state.pipelineCount.toNat > maxPipelines
  · rw [if_pos hbig]
    exact iff_of_false Bool.false_ne_true fun h => by omega
  · rw [if_neg hbig]
    cases diskOk with
    | false => exact iff_of_false Bool.false_ne_true fun h => by cases h.1
    | true => exact iff_of_true rfl ⟨rfl, by omega⟩

/-- A commit does not bring a state into range. -/
theorem inRange_of_commit {s s' : GateState} {r : Result F} {now : Int64}
    {i : Option (Fin maxPipelines)}
    (h : obicallGateDecidePublish s r now = (.commit, i, s'))
    (hrange : s'.InRange) : s.InRange := by
  rcases decide_cases h with ⟨hne, -⟩ | ⟨-, j, s₁, hslot, -, -, rfl⟩
  · exact absurd rfl hne
  · have hcount : s₁.pipelineCount.toNat ≤ maxPipelines := hrange
    rcases slotFor_cases hslot with ⟨-, rfl⟩ | ⟨-, hopen, -, -⟩
    · exact hcount
    · have := hopen.count
      rw [GateState.InRange]
      omega

-- =============================================================== refusals

/-- A refused publish leaves nothing behind: where the acknowledgement says
`accepted = 0`, every record is as before, and where it says so because the
commit was not persisted, sending the result again before it expires is not
refused as a duplicate. -/
def LeavesNothing (F : Type) [DoubleBits F] (ctx : GateCtx)
    (file : Option (List UInt8)) (payload : List UInt8) (now : Int64)
    (diskOk : Bool) : Prop :=
  let h := handleResultPublish (F := F) ctx file payload now diskOk
  ∀ ack result, h.reply = some (ack, result) → ack.accepted = 0 →
    (∀ id, h.ctx.state.committed id = ctx.state.committed id)
    ∧ (ack.rejectStatus = Status.errGatePersistence.code →
      ∀ now' diskOk', now' < result.validUntilNs →
        ∀ again result', (handleResultPublish (F := F) h.ctx h.file payload
            now' diskOk').reply = some (again, result') →
          again.rejectStatus ≠ Status.errGateDuplicateWindow.code)

omit [DoubleBits F] in
theorem rejectStatus_persistence {o : GatePublishOutcome} {persistedOk : Bool}
    (h : (rejectStatus o persistedOk).code
      = Status.errGatePersistence.code) :
    o = .commit ∧ persistedOk = false := by
  cases o <;> cases persistedOk <;>
    first | exact ⟨rfl, rfl⟩ | exact absurd h (by decide)

/-- The message brings a result that the gate would commit, and the state
cannot be persisted. -/
def CommitsUnsaved (F : Type) [DoubleBits F] (ctx : GateCtx)
    (payload : List UInt8) (now : Int64) (diskOk : Bool) : Prop :=
  ∃ r : Result F, obicallWireDecodeResult payload = (.ok, r)
    ∧ ctx.state.Committable r now
    ∧ ¬ (diskOk = true ∧ ctx.state.InRange)

/-- A commit that cannot be persisted leaves its record behind. -/
theorem not_leavesNothing {ctx : GateCtx} {payload : List UInt8}
    {now : Int64} {diskOk : Bool} (h : CommitsUnsaved F ctx payload now diskOk)
    (file : Option (List UInt8)) :
    ¬ LeavesNothing F ctx file payload now diskOk := by
  obtain ⟨r, hdec, hcommittable, hunsaved⟩ := h
  intro hleaves
  cases hd : obicallGateDecidePublish ctx.state r now with
  | mk o rest =>
  obtain ⟨i, s'⟩ := rest
  have ho : o = .commit := by
    have hout := outcome_eq_commit_iff.mpr hcommittable
    rw [hd] at hout
    exact hout
  subst ho
  have heq := handleResultPublish_eq hdec hd file diskOk
  rw [if_pos rfl] at heq
  have hfails : (persistLocked { ctx with state := s' } file diskOk).1
      = false := by
    refine Bool.eq_false_iff.mpr fun htrue => hunsaved ?_
    obtain ⟨hdisk, hrange⟩ := persistLocked_eq_true_iff.mp htrue
    exact ⟨hdisk, inRange_of_commit hd hrange⟩
  rw [LeavesNothing, heq] at hleaves
  have hkept := (hleaves _ _ rfl (by rw [hfails]; rfl)).1 r.pipelineId
  exact committed_of_commit hd hkept

/-- Every other refused publish leaves nothing behind. -/
theorem leavesNothing_of_not {ctx : GateCtx} {payload : List UInt8}
    {now : Int64} {diskOk : Bool}
    (h : ¬ CommitsUnsaved F ctx payload now diskOk)
    (file : Option (List UInt8)) :
    LeavesNothing F ctx file payload now diskOk := by
  intro ack result hreply haccepted
  cases hdec : obicallWireDecodeResult (F := F) payload with
  | mk status r =>
  by_cases hok : status = .ok
  · subst hok
    cases hd : obicallGateDecidePublish ctx.state r now with
    | mk o rest =>
    obtain ⟨i, s'⟩ := rest
    have heq := handleResultPublish_eq hdec hd file diskOk
    by_cases ho : o = .commit
    · -- a commit that was refused was not persisted
      subst ho
      rw [if_pos rfl] at heq
      rw [heq] at hreply
      obtain ⟨rfl, rfl⟩ := Prod.mk.inj (Option.some.inj hreply)
      refine absurd ⟨r, hdec, ?_, fun hworks => ?_⟩ h
      · exact outcome_eq_commit_iff.mp (by rw [hd])
      · have htrue : (persistLocked { ctx with state := s' } file
            diskOk).1 = true :=
          persistLocked_eq_true_iff.mpr
            ⟨hworks.1, (decide_commit hd).inRange hworks.2⟩
        have hone := (accepted_resultAck (r := r)).mpr ⟨rfl, htrue⟩
        rw [hone] at haccepted
        exact absurd haccepted (by decide)
    · rw [if_neg ho] at heq
      rw [heq] at hreply
      obtain ⟨rfl, rfl⟩ := Prod.mk.inj (Option.some.inj hreply)
      rw [heq]
      refine ⟨committed_of_not_commit hd ho, fun hstatus => ?_⟩
      exact absurd (rejectStatus_persistence hstatus).1 ho
  · have heq : handleResultPublish (F := F) ctx file payload now diskOk
        = { ctx, file, saved := none, reply := none } := by
      simp only [handleResultPublish, hdec]
    rw [heq] at hreply
    cases hreply

/-- A refused publish leaves nothing behind exactly when it is not a
commit that could not be persisted. -/
theorem leavesNothing_iff (ctx : GateCtx) (file : Option (List UInt8))
    (payload : List UInt8) (now : Int64) (diskOk : Bool) :
    LeavesNothing F ctx file payload now diskOk
      ↔ ¬ CommitsUnsaved F ctx payload now diskOk :=
  ⟨fun h hunsaved => not_leavesNothing hunsaved file h,
    fun h => leavesNothing_of_not h file⟩

/-- The gate after `bootA`. -/
def gateOwnedByA : GateCtx where
  state := ownedByA
  brokers := #v[.zero, heartbeatView heartbeatA 10, .zero]
  requiredConfigDigest := Vector.replicate 32 0
  requiredCheckpointSchemaVersion := checkpointSchemaVersion
  maxAllowedReplayGap := 50
  confirmTimeoutNs := 700
  startTimeNs := 0

/-- Broker A's first result on a disk that fails. -/
def failedPublish : Handled (MsgResultAck × Result Binary64) :=
  handleResultPublish gateOwnedByA none resultA.bytes 20 false

/-- Broker A's first result is committed and not persisted: it is refused,
and when A sends it again, refused as a duplicate. -/
theorem unsaved_commit_stays :
    (gateRun Binary64 bootA).proc = some gateOwnedByA
      ∧ ¬ LeavesNothing Binary64 gateOwnedByA none resultA.bytes 20
          false := by
  refine ⟨by decide +kernel, fun hleaves => ?_⟩
  have hrefused : failedPublish.reply.map (fun a => (a.1.accepted,
      a.1.rejectStatus, a.2.validUntilNs))
      = some (0, Status.errGatePersistence.code, 1000) := by
    decide +kernel
  have hagain : (handleResultPublish (F := Binary64) failedPublish.ctx
      failedPublish.file resultA.bytes 30 true).reply.map
        (fun a => a.1.rejectStatus)
      = some Status.errGateDuplicateWindow.code := by
    decide +kernel
  obtain ⟨⟨ack, r⟩, hreply, hack⟩ := Option.map_eq_some_iff.mp hrefused
  obtain ⟨⟨again, r'⟩, hreply', hstatus⟩ := Option.map_eq_some_iff.mp hagain
  obtain ⟨haccepted, hpersist, huntil⟩ : ack.accepted = 0
      ∧ ack.rejectStatus = Status.errGatePersistence.code
      ∧ r.validUntilNs = 1000 := by
    simpa only [Prod.mk.injEq] using hack
  exact (hleaves ack r hreply haccepted).2 hpersist 30 true
    (by rw [huntil]; decide) again r' hreply' hstatus

end Obicall
