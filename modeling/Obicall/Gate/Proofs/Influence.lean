/-
What submissions that are not committed leave behind. They move no mark
(`decide_other`), but a result that reaches the slot search takes a slot
of the pipeline table for its id before anything else about it is
checked. The table is a first-come table (`Lib.Table`) shared by both
brokers, and what a publish decision depends on is the mark and whether
the id finds a place in it.

# The main result

`outcome_submitAll_iff`: after any sequence of uncommitted results a
further one is decided as if they had never been sent exactly when its
id still finds a place in the table whenever it found one before.
-/
import Mathlib.Data.List.Basic
import Obicall.Core.Binary64
import Obicall.Gate.Proofs.Fencing
import Obicall.Lib.Table

namespace Obicall

open Lib.Fence Lib.Run Lib.Table

variable {F : Type}

-- ============================================================= the table

/-- The ids of the slots in use, in slot order. -/
def GateState.ids (s : GateState) : List PipelineId :=
  (s.pipelines.toList.take s.pipelineCount.toNat).map (·.pipelineId)

theorem length_ids (s : GateState) :
    s.ids.length = min s.pipelineCount.toNat maxPipelines := by
  simp [GateState.ids]

theorem mem_ids {s : GateState} {id : PipelineId} :
    id ∈ s.ids ↔ ∃ i, s.Holds id i := by
  rw [GateState.ids, List.mem_map]
  constructor
  · rintro ⟨p, hp, rfl⟩
    obtain ⟨j, hj, rfl⟩ := List.getElem_of_mem hp
    have hlt := hj
    rw [List.length_take, Vector.length_toList, Nat.lt_min] at hlt
    refine ⟨⟨j, hlt.2⟩, hlt.1, ?_⟩
    rw [List.getElem_take, Vector.getElem_toList]
    rfl
  · rintro ⟨i, hlt, rfl⟩
    refine ⟨s.pipelines[i], ?_, rfl⟩
    rw [List.mem_take_iff_getElem]
    refine ⟨i.val, ?_, ?_⟩
    · rw [Vector.length_toList]
      omega
    · rw [Vector.getElem_toList]
      rfl

/-- A found slot means the id is in the table. -/
theorem mem_ids_of_found {s : GateState} {id : PipelineId}
    {i : Fin maxPipelines} (h : s.findPipeline id = some i) : id ∈ s.ids :=
  mem_ids.mpr ⟨i, holds_of_findPipeline h⟩

theorem not_mem_ids_of_not_found {s : GateState} {id : PipelineId}
    (h : s.findPipeline id = none) : id ∉ s.ids := fun hmem => by
  obtain ⟨i, hi⟩ := mem_ids.mp hmem
  exact findPipeline_eq_none.mp h i hi

/-- Opening a slot adds its id behind the others. -/
theorem Opens.ids {s s' : GateState} {id : PipelineId}
    {i : Fin maxPipelines} (h : Opens s s' id i) :
    s'.ids = s.ids ++ [id] := by
  have hnew : s'.pipelines.toList[s.pipelineCount.toNat]?
      = some { GatePipelineState.zero with pipelineId := id } := by
    rw [← h.first, List.getElem?_eq_getElem (by simp),
      Vector.getElem_toList]
    exact congrArg some h.slot
  have hold : s'.pipelines.toList.take s.pipelineCount.toNat
      = s.pipelines.toList.take s.pipelineCount.toNat := by
    apply List.ext_getElem
    · simp
    · intro j h₁ h₂
      rw [List.length_take, Vector.length_toList] at h₁
      rw [List.getElem_take, List.getElem_take, Vector.getElem_toList,
        Vector.getElem_toList]
      exact h.rest ⟨j, by omega⟩ fun he => by
        have hval : j = i.val := congrArg Fin.val he
        have := h.first
        omega
  rw [GateState.ids, GateState.ids, h.count, List.take_add_one, hold, hnew,
    List.map_append]
  rfl

/-- A slot search that succeeds leaves the table with the id entered. -/
theorem ids_slotFor {s s' : GateState} {id : PipelineId}
    {i : Fin maxPipelines} (h : s.slotFor id = some (i, s')) :
    HasRoom maxPipelines s.ids id
      ∧ s'.ids = enter maxPipelines s.ids id := by
  rcases slotFor_cases h with ⟨hfound, rfl⟩ | ⟨hnone, hopen, -, -⟩
  · have hmem := mem_ids_of_found hfound
    exact ⟨.inl hmem, (if_pos (.inl hmem)).symm⟩
  · have hmem := not_mem_ids_of_not_found hnone
    have hlen : s.ids.length < maxPipelines := by
      have := hopen.first
      have := i.isLt
      rw [length_ids]
      omega
    refine ⟨.inr hlen, ?_⟩
    rw [enter, if_neg (not_or.mpr ⟨hmem, by omega⟩), hopen.ids]

/-- A slot search that fails found the table full without the id. -/
theorem not_hasRoom_of_slotFor {s : GateState} {id : PipelineId}
    (h : s.slotFor id = none) : ¬ HasRoom maxPipelines s.ids id := by
  rw [GateState.slotFor] at h
  cases hf : s.findPipeline id with
  | some i =>
      rw [hf] at h
      cases h
  | none =>
      rw [hf] at h
      by_cases hcount : s.pipelineCount.toNat < maxPipelines
      · simp [hcount] at h
      · refine not_or.mpr ⟨not_mem_ids_of_not_found hf, ?_⟩
        rw [length_ids]
        omega

-- ========================================================== the decision

/-- The checks `obicall_gate_decide_publish` makes before it looks for a
slot: the struct's version, and the expiry. -/
def Result.Considered (r : Result F) (now : Int64) : Prop :=
  r.structSize = sizeofResult ∧ r.schemaVersion = resultSchemaVersion
    ∧ ¬ r.validUntilNs ≤ now

instance (r : Result F) (now : Int64) : Decidable (r.Considered now) :=
  inferInstanceAs (Decidable (_ ∧ _ ∧ _))

/-- The checks after the slot search, on the mark. -/
def verdict (m : Mark PipelineId UInt32) (r : Result F) :
    GatePublishOutcome :=
  if m.owner = brokerNone then .rejectNotOwner
  else if r.brokerId ≠ m.owner then
    if r.epoch.toNat < m.epoch then .rejectStaleEpoch else .shadowRecorded
  else if r.epoch.toNat ≠ m.epoch then .rejectStaleEpoch
  else if (r.windowSeq.toNat : WithBot Nat) ≤ m.high r.pipelineId then
    .rejectDuplicateWindow
  else .commit

theorem verdict_ne_noCapacity (m : Mark PipelineId UInt32) (r : Result F) :
    verdict m r ≠ .rejectNoCapacity := by
  unfold verdict
  repeat' split
  all_goals exact fun h => nomatch h

variable [DoubleBits F]

/-- A result that fails the first checks changes nothing, and its
outcome does not depend on the state. -/
theorem decide_of_not_considered {r : Result F} {now : Int64}
    (h : ¬ r.Considered now) :
    ∃ o, ∀ s, obicallGateDecidePublish s r now = (o, none, s) := by
  by_cases hver : (decide (r.structSize ≠ sizeofResult)
      || decide (r.schemaVersion ≠ resultSchemaVersion)) = true
  · refine ⟨.rejectIncompatible, fun s => ?_⟩
    rw [obicallGateDecidePublish, if_pos hver]
  · refine ⟨.rejectExpired, fun s => ?_⟩
    rw [obicallGateDecidePublish, if_neg hver, if_pos]
    simp only [Bool.or_eq_true, decide_eq_true_eq, not_or, not_not] at hver
    by_contra hlate
    exact h ⟨hver.1, hver.2, hlate⟩

/-- Past the first checks the outcome is the mark's verdict, if the id
finds a place in the table. -/
theorem outcome_of_considered {r : Result F} {now : Int64}
    (h : r.Considered now) (s : GateState) :
    (obicallGateDecidePublish s r now).1
      = if HasRoom maxPipelines s.ids r.pipelineId then verdict s.mark r
        else .rejectNoCapacity := by
  obtain ⟨hsize, hschema, hlive⟩ := h
  rw [obicallGateDecidePublish, if_neg (by simp [hsize, hschema]),
    if_neg hlive]
  cases hslot : s.slotFor r.pipelineId with
  | none => rw [if_neg (not_hasRoom_of_slotFor hslot)]
  | some p =>
      obtain ⟨i, s'⟩ := p
      obtain ⟨hfound, hep, how, hhigh⟩ := slotFor_spec hslot
      rw [if_pos (ids_slotFor hslot).1, ← mark_slotFor hslot, verdict]
      dsimp only
      have hstale : r.epoch < s'.epoch ↔ r.epoch.toNat < s'.mark.epoch :=
        UInt64.lt_iff_toNat_lt
      have hother : r.epoch ≠ s'.epoch ↔ r.epoch.toNat ≠ s'.mark.epoch :=
        not_congr UInt64.toNat_inj.symm
      have hdup := duplicate_iff s'.pipelines[i] r.windowSeq
      rw [← high_of_found hfound] at hdup
      have howner : s'.mark.owner = s'.ownerBrokerId := rfl
      have hmark : s'.mark.high = s'.high := rfl
      rw [howner, hmark]
      by_cases hnone : s'.ownerBrokerId = brokerNone
      · rw [if_pos hnone, if_pos hnone]
      rw [if_neg hnone, if_neg hnone]
      by_cases hbroker : r.brokerId ≠ s'.ownerBrokerId
      · rw [if_pos hbroker, if_pos hbroker]
        by_cases hlow : r.epoch < s'.epoch
        · rw [if_pos hlow, if_pos (hstale.mp hlow)]
        · rw [if_neg hlow, if_neg (fun h => hlow (hstale.mpr h))]
      rw [if_neg hbroker, if_neg hbroker]
      by_cases hepoch : r.epoch ≠ s'.epoch
      · rw [if_pos hepoch, if_pos (hother.mp hepoch)]
      rw [if_neg hepoch, if_neg (fun h => hepoch (hother.mpr h))]
      split
      next hd => rw [if_pos (hdup.mp hd)]
      next hd => rw [if_neg (fun hle => hd (hdup.mpr hle))]

/-- An uncommitted result that passes the first checks is entered in the
table. -/
theorem ids_of_considered {s : GateState} {r : Result F} {now : Int64}
    (hr : r.Considered now)
    (h : (obicallGateDecidePublish s r now).1 ≠ .commit) :
    (obicallGateDecidePublish s r now).2.2.ids
      = enter maxPipelines s.ids r.pipelineId := by
  obtain ⟨hsize, hschema, hlive⟩ := hr
  rw [obicallGateDecidePublish, if_neg (by simp [hsize, hschema]),
    if_neg hlive] at h ⊢
  cases hslot : s.slotFor r.pipelineId with
  | none =>
      obtain ⟨hmem, hfull⟩ := not_or.mp (not_hasRoom_of_slotFor hslot)
      exact (if_pos (.inr (Nat.le_of_not_lt hfull))).symm
  | some p =>
      obtain ⟨i, s'⟩ := p
      have hids := (ids_slotFor hslot).2
      rw [hslot] at h
      dsimp only at h ⊢
      split
      · exact hids
      next hnone =>
        split
        · split
          · exact hids
          · exact hids
        next hbroker =>
          split
          · exact hids
          next hepoch =>
            split
            · exact hids
            next hdup =>
              rw [if_neg hnone, if_neg hbroker, if_neg hepoch,
                if_neg hdup] at h
              exact absurd rfl h

-- ========================================================== submissions

/-- The state after a submission. -/
def GateState.submit (s : GateState) (p : Result F × Int64) : GateState :=
  (obicallGateDecidePublish s p.1 p.2).2.2

/-- The state after a sequence of submissions, each at its time. -/
def GateState.submitAll (s : GateState) (ps : List (Result F × Int64)) :
    GateState := run GateState.submit s ps

/-- None of the submissions is committed. -/
def GateState.Uncommitted (s : GateState) (ps : List (Result F × Int64)) :
    Prop :=
  Meets GateState.submit
    (fun s p => (obicallGateDecidePublish s p.1 p.2).1 ≠ .commit) s ps

/-- The pipeline ids named by the submissions that pass the first
checks, in order. -/
def named (ps : List (Result F × Int64)) : List PipelineId :=
  (ps.filter fun p => p.1.Considered p.2).map fun p => p.1.pipelineId

/-- What uncommitted submissions leave behind: the mark as it was, and
the ids they named entered in the table. -/
theorem submitAll_spec {s : GateState} {ps : List (Result F × Int64)}
    (h : s.Uncommitted ps) :
    (s.submitAll ps).mark = s.mark
      ∧ (s.submitAll ps).ids = (named ps).foldl (enter maxPipelines) s.ids := by
  induction ps generalizing s with
  | nil => exact ⟨rfl, rfl⟩
  | cons p ps ih =>
      obtain ⟨hp, hps⟩ := h
      obtain ⟨hmark, hids⟩ := ih hps
      refine ⟨hmark.trans (decide_other rfl hp), hids.trans ?_⟩
      by_cases hc : p.1.Considered p.2
      · have hn : named (p :: ps) = p.1.pipelineId :: named ps := by
          simp [named, hc]
        rw [hn, List.foldl_cons, ← ids_of_considered hc hp]
        rfl
      · have hn : named (p :: ps) = named ps := by
          simp [named, hc]
        obtain ⟨o, ho⟩ := decide_of_not_considered hc
        have hsame : s.submit p = s := by
          rw [GateState.submit, ho]
        rw [hn, hsame]

/-- The condition under which uncommitted submissions `ps` have no
influence on `r` at `now`: `r` does not reach the table, or the table is
full before, or `r`'s id is in it before, or is among the first new ids
that `ps` and `r` name, as many as there are free slots. -/
def GateState.Unaffected (s : GateState) (ps : List (Result F × Int64))
    (r : Result F) (now : Int64) : Prop :=
  r.Considered now → maxPipelines ≤ s.ids.length ∨ r.pipelineId ∈ s.ids
    ∨ r.pipelineId ∈ (fresh s.ids (named ps ++ [r.pipelineId])).take
        (maxPipelines - s.ids.length)

/-- After uncommitted submissions a further result is decided as without
them, exactly when the condition holds. -/
theorem outcome_submitAll_iff (s : GateState)
    (ps : List (Result F × Int64)) (hps : s.Uncommitted ps) (r : Result F)
    (now : Int64) :
    (obicallGateDecidePublish (s.submitAll ps) r now).1
        = (obicallGateDecidePublish s r now).1
      ↔ s.Unaffected ps r now := by
  obtain ⟨hmark, hids⟩ := submitAll_spec hps
  by_cases hc : r.Considered now
  · rw [outcome_of_considered hc, outcome_of_considered hc, hmark, hids]
    have hafter := @hasRoom_foldl_enter _ _ maxPipelines s.ids (named ps)
      r.pipelineId
    by_cases hlater : HasRoom maxPipelines
        ((named ps).foldl (enter maxPipelines) s.ids) r.pipelineId
    · rw [if_pos hlater, if_pos (hasRoom_of_foldl_enter hlater)]
      exact iff_of_true rfl fun _ => .inr (hafter.mp hlater)
    · rw [if_neg hlater]
      by_cases hbefore : HasRoom maxPipelines s.ids r.pipelineId
      · rw [if_pos hbefore]
        refine iff_of_false (verdict_ne_noCapacity _ _).symm fun hcond => ?_
        rcases hcond hc with hfull | hroom
        · rcases hbefore with hmem | hlt
          · exact hlater (hafter.mpr (.inl hmem))
          · omega
        · exact hlater (hafter.mpr hroom)
      · rw [if_neg hbefore]
        refine iff_of_true rfl fun _ => .inl ?_
        exact Nat.le_of_not_lt (not_or.mp hbefore).2
  · obtain ⟨o, ho⟩ := decide_of_not_considered hc
    rw [ho, ho]
    exact iff_of_true rfl fun h => absurd h hc

/-- Broker A holds epoch 1 and nothing was published yet. -/
def bootA : List GateEvent :=
  [.start ⟨Vector.replicate 32 0, 50, 700⟩ 0,
    .recv msgHeartbeat heartbeatA.bytes 10 true]

/-- The state after `bootA`. -/
def ownedByA : GateState :=
  { GateState.zero with
    structSize := sizeofGateState
    schemaVersion := 1
    epoch := 1
    ownerBrokerId := brokerA }

/-- Shadow results of broker B for the pipelines named `1 .. n`. -/
def shadowsB (n : Nat) : List (Result Binary64 × Int64) :=
  (List.range n).map fun k =>
    ({ resultA with
      brokerId := brokerB
      pipelineId := Vector.replicate 32 (UInt8.ofNat (k + 1)) }, 15)

/-- Seven shadow results leave room for broker A's own. -/
theorem outcome_submitAll_iff_seven :
    (obicallGateDecidePublish (ownedByA.submitAll (shadowsB 7)) resultA 20).1
        = (obicallGateDecidePublish ownedByA resultA 20).1
      ↔ ownedByA.Unaffected (shadowsB 7) resultA 20 :=
  outcome_submitAll_iff ownedByA (shadowsB 7)
    (by unfold GateState.Uncommitted; decide +kernel) resultA 20

/-- Eight of them do not: a result that would have been committed is
turned away. -/
theorem shadows_fill_table :
    (gateRun Binary64 bootA).proc.map GateCtx.state = some ownedByA
    ∧ ownedByA.Uncommitted (shadowsB 8)
    ∧ (obicallGateDecidePublish ownedByA resultA 20).1 = .commit
    ∧ (obicallGateDecidePublish (ownedByA.submitAll (shadowsB 8))
        resultA 20).1 = .rejectNoCapacity := by
  refine ⟨by decide +kernel, ?_, by decide +kernel, by decide +kernel⟩
  unfold GateState.Uncommitted
  decide +kernel

end Obicall
