/-
The gate's state read as a fenced mark: epoch, owner, and for each
pipeline id the highest window committed under it. What each operation
of `gate.c` does to the mark is stated here once; the process proofs use
these lemmas and do not open the operations again.

# The spec lemmas

- `slotFor_spec`: finding or opening a slot changes no mark.
- `decide_commit` / `decide_other`: a commit is admitted by the mark
  before and recorded by the mark after; any other outcome leaves the
  mark alone.
- `mark_promote`: a promotion that does not wrap moves to a later mark.
- `mark_normalize`: a round trip through the state file keeps the mark.
-/
import Mathlib.Data.Fin.Basic
import Obicall.Gate.Proofs.StateFile
import Obicall.Lib.Fence

namespace Obicall

open Lib.Fence

-- ============================================================ definitions

/-- The mark of a gate state. -/
def GateState.mark (s : GateState) : Mark PipelineId UInt32 where
  epoch := s.epoch.toNat
  owner := s.ownerBrokerId
  high := s.high

/-- A result as a commit. -/
def Result.asCommit {F : Type} (r : Result F) :
    Commit PipelineId UInt32 where
  key := r.pipelineId
  seq := r.windowSeq.toNat
  epoch := r.epoch.toNat
  owner := r.brokerId

-- =================================================================== slots

/-- Writing one slot of an array. -/
theorem getElem_set_slot {α : Type} {n : Nat} (v : Vector α n) (x : α)
    (i j : Fin n) : (v.set i x)[j] = if j = i then x else v[j] := by
  rw [Fin.getElem_fin, Vector.getElem_set]
  by_cases h : j = i
  · rw [if_pos (by rw [h]), if_pos h]
  · rw [if_neg (fun he => h (Fin.ext he.symm)), if_neg h]
    rfl

-- ============================================================ operations

/-- What opening a slot for a new id does. -/
structure Opens (s s' : GateState) (id : PipelineId)
    (i : Fin maxPipelines) : Prop where
  first : i.val = s.pipelineCount.toNat
  count : s'.pipelineCount.toNat = s.pipelineCount.toNat + 1
  slot : s'.pipelines[i] = { GatePipelineState.zero with pipelineId := id }
  rest : ∀ j, j ≠ i → s'.pipelines[j] = s.pipelines[j]

/-- A slot search either finds the id or opens the next slot for it. -/
theorem slotFor_cases {s s' : GateState} {id : PipelineId}
    {i : Fin maxPipelines} (h : s.slotFor id = some (i, s')) :
    (s.findPipeline id = some i ∧ s' = s) ∨
    (s.findPipeline id = none ∧ Opens s s' id i
      ∧ s'.epoch = s.epoch ∧ s'.ownerBrokerId = s.ownerBrokerId) := by
  rw [GateState.slotFor] at h
  cases hf : s.findPipeline id with
  | some j =>
      rw [hf] at h
      obtain ⟨rfl, rfl⟩ : j = i ∧ s = s' := by simpa using h
      exact .inl ⟨rfl, rfl⟩
  | none =>
      rw [hf] at h
      by_cases hcount : s.pipelineCount.toNat < maxPipelines
      · simp only [hcount, dite_true, Option.some.injEq,
          Prod.mk.injEq] at h
        obtain ⟨rfl, rfl⟩ := h
        have hget := getElem_set_slot s.pipelines
          { GatePipelineState.zero with pipelineId := id }
          ⟨s.pipelineCount.toNat, hcount⟩
        refine .inr ⟨rfl, ⟨rfl, ?_, ?_, ?_⟩, rfl, rfl⟩
        · have hone : (1 : UInt32).toNat = 1 := rfl
          simp only [maxPipelines] at hcount
          rw [UInt32.toNat_add, hone]
          omega
        · exact (hget _).trans (if_pos rfl)
        · exact fun j hj => (hget j).trans (if_neg hj)
      · simp [hcount] at h

/-- A freshly opened slot is found under its id. -/
theorem Opens.found {s s' : GateState} {id : PipelineId}
    {i : Fin maxPipelines} (h : Opens s s' id i)
    (hnone : s.findPipeline id = none) : s'.findPipeline id = some i := by
  have hfirst := h.first
  have hcount := h.count
  rw [findPipeline_eq_some]
  refine ⟨⟨by omega, by rw [h.slot]⟩, fun j hj hh => ?_⟩
  have hlt : j.val < i.val := hj
  refine findPipeline_eq_none.mp hnone j ⟨by omega, ?_⟩
  rw [← h.rest j (Fin.ne_of_lt hj)]
  exact hh.2

/-- Opening a slot takes it from no other id. -/
theorem Opens.slots_other {s s' : GateState} {id k : PipelineId}
    {i : Fin maxPipelines} (h : Opens s s' id i) (hk : k ≠ id) :
    s'.findPipeline k = s.findPipeline k
      ∧ ∀ j, s.Holds k j → j ≠ i := by
  have hfirst := h.first
  have hcount := h.count
  have hne : ∀ j, s.Holds k j → j ≠ i := by
    rintro j ⟨hlt, _⟩ rfl
    omega
  refine ⟨findPipeline_congr fun j => ⟨?_, fun hh => ?_⟩, hne⟩
  · rintro ⟨hlt, hid⟩
    have hj : j ≠ i := by
      rintro rfl
      rw [h.slot] at hid
      exact hk hid.symm
    have hval : j.val ≠ i.val := fun he => hj (Fin.ext he)
    exact ⟨by omega, h.rest j hj ▸ hid⟩
  · exact ⟨by have := hh.1; omega, by rw [h.rest j (hne j hh)]; exact hh.2⟩

theorem Opens.high_other {s s' : GateState} {id k : PipelineId}
    {i : Fin maxPipelines} (h : Opens s s' id i) (hk : k ≠ id) :
    s'.high k = s.high k := by
  obtain ⟨hfind, hne⟩ := h.slots_other hk
  exact high_eq_of_slot hfind fun j hj => h.rest j (hne j hj)

/-- Finding or opening a slot: the slot is the id's, and no epoch, owner
or high-water moves. -/
theorem slotFor_spec {s s' : GateState} {id : PipelineId}
    {i : Fin maxPipelines} (h : s.slotFor id = some (i, s')) :
    s'.findPipeline id = some i ∧ s'.epoch = s.epoch
      ∧ s'.ownerBrokerId = s.ownerBrokerId ∧ s'.high = s.high := by
  rcases slotFor_cases h with ⟨hf, rfl⟩ | ⟨hnone, hopen, hep, how⟩
  · exact ⟨hf, rfl, rfl, rfl⟩
  · refine ⟨hopen.found hnone, hep, how, ?_⟩
    funext k
    by_cases hk : k = id
    · rw [hk, high_of_found (hopen.found hnone), high_of_not_found hnone,
        hopen.slot]
      rfl
    · exact hopen.high_other hk

/-- Committing in a pipeline's own slot raises that pipeline and no
other. -/
theorem high_commit {F : Type} [DoubleBits F] {s : GateState}
    {r : Result F} {i : Fin maxPipelines}
    (h : s.findPipeline r.pipelineId = some i) (k : PipelineId) :
    (s.commit i r).high k
      = if k = r.pipelineId then (r.windowSeq.toNat : WithBot Nat)
        else s.high k := by
  have hid := (holds_of_findPipeline h).2
  have hget : ∀ j, (s.commit i r).pipelines[j]
      = if j = i then
          { s.pipelines[i] with
            hasCommitted := 1
            lastCommittedWindowSeq := r.windowSeq
            lastCommittedDigest := computeResultDigest r }
        else s.pipelines[j] := getElem_set_slot _ _ i
  have hfind : ∀ id, (s.commit i r).findPipeline id = s.findPipeline id := by
    intro id
    apply findPipeline_congr
    intro j
    rw [GateState.Holds, hget]
    by_cases hj : j = i
    · rw [if_pos hj, hj]
      exact Iff.rfl
    · rw [if_neg hj]
      exact Iff.rfl
  by_cases hk : k = r.pipelineId
  · rw [if_pos hk, hk, high_of_found ((hfind _).trans h), hget, if_pos rfl]
    rfl
  · rw [if_neg hk]
    refine high_eq_of_slot (hfind k) fun j hh => ?_
    have hj : j ≠ i := by
      rintro rfl
      exact hk (hh.2.symm.trans hid)
    rw [hget, if_neg hj]

/-- The duplicate check compares with the slot's high-water. -/
theorem duplicate_iff (p : GatePipelineState) (w : UInt64) :
    (decide (p.hasCommitted ≠ 0) && decide (w ≤ p.lastCommittedWindowSeq))
        = true
      ↔ (w.toNat : WithBot Nat) ≤ p.high := by
  rw [GatePipelineState.high, Bool.and_eq_true, decide_eq_true_eq,
    decide_eq_true_eq]
  by_cases hc : p.hasCommitted = 0
  · rw [if_neg (not_not.mpr hc)]
    exact iff_of_false (fun h => h.1 hc) (WithBot.not_coe_le_bot _)
  · have hcoe : (w.toNat : WithBot Nat) ≤ p.lastCommittedWindowSeq.toNat
        ↔ w.toNat ≤ p.lastCommittedWindowSeq.toNat := WithBot.coe_le_coe
    rw [if_pos hc, hcoe, UInt64.le_iff_toNat_le]
    exact and_iff_right hc

/-- Past the duplicate check, the result is above the slot's
high-water. -/
theorem high_lt_of_not_duplicate {p : GatePipelineState} {w : UInt64}
    (h : ¬ (decide (p.hasCommitted ≠ 0)
      && decide (w ≤ p.lastCommittedWindowSeq)) = true) :
    p.high < (w.toNat : WithBot Nat) :=
  not_le.mp fun hle => h ((duplicate_iff p w).mpr hle)

/-- What a publish decision can be: nothing, a slot opened, or a commit
that the mark admits. -/
theorem decide_cases {F : Type} [DoubleBits F] {s s' : GateState}
    {r : Result F} {now : Int64} {o : GatePublishOutcome}
    {i : Option (Fin maxPipelines)}
    (h : obicallGateDecidePublish s r now = (o, i, s')) :
    (o ≠ .commit ∧
      (s' = s ∨ ∃ j, s.slotFor r.pipelineId = some (j, s'))) ∨
    (o = .commit ∧ ∃ j s₁, s.slotFor r.pipelineId = some (j, s₁) ∧
      s₁.mark.Admits r.asCommit ∧ s₁.ownerBrokerId ≠ brokerNone ∧
      s' = s₁.commit j r) := by
  rw [obicallGateDecidePublish] at h
  split at h
  · cases h; exact .inl ⟨by decide, .inl rfl⟩
  split at h
  · cases h; exact .inl ⟨by decide, .inl rfl⟩
  cases hslot : s.slotFor r.pipelineId with
  | none =>
      rw [hslot] at h
      cases h
      exact .inl ⟨by decide, .inl rfl⟩
  | some p =>
      obtain ⟨j, s₁⟩ := p
      have hfound := (slotFor_spec hslot).1
      rw [hslot] at h
      simp only at h
      split at h
      · cases h; exact .inl ⟨by decide, .inr ⟨j, rfl⟩⟩
      next howner =>
        split at h
        · split at h
          · cases h; exact .inl ⟨by decide, .inr ⟨j, rfl⟩⟩
          · cases h; exact .inl ⟨by decide, .inr ⟨j, rfl⟩⟩
        next hbroker =>
          split at h
          · cases h; exact .inl ⟨by decide, .inr ⟨j, rfl⟩⟩
          next hepoch =>
            split at h
            · cases h; exact .inl ⟨by decide, .inr ⟨j, rfl⟩⟩
            next hdup =>
              cases h
              refine .inr ⟨rfl, j, s₁, rfl, ⟨?_, ?_, ?_⟩, howner, rfl⟩
              · exact congrArg UInt64.toNat (not_not.mp hepoch)
              · exact not_not.mp hbroker
              · show s₁.high r.pipelineId < _
                rw [high_of_found hfound]
                exact high_lt_of_not_duplicate hdup

theorem mark_slotFor {s s' : GateState} {id : PipelineId}
    {i : Fin maxPipelines} (h : s.slotFor id = some (i, s')) :
    s'.mark = s.mark := by
  obtain ⟨_, hep, how, hhigh⟩ := slotFor_spec h
  rw [GateState.mark, GateState.mark, hep, how, hhigh]

/-- The slot count is one the state file can hold. -/
def GateState.InRange (s : GateState) : Prop :=
  s.pipelineCount.toNat ≤ maxPipelines

theorem inRange_slotFor {s s' : GateState} {id : PipelineId}
    {i : Fin maxPipelines} (h : s.slotFor id = some (i, s')) :
    s.InRange → s'.InRange := by
  rcases slotFor_cases h with ⟨_, rfl⟩ | ⟨_, hopen, _, _⟩
  · exact fun hrange => hrange
  · intro _
    have := hopen.first
    have := hopen.count
    have := i.isLt
    rw [GateState.InRange]
    omega

/-- What a commit does to the mark: it admits the result before and
records it after, for this pipeline as its very window, and moves up. -/
structure Commits {F : Type} (s : GateState) (r : Result F)
    (s' : GateState) : Prop where
  admits : s.mark.Admits r.asCommit
  records : s'.mark.Records r.asCommit
  window : s'.high r.pipelineId = (r.windowSeq.toNat : WithBot Nat)
  le : s.mark.le s'.mark
  epoch : s'.epoch = s.epoch
  owner : s'.ownerBrokerId = s.ownerBrokerId
  owned : s.ownerBrokerId ≠ brokerNone
  inRange : s.InRange → s'.InRange

theorem decide_commit {F : Type} [DoubleBits F] {s s' : GateState}
    {r : Result F} {now : Int64} {i : Option (Fin maxPipelines)}
    (h : obicallGateDecidePublish s r now = (.commit, i, s')) :
    Commits s r s' := by
  rcases decide_cases h with ⟨hne, _⟩ | ⟨-, j, s₁, hslot, hadm, how, rfl⟩
  · exact absurd rfl hne
  · obtain ⟨hfound, hep, hown, _⟩ := slotFor_spec hslot
    have hmark := mark_slotFor hslot
    have hrange : s.InRange → s₁.InRange := inRange_slotFor hslot
    have hhigh := high_commit hfound
    have hwindow := (hhigh r.pipelineId).trans (if_pos rfl)
    have hle : s₁.mark.le (s₁.commit j r).mark := by
      refine ⟨le_rfl, fun _ => rfl, fun k => ?_⟩
      show s₁.high k ≤ (s₁.commit j r).high k
      rw [hhigh]
      split
      next hk => exact hk ▸ hadm.above.le
      · exact le_rfl
    exact
      { admits := hmark ▸ hadm
        records := ⟨hadm.epoch.le, fun _ => hadm.owner, hwindow.ge⟩
        window := hwindow
        le := hmark ▸ hle
        epoch := hep
        owner := hown
        owned := hown ▸ how
        inRange := hrange }

/-- Any other outcome leaves the mark alone. -/
theorem decide_other {F : Type} [DoubleBits F] {s s' : GateState}
    {r : Result F} {now : Int64} {o : GatePublishOutcome}
    {i : Option (Fin maxPipelines)}
    (h : obicallGateDecidePublish s r now = (o, i, s'))
    (ho : o ≠ .commit) : s'.mark = s.mark := by
  rcases decide_cases h with ⟨_, rfl | ⟨j, hslot⟩⟩ | ⟨hc, _⟩
  · rfl
  · exact mark_slotFor hslot
  · exact absurd hc ho

/-- No publish decision grants or revokes anything. -/
theorem decide_grant {F : Type} [DoubleBits F] {s s' : GateState}
    {r : Result F} {now : Int64} {o : GatePublishOutcome}
    {i : Option (Fin maxPipelines)}
    (h : obicallGateDecidePublish s r now = (o, i, s')) :
    s'.epoch = s.epoch ∧ s'.ownerBrokerId = s.ownerBrokerId := by
  by_cases ho : o = .commit
  · subst ho
    have hcommit := decide_commit h
    exact ⟨hcommit.epoch, hcommit.owner⟩
  · have hmark := decide_other h ho
    exact ⟨UInt64.toNat_inj.mp (congrArg Mark.epoch hmark),
      congrArg Mark.owner hmark⟩

/-- A promotion that does not wrap moves to the next epoch. -/
theorem epoch_promote {s : GateState} (b : UInt32)
    (h : s.epoch.toNat + 1 < 2 ^ 64) :
    (obicallGatePromote s b).epoch.toNat = s.epoch.toNat + 1 := by
  have hone : (1 : UInt64).toNat = 1 := rfl
  show (s.epoch + 1).toNat = _
  rw [UInt64.toNat_add, hone, Nat.mod_eq_of_lt h]

theorem mark_promote {s : GateState} (b : UInt32)
    (h : s.epoch.toNat + 1 < 2 ^ 64) :
    s.mark.le (obicallGatePromote s b).mark := by
  have hep : (obicallGatePromote s b).mark.epoch = s.mark.epoch + 1 :=
    epoch_promote b h
  exact ⟨by omega, fun he => by omega, fun _ => le_rfl⟩

/-- A round trip through the state file keeps the mark. -/
theorem mark_normalize (s : GateState) : s.normalize.mark = s.mark := by
  have hget : ∀ i : Fin maxPipelines, i.val < s.pipelineCount.toNat →
      s.normalize.pipelines[i] = s.pipelines[i] := by
    intro i hi
    show (keepFirst _ _ _)[i] = _
    rw [Fin.getElem_fin, getElem_keepFirst, if_pos hi]
    rfl
  have hhigh : s.normalize.high = s.high := by
    funext k
    refine high_eq_of_slot (findPipeline_congr fun j => ?_)
      fun j hh => hget j hh.1
    constructor
    · exact fun hh => ⟨hh.1, hget j hh.1 ▸ hh.2⟩
    · exact fun hh => ⟨hh.1, (hget j hh.1).symm ▸ hh.2⟩
  rw [GateState.mark, GateState.mark, hhigh]
  rfl

end Obicall
