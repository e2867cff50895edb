/-
Exactly one accepted commit per window, fenced by epoch, across any
crashes: the gate process refines the fenced durable store of
`Lib.Fence`, and its accepted acknowledgements are the store's ledger.

# The invariant

`GateInv` ties the three places a promise lives in: the memory of the
running process, the state a restart would recover from the file, and
the acknowledgements already built. Ownership adds that the owner of an
epoch is a function of the epoch (`ownerOf`): owners alternate, and a
grant that a crash forgot is granted again to the same broker.

The epoch counter does not wrap as long as fewer than `2 ^ 64` grants
were made; this is the only use of that bound.
-/
import Mathlib.Data.List.Basic
import Mathlib.Data.List.Pairwise
import Obicall.Core.Binary64
import Obicall.Gate.Proofs.Handlers

namespace Obicall

open Lib.Fence Relation

variable {F : Type}

-- ============================================================= abstraction

/-- The state a restart would begin from. -/
def recovered (file : Option (List UInt8)) : GateState :=
  match file with
  | none => .zero
  | some bytes => (obicallGateLoadState bytes .zero).2

/-- Every result acknowledged as accepted, sent or not. -/
def GateSys.commits (g : GateSys F) : List (Result F) :=
  g.outbox.filterMap fun o => o.1.acceptedResult

/-- The system as a fenced store. -/
structure Refines (g : GateSys F) (t : Store PipelineId UInt32) : Prop where
  volatile : t.volatile = g.proc.map fun ctx => ctx.state.mark
  durable : t.durable = (recovered g.file).mark
  ledger : t.ledger = g.commits.map Result.asCommit

/-- The owner of an epoch: A of the odd ones, B of the even ones. -/
def ownerOf (epoch : Nat) : UInt32 :=
  if epoch = 0 then brokerNone
  else if epoch % 2 = 1 then brokerA
  else brokerB

/-- A state whose ownership was granted in this history. -/
structure Owned (grants : List (UInt64 × UInt32)) (s : GateState) :
    Prop where
  owner : s.ownerBrokerId = ownerOf s.epoch.toNat
  granted : s.ownerBrokerId ≠ brokerNone →
    (s.epoch, s.ownerBrokerId) ∈ grants
  bound : s.epoch.toNat ≤ grants.length

/-- What holds in every state of a run with few enough grants. -/
structure GateInv (g : GateSys F) : Prop where
  proc : ∀ ctx, g.proc = some ctx → Owned g.grants ctx.state
  file : Owned g.grants (recovered g.file)
  loads : ∀ bytes, g.file = some bytes →
    ∃ s, obicallGatePersistState s = .ok bytes
  grants : ∀ p ∈ g.grants, p.2 = ownerOf p.1.toNat
  commits : ∀ r ∈ g.commits, (r.epoch, r.brokerId) ∈ g.grants
  refines : ∃ t, ReflTransGen Step ⟨none, GateState.zero.mark, []⟩ t
    ∧ Refines g t

-- ================================================================= lemmas

theorem recovered_persist {s : GateState} {bytes : List UInt8}
    (h : obicallGatePersistState s = .ok bytes) :
    recovered (some bytes) = s.normalize := by
  show (obicallGateLoadState bytes .zero).2 = _
  rw [obicallGateLoadState_persist h]

/-- The file after a persist recovers the persisted mark, or is the old
file. -/
theorem SavedAs.recovered_mark {s : GateState}
    {file file' : Option (List UInt8)} {saved : Bool}
    (h : SavedAs s file file' saved) :
    (recovered file').mark = if saved then s.mark else (recovered file).mark := by
  cases saved with
  | false =>
      have hsame : file' = file := h
      rw [hsame]
      rfl
  | true =>
      obtain ⟨bytes, hp, hf⟩ := h
      rw [hf, recovered_persist hp, mark_normalize]
      rfl

theorem Owned.of_eq {grants : List (UInt64 × UInt32)} {s s' : GateState}
    (h : Owned grants s) (hep : s'.epoch = s.epoch)
    (how : s'.ownerBrokerId = s.ownerBrokerId) : Owned grants s' :=
  ⟨by rw [how, hep]; exact h.owner, by rw [how, hep]; exact h.granted,
    by rw [hep]; exact h.bound⟩

theorem Owned.of_mark {grants : List (UInt64 × UInt32)} {s s' : GateState}
    (h : Owned grants s) (hmark : s'.mark = s.mark) : Owned grants s' :=
  h.of_eq (UInt64.toNat_inj.mp (congrArg Mark.epoch hmark))
    (congrArg Mark.owner hmark)

theorem Owned.append {grants new : List (UInt64 × UInt32)} {s : GateState}
    (h : Owned grants s) : Owned (grants ++ new) s :=
  ⟨h.owner, fun ho => List.mem_append_left _ (h.granted ho),
    h.bound.trans (by rw [List.length_append]; omega)⟩

/-- The file's owner after a persist, from the owners before. -/
theorem SavedAs.owned {grants : List (UInt64 × UInt32)} {s : GateState}
    {file file' : Option (List UInt8)} {saved : Bool}
    (h : SavedAs s file file' saved) (hs : Owned grants s)
    (hfile : Owned grants (recovered file)) :
    Owned grants (recovered file') := by
  have hmark := h.recovered_mark
  cases saved with
  | false => exact hfile.of_mark hmark
  | true => exact hs.of_mark hmark

theorem SavedAs.loads {s : GateState} {file file' : Option (List UInt8)}
    {saved : Bool} (h : SavedAs s file file' saved)
    (hfile : ∀ bytes, file = some bytes →
      ∃ s, obicallGatePersistState s = .ok bytes) :
    ∀ bytes, file' = some bytes →
      ∃ s, obicallGatePersistState s = .ok bytes := by
  intro bytes hb
  cases saved with
  | false => exact hfile bytes (Eq.trans (Eq.symm h) hb)
  | true =>
      obtain ⟨bytes', hp, hf⟩ := h
      exact ⟨s, Option.some.inj (hf.symm.trans hb) ▸ hp⟩

/-- The successor of an epoch's owner owns the next epoch. -/
theorem successor_ownerOf (e : Nat) :
    successor (ownerOf e) = ownerOf (e + 1) := by
  rw [ownerOf, ownerOf, if_neg (Nat.succ_ne_zero e)]
  by_cases h0 : e = 0
  · subst h0
    rfl
  · rw [if_neg h0]
    by_cases hodd : e % 2 = 1
    · rw [if_pos hodd, if_neg (by omega)]
      rfl
    · rw [if_neg hodd, if_pos (by omega)]
      rfl

/-- Every grant is a new epoch number. -/
theorem epoch_promote_ne (s : GateState) (b : UInt32) :
    (obicallGatePromote s b).epoch ≠ s.epoch := by
  intro he
  have hone : (1 : UInt64).toNat = 1 := rfl
  have hn : (s.epoch + 1).toNat = s.epoch.toNat := congrArg UInt64.toNat he
  have hlt := s.epoch.toNat_lt
  rw [UInt64.toNat_add, hone] at hn
  omega

/-- A grant that does not wrap is the next epoch's, by its owner. -/
theorem Owned.promote {grants : List (UInt64 × UInt32)} {s : GateState}
    (h : Owned grants s) (hlen : grants.length + 1 < 2 ^ 64) :
    let s' := obicallGatePromote s (successor s.ownerBrokerId)
    s'.ownerBrokerId = ownerOf s'.epoch.toNat ∧ s.mark.le s'.mark
      ∧ Owned (grants ++ [(s'.epoch, s'.ownerBrokerId)]) s' := by
  intro s'
  have hbound := h.bound
  have hep : s'.epoch.toNat = s.epoch.toNat + 1 :=
    epoch_promote _ (by omega)
  have howner : s'.ownerBrokerId = ownerOf s'.epoch.toNat := by
    rw [hep, ← successor_ownerOf, ← h.owner]
    rfl
  refine ⟨howner, mark_promote _ (by omega), howner, ?_, ?_⟩
  · intro _
    exact List.mem_append_right _ (List.mem_singleton.mpr rfl)
  · rw [hep, List.length_append, List.length_singleton]
    omega

-- =============================================================== messages

/-- A handled message adds what it accepts to the commits. -/
theorem commits_after {α : Type} (g : GateSys F) (ctx : GateCtx)
    (h : Handled α) (answer : α → Answer F) :
    (g.after ctx h answer).commits
      = g.commits ++ (h.accepts answer).toList := by
  rw [GateSys.commits, GateSys.after, List.filterMap_append]
  cases hr : h.reply with
  | none =>
      simp only [GateSys.commits, Handled.accepts, hr, Option.map_none,
        Option.toList_none, List.filterMap_nil, Option.bind_none]
  | some a =>
      simp only [GateSys.commits, Handled.accepts, hr, Option.map_some,
        Option.toList_some, Option.bind_some]
      cases hacc : (answer a).acceptedResult with
      | none => simp [hacc]
      | some r => simp [hacc]

/-- A running process is a store that is reached: the mark in memory, the
mark on the disk, and the results acknowledged. -/
theorem GateInv.reach {g : GateSys F} {ctx : GateCtx} (hg : GateInv g)
    (hproc : g.proc = some ctx) :
    ReflTransGen Step ⟨none, GateState.zero.mark, []⟩
      ⟨some ctx.state.mark, (recovered g.file).mark,
        g.commits.map Result.asCommit⟩ := by
  obtain ⟨⟨tv, td, tl⟩, hreach, hvol, hdur, hled⟩ := hg.refines
  rw [hproc] at hvol
  obtain rfl : tv = some ctx.state.mark := hvol
  obtain rfl : td = (recovered g.file).mark := hdur
  obtain rfl : tl = g.commits.map Result.asCommit := hled
  exact hreach

/-- The other direction, with what else is kept. -/
theorem GateInv.of_reach {g : GateSys F} {ctx : GateCtx}
    (hproc : g.proc = some ctx) (hown : Owned g.grants ctx.state)
    (hfile : Owned g.grants (recovered g.file))
    (hloads : ∀ bytes, g.file = some bytes →
      ∃ s, obicallGatePersistState s = .ok bytes)
    (hgrants : ∀ p ∈ g.grants, p.2 = ownerOf p.1.toNat)
    (hcommits : ∀ r ∈ g.commits, (r.epoch, r.brokerId) ∈ g.grants)
    (hreach : ReflTransGen Step ⟨none, GateState.zero.mark, []⟩
      ⟨some ctx.state.mark, (recovered g.file).mark,
        g.commits.map Result.asCommit⟩) : GateInv g where
  proc ctx' he := by
    rw [hproc] at he
    exact Option.some.inj he ▸ hown
  file := hfile
  loads := hloads
  grants := hgrants
  commits := hcommits
  refines := by
    refine ⟨_, hreach, ?_, rfl, rfl⟩
    rw [hproc]
    rfl

section handled

variable {g g' : GateSys F} {ctx ctx' : GateCtx}

theorem GateInv.quiet (hg : GateInv g) (hproc : g.proc = some ctx)
    (hproc' : g'.proc = some ctx')
    (hmark : ctx'.state.mark = ctx.state.mark) (hfile : g'.file = g.file)
    (hgrants : g'.grants = g.grants) (hcommits : g'.commits = g.commits) :
    GateInv g' := by
  refine .of_reach hproc' ?_ ?_ (hfile ▸ hg.loads) (hgrants ▸ hg.grants)
    ?_ ?_
  · rw [hgrants]
    exact (hg.proc ctx hproc).of_mark hmark
  · rw [hgrants, hfile]
    exact hg.file
  · rw [hcommits, hgrants]
    exact hg.commits
  · rw [hmark, hfile, hcommits]
    exact hg.reach hproc

/-- A promotion advances the memory, and saves it unless the persist
fails. -/
theorem GateInv.promoted (hg : GateInv g) (hproc : g.proc = some ctx)
    (hproc' : g'.proc = some ctx')
    (hstate : ctx'.state
      = obicallGatePromote ctx.state (successor ctx.state.ownerBrokerId))
    {saved : Bool} (hsaved : SavedAs ctx'.state g.file g'.file saved)
    (hgrants : g'.grants
      = g.grants ++ [(ctx'.state.epoch, ctx'.state.ownerBrokerId)])
    (hcommits : g'.commits = g.commits)
    (hlen : g'.grants.length < 2 ^ 64) : GateInv g' := by
  rw [hgrants, List.length_append, List.length_singleton] at hlen
  obtain ⟨howner, hle, hown⟩ := (hg.proc ctx hproc).promote hlen
  rw [← hstate] at howner hle hown
  rw [← hgrants] at hown
  have hold : Owned g'.grants (recovered g.file) :=
    hgrants ▸ hg.file.append
  refine .of_reach hproc' hown (hsaved.owned hown hold)
    (hsaved.loads hg.loads) ?_ ?_ ?_
  · rw [hgrants, List.forall_mem_append, List.forall_mem_singleton]
    exact ⟨hg.grants, howner⟩
  · rw [hcommits, hgrants]
    exact fun r hr => List.mem_append_left _ (hg.commits r hr)
  · have hadvance := (hg.reach hproc).tail (.advance _ _ hle)
    rw [hsaved.recovered_mark, hcommits]
    cases saved with
    | false => exact hadvance
    | true => exact hadvance.tail (.save _ _ _)

/-- A commit is acknowledged only when it was saved. -/
theorem GateInv.committed (hg : GateInv g) (hproc : g.proc = some ctx)
    (hproc' : g'.proc = some ctx') {r : Result F}
    (hcommit : Commits ctx.state r ctx'.state) {saved : Bool}
    (hsaved : SavedAs ctx'.state g.file g'.file saved)
    (hgrants : g'.grants = g.grants)
    (hcommits : g'.commits
      = g.commits ++ (if saved then some r else none).toList) :
    GateInv g' := by
  have howned := hg.proc ctx hproc
  have hown : Owned g'.grants ctx'.state := by
    rw [hgrants]
    exact howned.of_eq hcommit.epoch hcommit.owner
  have hold : Owned g'.grants (recovered g.file) := hgrants ▸ hg.file
  refine .of_reach hproc' hown (hsaved.owned hown hold)
    (hsaved.loads hg.loads) (hgrants ▸ hg.grants) ?_ ?_
  · rw [hcommits, hgrants]
    cases saved with
    | false =>
        rw [if_neg Bool.false_ne_true, Option.toList_none, List.append_nil]
        exact hg.commits
    | true =>
        rw [if_pos rfl, Option.toList_some, List.forall_mem_append,
          List.forall_mem_singleton]
        have hepoch : r.epoch = ctx.state.epoch :=
          UInt64.toNat_inj.mp hcommit.admits.epoch
        have howner : r.brokerId = ctx.state.ownerBrokerId :=
          hcommit.admits.owner
        rw [hepoch, howner]
        exact ⟨hg.commits, howned.granted hcommit.owned⟩
  · rw [hsaved.recovered_mark, hcommits]
    cases saved with
    | false =>
        rw [if_neg Bool.false_ne_true, if_neg Bool.false_ne_true,
          Option.toList_none, List.append_nil]
        exact (hg.reach hproc).tail (.advance _ _ hcommit.le)
    | true =>
        rw [if_pos rfl, if_pos rfl, Option.toList_some, List.map_append]
        exact (hg.reach hproc).tail
          (.commit _ _ hcommit.le hcommit.admits hcommit.records)

end handled

/-- A handled message keeps the invariant: each of the three things it
can do is a few steps of the abstract store. -/
theorem GateInv.after {α : Type} {g : GateSys F} {ctx : GateCtx}
    {h : Handled α} {answer : α → Answer F} (hg : GateInv g)
    (hproc : g.proc = some ctx)
    (hh : Handles ctx.state g.file h.ctx.state h.file h.saved
      (h.accepts answer))
    (hlen : (g.after ctx h answer).grants.length < 2 ^ 64) :
    GateInv (g.after ctx h answer) := by
  have hcommits := commits_after g ctx h answer
  have hgrants : (g.after ctx h answer).grants
      = if h.ctx.state.epoch = ctx.state.epoch then g.grants
        else g.grants ++ [(h.ctx.state.epoch,
          h.ctx.state.ownerBrokerId)] := rfl
  have hproc' : (g.after ctx h answer).proc = some h.ctx := rfl
  have hfile : (g.after ctx h answer).file = h.file := rfl
  generalize hs' : h.ctx.state = s' at hh
  generalize h.file = file' at hh hfile
  generalize h.saved = saved' at hh
  generalize h.accepts answer = acc at hh hcommits
  cases hh with
  | quiet hmark _ _ =>
      have hep : s'.epoch = ctx.state.epoch :=
        UInt64.toNat_inj.mp (congrArg Mark.epoch hmark)
      rw [hs', if_pos hep] at hgrants
      rw [Option.toList_none, List.append_nil] at hcommits
      exact hg.quiet hproc hproc' (hs' ▸ hmark) hfile hgrants hcommits
  | promote hsaved =>
      rw [if_neg (hs' ▸ epoch_promote_ne _ _)] at hgrants
      rw [Option.toList_none, List.append_nil] at hcommits
      rw [← hs', ← hfile] at hsaved
      exact hg.promoted hproc hproc' hs' hsaved hgrants hcommits hlen
  | commit hcommit hsaved =>
      rw [hs', if_pos hcommit.epoch] at hgrants
      rw [← hs'] at hcommit
      rw [← hs', ← hfile] at hsaved
      exact hg.committed hproc hproc' hcommit hsaved hgrants hcommits

-- ================================================================== runs

/-- Grants are only added. -/
theorem grants_length_step [DoubleBits F] (g : GateSys F) (e : GateEvent) :
    g.grants.length ≤ (g.step e).grants.length := by
  have hafter : ∀ {α : Type} (ctx : GateCtx) (h : Handled α)
      (answer : α → Answer F),
      g.grants.length ≤ (g.after ctx h answer).grants.length := by
    intro α ctx h answer
    show _ ≤ (if _ then _ else _ : List (UInt64 × UInt32)).length
    split
    · exact le_rfl
    · rw [List.length_append]
      omega
  have hstep := gateStepped g e
  generalize g.step e = g' at hstep ⊢
  cases hstep with
  | same => exact le_rfl
  | started => exact le_rfl
  | crashed => exact le_rfl
  | received msgType payload now diskOk =>
      exact dispatch_elim g _ msgType payload now diskOk
        (P := fun g' => g.grants.length ≤ g'.grants.length) le_rfl
        fun h answer _ => hafter _ h answer
  | sent => exact le_rfl

/-- A process starts from the state its file recovers. -/
theorem gateMain_state {cfg : GateConfig} {file : Option (List UInt8)}
    {now : Int64} {ctx : GateCtx} (h : gateMain cfg file now = some ctx) :
    ctx.state = { recovered file with
      structSize := sizeofGateState, schemaVersion := 1 } := by
  simp only [gateMain] at h
  split at h
  · cases h; rfl
  · split at h
    next hload =>
      cases h
      simp only [recovered, hload]
    · cases h

/-- Nothing outside the outbox and the process changes. -/
theorem GateInv.of_outbox {g g' : GateSys F} (hg : GateInv g)
    (hproc : ∀ ctx, g'.proc = some ctx → g.proc = some ctx)
    (hfile : g'.file = g.file) (hgrants : g'.grants = g.grants)
    (hcommits : g'.commits = g.commits)
    (hrefines : ∃ t, ReflTransGen Step ⟨none, GateState.zero.mark, []⟩ t
      ∧ Refines g' t) : GateInv g' where
  proc ctx hctx := hgrants ▸ hg.proc ctx (hproc ctx hctx)
  file := hgrants ▸ hfile ▸ hg.file
  loads := hfile ▸ hg.loads
  grants := hgrants ▸ hg.grants
  commits := hcommits ▸ hgrants ▸ hg.commits
  refines := hrefines

/-- Fates do not matter to the commits. -/
theorem commits_map_fate (f : Fate → Fate) (outbox : List (Answer F × Fate)) :
    (outbox.map fun o => (o.1, f o.2)).filterMap
      (fun o => o.1.acceptedResult)
      = outbox.filterMap fun o => o.1.acceptedResult := by
  rw [List.filterMap_map]
  rfl

theorem filterMap_modify_fst {α β γ : Type} (p : α → Option β)
    (f : γ → γ) (i : Nat) (xs : List (α × γ)) :
    (xs.modify i fun o => (o.1, f o.2)).filterMap (fun o => p o.1)
      = xs.filterMap fun o => p o.1 := by
  induction xs generalizing i with
  | nil => cases i <;> rfl
  | cons o xs ih =>
      cases i with
      | zero => rfl
      | succ i =>
          rw [List.modify_succ_cons, List.filterMap_cons,
            List.filterMap_cons, ih]

theorem commits_modify_fate (f : Fate → Fate) (i : Nat)
    (outbox : List (Answer F × Fate)) :
    (outbox.modify i fun o => (o.1, f o.2)).filterMap
      (fun o => o.1.acceptedResult)
      = outbox.filterMap fun o => o.1.acceptedResult :=
  filterMap_modify_fst _ f i outbox

/-- A started process is the recovered state, by name and mark. -/
theorem GateInv.start {g : GateSys F} (hg : GateInv g) {ctx : GateCtx}
    {cfg : GateConfig} {now : Int64} (hproc : g.proc = none)
    (hmain : gateMain cfg g.file now = some ctx) :
    GateInv { g with
      proc := some ctx
      durable := g.durable ++ [ctx.state]
      unsaved := false } := by
  obtain ⟨⟨tv, td, tl⟩, hreach, hvol, hdur, hled⟩ := hg.refines
  have hstate := gateMain_state hmain
  have hmark : ctx.state.mark = (recovered g.file).mark := by
    rw [hstate]
    rfl
  have hv : tv = none := by
    have h : tv = g.proc.map fun ctx => ctx.state.mark := hvol
    rw [h, hproc, Option.map_none]
  subst hv
  exact
    { proc := fun ctx' he => Option.some.inj he ▸ hg.file.of_mark hmark
      file := hg.file
      loads := hg.loads
      grants := hg.grants
      commits := hg.commits
      refines := ⟨_, hreach.tail (.start _ _),
        { volatile := congrArg some (Eq.trans hdur hmark.symm)
          durable := hdur
          ledger := hled }⟩ }

/-- A crash loses the memory and nothing else. -/
theorem GateInv.crash {g : GateSys F} (hg : GateInv g) :
    GateInv { g with
      proc := none
      outbox := g.outbox.map fun o => (o.1, o.2.lose) } := by
  have hcommits := commits_map_fate Fate.lose g.outbox
  obtain ⟨⟨tv, td, tl⟩, hreach, hvol, hdur, hled⟩ := hg.refines
  refine hg.of_outbox (fun ctx h => nomatch h) rfl rfl hcommits
    ⟨⟨none, td, tl⟩, ?_, rfl, hdur, hled.trans ?_⟩
  · cases tv with
    | none => exact hreach
    | some v => exact hreach.tail (.crash _ _ _)
  · exact congrArg _ hcommits.symm

/-- A step keeps the invariant. -/
theorem GateInv.step [DoubleBits F] {g : GateSys F} (hg : GateInv g)
    (e : GateEvent) (hlen : (g.step e).grants.length < 2 ^ 64) :
    GateInv (g.step e) := by
  have hstep := gateStepped g e
  generalize g.step e = g' at hlen hstep ⊢
  cases hstep with
  | same => exact hg
  | started hproc hmain => exact hg.start hproc hmain
  | crashed => exact hg.crash
  | received msgType payload now diskOk hproc =>
      exact dispatch_elim g _ msgType payload now diskOk
        (P := fun g' => g'.grants.length < 2 ^ 64 → GateInv g')
        (fun _ => hg) (fun h answer hh => hg.after hproc hh) hlen
  | sent i hproc =>
      have hcommits := commits_modify_fate Fate.send i g.outbox
      obtain ⟨t, hreach, hvol, hdur, hled⟩ := hg.refines
      exact hg.of_outbox (fun _ h => h) rfl rfl hcommits
        ⟨t, hreach, hvol, hdur, hled.trans (congrArg _ hcommits.symm)⟩

theorem GateInv.init (F : Type) : GateInv (GateSys.init F) where
  proc _ h := nomatch h
  file := ⟨rfl, fun h => absurd rfl h, Nat.le_refl 0⟩
  loads _ h := nomatch h
  grants _ h := nomatch h
  commits _ h := nomatch h
  refines := ⟨_, .refl, rfl, rfl, rfl⟩

/-- Every run with fewer than `2 ^ 64` grants keeps the invariant. -/
theorem gateInv_run [DoubleBits F] (es : List GateEvent)
    (hlen : (gateRun F es).grants.length < 2 ^ 64) :
    GateInv (gateRun F es) := by
  have hstep : ∀ (g : GateSys F) (e : GateEvent),
      (g.grants.length < 2 ^ 64 → GateInv g) →
      (g.step e).grants.length < 2 ^ 64 → GateInv (g.step e) :=
    fun g e ih hlen =>
      (ih (Nat.lt_of_le_of_lt (grants_length_step g e) hlen)).step e hlen
  exact Lib.Run.run_inv hstep (fun _ => GateInv.init F) es hlen

/-- What was sent was built: accepted results are commits, in order. -/
theorem accepted_sublist (g : GateSys F) :
    g.accepted.Sublist g.commits := by
  rw [GateSys.accepted, GateSys.commits]
  induction g.outbox with
  | nil => exact .slnil
  | cons o outbox ih =>
      rw [List.filterMap_cons, List.filterMap_cons]
      by_cases hsent : o.2 = .sent
      · simp only [hsent, if_true]
        cases o.1.acceptedResult with
        | none => exact ih
        | some r => exact ih.cons_cons r
      · simp only [hsent, if_false]
        cases o.1.acceptedResult with
        | none => exact ih
        | some r => exact ih.cons r

/-- The results acknowledged as accepted over a whole run, with its
crashes and failed persists: per pipeline the windows increase, the
epochs never decrease, and each epoch's results come from the one broker
that was granted it. -/
theorem accepted_fenced [DoubleBits F] (es : List GateEvent)
    (hgrants : (gateRun F es).grants.length < 2 ^ 64) :
    (gateRun F es).accepted.Pairwise (fun r r' =>
        (r.pipelineId = r'.pipelineId → r.windowSeq < r'.windowSeq)
        ∧ r.epoch ≤ r'.epoch
        ∧ (r.epoch = r'.epoch → r.brokerId = r'.brokerId))
    ∧ (∀ r ∈ (gateRun F es).accepted,
        (r.epoch, r.brokerId) ∈ (gateRun F es).grants)
    ∧ (∀ p ∈ (gateRun F es).grants, ∀ q ∈ (gateRun F es).grants,
        p.1 = q.1 → p.2 = q.2) := by
  have hinv := gateInv_run es hgrants
  have hsub := accepted_sublist (gateRun F es)
  refine ⟨?_, fun r hr => hinv.commits r (hsub.subset hr), ?_⟩
  · obtain ⟨t, hreach, href⟩ := hinv.refines
    have hfenced := ledger_fenced hreach
    rw [href.ledger, List.pairwise_map] at hfenced
    refine (hfenced.sublist hsub).imp fun {r r'} hb => ⟨fun hk => ?_, ?_, ?_⟩
    · exact UInt64.lt_iff_toNat_lt.mpr (hb.seq hk)
    · exact UInt64.le_iff_toNat_le.mpr hb.epoch
    · exact fun he => hb.owner (congrArg UInt64.toNat he)
  · intro p hp q hq he
    rw [hinv.grants p hp, hinv.grants q hq, he]

/-- A healthy heartbeat of broker A. -/
def heartbeatA : MsgHeartbeat where
  brokerId := brokerA
  epoch := 0
  lastWindowSeq := 0
  configDigest := Vector.replicate 32 0
  checkpointSchemaVersion := 1
  healthy := 1
  sentAtNs := 0

/-- Broker A's result for window 7 under epoch 1. -/
def resultA : Result Binary64 :=
  { Result.zero Binary64 with
    structSize := sizeofResult
    schemaVersion := resultSchemaVersion
    windowSeq := 7
    brokerId := brokerA
    epoch := 1
    validUntilNs := 1000 }

/-- A is granted the first epoch and gets its result accepted. -/
def firstCommit : List GateEvent :=
  [.start ⟨Vector.replicate 32 0, 50, 700⟩ 0,
    .recv msgHeartbeat heartbeatA.bytes 10 true,
    .recv msgResultPublish resultA.bytes 20 true, .send 0, .send 1]

theorem accepted_fenced_firstCommit :
    (gateRun Binary64 firstCommit).accepted.length = 1
    ∧ ∀ r ∈ (gateRun Binary64 firstCommit).accepted,
      (r.epoch, r.brokerId) ∈ (gateRun Binary64 firstCommit).grants :=
  ⟨by decide +kernel, (accepted_fenced firstCommit (by decide +kernel)).2.1⟩

end Obicall
