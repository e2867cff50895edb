/-
What the gate makes of a state file whose header and checksum are right
(`Carries`), whatever its payload holds.

# The main results

- `keepsOut_iff`: a failed load leaves the caller's state alone exactly
  when the file carries no payload that is not a state: with the checksum
  passed, the decoder has already cleared the state when it fails.
- `trustworthy_iff`: every run that begins on a state file has only
  trustworthy states exactly when the file carries no state that is not.
  The loader checks the slot count and neither the owner nor the ids, and
  what the gate does from a trustworthy state stays trustworthy.
-/
import Obicall.Gate.Proofs.FileDamage
import Obicall.Gate.Proofs.Influence
import Obicall.Gate.Proofs.Lives

namespace Obicall

open Lib.Run Lib.Table

-- =============================================================== payloads

/-- The file's header is right and so is the checksum of the payload it
carries. -/
def Carries (file payload : List UInt8) : Prop :=
  ∃ payloadLen reserved rest,
    file = gateFile gatePersistMagic payloadLen (obicallCrc32 payload)
      reserved rest
    ∧ payloadLen.toNat ≤ gatePersistMaxPayload
    ∧ payloadLen.toNat ≤ rest.length
    ∧ payload = rest.take payloadLen.toNat

/-- The bytes begin with the encoding of a state with at most eight
pipelines. -/
def BeginsWith (payload : List UInt8) (s : GateState) : Prop :=
  s.InRange ∧ ∃ tl, payload = s.bytes ++ tl

theorem load_of_carries {file payload : List UInt8}
    (h : Carries file payload) (out : GateState) :
    obicallGateLoadState file out = obicallGateDecodeState payload := by
  obtain ⟨payloadLen, reserved, rest, rfl, hmax, hroom, rfl⟩ := h
  rw [obicallGateLoadState_gateFile, if_neg, if_neg (not_not.mpr rfl)]
  rintro (hmagic | hlong | hshort)
  · exact hmagic rfl
  · omega
  · omega

/-- A file that carries nothing is refused before the decoder runs. -/
theorem load_of_not_carries {file : List UInt8}
    (h : ∀ payload, ¬ Carries file payload) (out : GateState) :
    (obicallGateLoadState file out).1 ≠ .ok
      ∧ (obicallGateLoadState file out).2 = out := by
  by_cases hshort : file.length < gatePersistHeaderLen
  · rw [obicallGateLoadState, if_pos hshort]
    exact ⟨fun hok => (by cases hok), rfl⟩
  obtain ⟨magic, payloadLen, crc, reserved, rest, rfl⟩ :=
    exists_gateFile (Nat.le_of_not_lt hshort)
  rw [obicallGateLoadState_gateFile]
  split
  · exact ⟨fun hok => (by cases hok), rfl⟩
  next hheader =>
    obtain ⟨hmagic, hmax, hroom⟩ := not_or.mp hheader |>.imp_right not_or.mp
    split
    · exact ⟨fun hok => (by cases hok), rfl⟩
    next hcrc =>
      refine absurd ⟨payloadLen, reserved, rest, ?_, Nat.le_of_not_lt hmax,
        Nat.le_of_not_lt hroom, rfl⟩ (h (rest.take payloadLen.toNat))
      rw [not_not.mp hmagic, not_not.mp hcrc]

theorem decode_ok_iff {payload : List UInt8} :
    (obicallGateDecodeState payload).1 = .ok ↔ ∃ s, BeginsWith payload s := by
  constructor
  · intro hok
    obtain ⟨s, tl, hrange, hcut⟩ := gateStateLayout.accepts payload hok
    exact ⟨s, hrange, tl, hcut⟩
  · rintro ⟨s, hrange, tl, rfl⟩
    rw [gateStateLayout.reads s tl hrange]

theorem decode_of_beginsWith {payload : List UInt8} {s : GateState}
    (h : BeginsWith payload s) :
    obicallGateDecodeState payload = (.ok, s.normalize) := by
  obtain ⟨hrange, tl, rfl⟩ := h
  exact gateStateLayout.reads s tl hrange

/-- What loads is a state that the file carries, normalized. -/
theorem load_eq_ok {file : List UInt8} {out s : GateState}
    (h : obicallGateLoadState file out = (.ok, s)) :
    ∃ payload s₀, Carries file payload ∧ BeginsWith payload s₀
      ∧ s = s₀.normalize := by
  by_cases hcarries : ∃ payload, Carries file payload
  · obtain ⟨payload, hpayload⟩ := hcarries
    rw [load_of_carries hpayload] at h
    obtain ⟨s₀, hs₀⟩ := decode_ok_iff.mp (by rw [h])
    refine ⟨payload, s₀, hpayload, hs₀, ?_⟩
    rw [decode_of_beginsWith hs₀] at h
    exact (congrArg Prod.snd h).symm
  · have hrefused := load_of_not_carries (not_exists.mp hcarries) out
    exact absurd (by rw [h]) hrefused.1

-- =========================================================== failed loads

/-- A load that fails leaves the caller's state alone. -/
def KeepsOut (file : List UInt8) : Prop :=
  ∀ out, (obicallGateLoadState file out).1 ≠ .ok →
    (obicallGateLoadState file out).2 = out

/-- No state is the only one there is. -/
theorem exists_ne_state (s : GateState) : ∃ s' : GateState, s' ≠ s := by
  refine ⟨{ s with epoch := s.epoch + 1 }, fun h => ?_⟩
  have hepoch : s.epoch + 1 = s.epoch := congrArg GateState.epoch h
  simp at hepoch

/-- A file whose payload passes the checksum and is no state: the decoder
fails on a state it has cleared. -/
theorem not_keepsOut {file payload : List UInt8} (h : Carries file payload)
    (hnone : ¬ ∃ s, BeginsWith payload s) : ¬ KeepsOut file := by
  intro hkeeps
  obtain ⟨out, hne⟩ := exists_ne_state (obicallGateDecodeState payload).2
  have hload := load_of_carries h out
  have hfails : (obicallGateLoadState file out).1 ≠ .ok := by
    rw [hload]
    exact fun hok => hnone (decode_ok_iff.mp hok)
  have hkept := hkeeps out hfails
  rw [hload] at hkept
  exact hne hkept.symm

/-- A failed load keeps the caller's state exactly when it is the header,
the length or the checksum that fails. -/
theorem keepsOut_iff (file : List UInt8) :
    KeepsOut file
      ↔ ¬ ∃ payload, Carries file payload
          ∧ ¬ ∃ s, BeginsWith payload s := by
  constructor
  · rintro hkeeps ⟨payload, hcarries, hnone⟩
    exact not_keepsOut hcarries hnone hkeeps
  · intro hstates out hfails
    by_cases hcarries : ∃ payload, Carries file payload
    · obtain ⟨payload, hpayload⟩ := hcarries
      rw [load_of_carries hpayload] at hfails
      refine absurd ⟨payload, hpayload, fun hs => ?_⟩ hstates
      exact hfails (decode_ok_iff.mpr hs)
    · exact (load_of_not_carries (not_exists.mp hcarries) out).2

/-- A header with an empty payload and its checksum. -/
def emptyPayload : List UInt8 :=
  gateFile gatePersistMagic 0 (obicallCrc32 []) 0 []

/-- The load of it fails and clears a state that names an owner. -/
theorem emptyPayload_clears :
    (obicallGateLoadState emptyPayload ownedByA).1 ≠ .ok
      ∧ (obicallGateLoadState emptyPayload ownedByA).2 ≠ ownedByA := by
  decide +kernel

-- ===================================================== trustworthy states

/-- What the handlers take for granted of the state: the owner is nobody or
one of the brokers, the ids of the slots in use are distinct, and there are
at most as many as slots. -/
structure GateState.Trustworthy (s : GateState) : Prop where
  owner : s.ownerBrokerId = brokerNone ∨ IsBroker s.ownerBrokerId
  distinct : s.ids.Nodup
  inRange : s.InRange

/-- The owner of a trustworthy state is an index of `brokers[]`. -/
theorem GateState.Trustworthy.index {s : GateState} (h : s.Trustworthy) :
    s.ownerBrokerId.toNat < 3 := by
  rcases h.owner with hnone | hA | hB
  · rw [hnone]
    decide
  · rw [hA]
    decide
  · rw [hB]
    decide

theorem trustworthy_zero : GateState.zero.Trustworthy where
  owner := .inl rfl
  distinct := List.nodup_nil
  inRange := Nat.zero_le maxPipelines

/-- A round trip through the state file keeps the ids. -/
theorem ids_normalize (s : GateState) : s.normalize.ids = s.ids := by
  have hslots : s.normalize.pipelines.toList.take s.pipelineCount.toNat
      = s.pipelines.toList.take s.pipelineCount.toNat := by
    apply List.ext_getElem
    · simp
    · intro j h₁ h₂
      rw [List.length_take, Vector.length_toList] at h₁
      rw [List.getElem_take, List.getElem_take, Vector.getElem_toList,
        Vector.getElem_toList]
      show (keepFirst _ _ _)[j] = _
      rw [getElem_keepFirst, if_pos (by omega)]
  exact congrArg (List.map (·.pipelineId)) hslots

theorem trustworthy_normalize {s : GateState} :
    s.normalize.Trustworthy ↔ s.Trustworthy := by
  constructor
  · intro h
    exact ⟨h.owner, ids_normalize s ▸ h.distinct, h.inRange⟩
  · intro h
    exact ⟨h.owner, (ids_normalize s).symm ▸ h.distinct, h.inRange⟩

theorem nodup_enter {cap : Nat} {t : List PipelineId} {x : PipelineId}
    (h : t.Nodup) : (enter cap t x).Nodup := by
  rw [enter]
  split
  · exact h
  next hnew =>
    obtain ⟨hx, -⟩ := not_or.mp hnew
    rw [List.nodup_append]
    refine ⟨h, List.nodup_singleton x, ?_⟩
    rintro y hy z hz rfl
    rw [List.mem_singleton.mp hz] at hy
    exact hx hy

theorem trustworthy_slotFor {s s' : GateState} {id : PipelineId}
    {i : Fin maxPipelines} (hslot : s.slotFor id = some (i, s'))
    (h : s.Trustworthy) : s'.Trustworthy where
  owner := (slotFor_spec hslot).2.2.1 ▸ h.owner
  distinct := (ids_slotFor hslot).2 ▸ nodup_enter h.distinct
  inRange := inRange_slotFor hslot h.inRange

/-- A commit leaves the ids of the slots alone. -/
theorem ids_commit {F : Type} [DoubleBits F] (s : GateState)
    (i : Fin maxPipelines) (r : Result F) : (s.commit i r).ids = s.ids := by
  have hid : ∀ j : Fin maxPipelines,
      (s.commit i r).pipelines[j].pipelineId = s.pipelines[j].pipelineId := by
    intro j
    have hget := getElem_set_slot s.pipelines
      { s.pipelines[i] with
        hasCommitted := 1
        lastCommittedWindowSeq := r.windowSeq
        lastCommittedDigest := computeResultDigest r } i j
    rw [GateState.commit, hget]
    split
    next heq => rw [heq]
    · rfl
  apply List.ext_getElem
  · simp only [GateState.ids, List.length_map, List.length_take,
      Vector.length_toList]
    rfl
  · intro j h₁ h₂
    rw [length_ids] at h₂
    simp only [GateState.ids, List.getElem_map, List.getElem_take,
      Vector.getElem_toList]
    exact hid ⟨j, by omega⟩

theorem trustworthy_decide {F : Type} [DoubleBits F] {s : GateState}
    (r : Result F) (now : Int64) (h : s.Trustworthy) :
    (obicallGateDecidePublish s r now).2.2.Trustworthy := by
  cases hd : obicallGateDecidePublish s r now with
  | mk o rest =>
  obtain ⟨i, s'⟩ := rest
  rcases decide_cases hd with
    ⟨-, rfl | ⟨j, hslot⟩⟩ | ⟨-, j, s₁, hslot, -, -, rfl⟩
  · exact h
  · exact trustworthy_slotFor hslot h
  · have h₁ := trustworthy_slotFor hslot h
    exact ⟨h₁.owner, (ids_commit s₁ j r).symm ▸ h₁.distinct, h₁.inRange⟩

theorem trustworthy_promote {s : GateState} (h : s.Trustworthy) :
    (obicallGatePromote s (successor s.ownerBrokerId)).Trustworthy := by
  refine ⟨.inr ?_, h.distinct, h.inRange⟩
  show IsBroker (successor s.ownerBrokerId)
  unfold successor
  split_ifs
  · exact .inl rfl
  · exact .inr rfl
  · exact .inl rfl

-- =================================================== runs on a state file

section Runs

variable {F : Type} [DoubleBits F]

theorem trustworthy_handleHeartbeat {ctx : GateCtx}
    (h : ctx.state.Trustworthy) (file : Option (List UInt8))
    (payload : List UInt8) (now : Int64) (diskOk : Bool) :
    (handleHeartbeat ctx file payload now diskOk).ctx.state.Trustworthy := by
  cases hn : ctx.noteHeartbeat payload now with
  | none =>
      simp only [handleHeartbeat, hn]
      exact h
  | some ctx' =>
      have hstate := noteHeartbeat_state hn
      simp only [handleHeartbeat, hn]
      cases ht : ctx'.promotionTarget now with
      | none =>
          rw [evaluatePromotionLocked_none ht]
          exact hstate.symm ▸ h
      | some b =>
          have hb := promotionTarget_eq ht
          subst hb
          rw [evaluatePromotionLocked_some ht]
          exact trustworthy_promote (hstate.symm ▸ h)

theorem trustworthy_handleResultPublish {ctx : GateCtx}
    (h : ctx.state.Trustworthy) (file : Option (List UInt8))
    (payload : List UInt8) (now : Int64) (diskOk : Bool) :
    (handleResultPublish (F := F) ctx file payload now
      diskOk).ctx.state.Trustworthy := by
  cases hdec : obicallWireDecodeResult (F := F) payload with
  | mk status r =>
  by_cases hok : status = .ok
  · subst hok
    have hdecided := trustworthy_decide r now h
    cases hd : obicallGateDecidePublish ctx.state r now with
    | mk o rest =>
    rw [hd] at hdecided
    rw [handleResultPublish_eq hdec hd]
    by_cases ho : o = .commit
    · rw [if_pos ho]
      exact hdecided
    · rw [if_neg ho]
      exact hdecided
  · simp only [handleResultPublish, hdec]
    exact h

omit [DoubleBits F] in
/-- The state file after a handler is the one before, or the new state's. -/
theorem Handles.file_cases {s s' : GateState}
    {file file' : Option (List UInt8)} {saved : Option Bool}
    {accepted : Option (Result F)}
    (h : Handles s file s' file' saved accepted) :
    file' = file
      ∨ ∃ bytes, obicallGatePersistState s' = .ok bytes
        ∧ file' = some bytes := by
  have hsaves : ∀ {ok : Bool}, SavedAs s' file file' ok → file' = file
      ∨ ∃ bytes, obicallGatePersistState s' = .ok bytes
        ∧ file' = some bytes := by
    intro ok hsaved
    cases ok with
    | false => exact .inl hsaved
    | true => exact .inr hsaved
  cases h with
  | quiet => exact .inl rfl
  | promote hsaved => exact hsaves hsaved
  | commit _ hsaved => exact hsaves hsaved

/-- Every state that the file carries is trustworthy. -/
def FileTrustworthy (file : List UInt8) : Prop :=
  ∀ payload s, Carries file payload → BeginsWith payload s → s.Trustworthy

theorem fileTrustworthy_persist {s : GateState} {bytes : List UInt8}
    (hfile : obicallGatePersistState s = .ok bytes) (h : s.Trustworthy) :
    FileTrustworthy bytes := by
  intro payload s' hcarries hbegins
  have hload := load_of_carries hcarries .zero
  rw [decode_of_beginsWith hbegins,
    obicallGateLoadState_persist hfile] at hload
  have hsame : s.normalize = s'.normalize := congrArg Prod.snd hload
  rw [← trustworthy_normalize, ← hsame]
  exact trustworthy_normalize.mpr h

/-- The running state is trustworthy, and so is what the file carries. -/
structure Trusted (g : GateSys F) : Prop where
  proc : ∀ ctx, g.proc = some ctx → ctx.state.Trustworthy
  file : ∀ bytes, g.file = some bytes → FileTrustworthy bytes

omit [DoubleBits F] in
theorem Trusted.after {α : Type} {g : GateSys F} {ctx : GateCtx}
    {h : Handled α} {answer : α → Answer F} (hg : Trusted g)
    (hhandles : Handles ctx.state g.file h.ctx.state h.file h.saved
      (h.accepts answer))
    (hstate : h.ctx.state.Trustworthy) : Trusted (g.after ctx h answer) := by
  constructor
  · intro ctx' hctx'
    obtain rfl := Option.some.inj hctx'
    exact hstate
  · intro bytes hbytes
    have hfile : h.file = some bytes := hbytes
    rcases hhandles.file_cases with hsame | ⟨bytes', hpersist, hnew⟩
    · exact hg.file bytes (hsame ▸ hfile)
    · obtain rfl := Option.some.inj (hnew.symm.trans hfile)
      exact fileTrustworthy_persist hpersist hstate

theorem Trusted.dispatch {g : GateSys F} {ctx : GateCtx} (hg : Trusted g)
    (hproc : g.proc = some ctx) (msgType : UInt8) (payload : List UInt8)
    (now : Int64) (diskOk : Bool) :
    Trusted (g.dispatch ctx msgType payload now diskOk) := by
  have hstate := hg.proc ctx hproc
  rcases dispatch_cases g ctx msgType payload now diskOk with
    ⟨_, heq⟩ | ⟨_, heq⟩ | ⟨_, heq⟩ | ⟨_, _, _, heq⟩
  · rw [heq]
    exact hg.after (accepts_statusReply _ ▸ handleHeartbeat_spec ..)
      (trustworthy_handleHeartbeat hstate ..)
  · rw [heq]
    exact hg.after (handleResultPublish_spec ..)
      (trustworthy_handleResultPublish hstate ..)
  · rw [heq]
    exact hg.after (accepts_statusReply _ ▸ handleStatusQuery_spec ..) hstate
  · rw [heq]
    exact hg

/-- Starting on a trustworthy file gives a trustworthy state. -/
theorem trustworthy_gateMain {cfg : GateConfig} {file : Option (List UInt8)}
    {now : Int64} {ctx : GateCtx} (h : gateMain cfg file now = some ctx)
    (hfile : ∀ bytes, file = some bytes → FileTrustworthy bytes) :
    ctx.state.Trustworthy := by
  cases file with
  | none =>
      cases h
      exact ⟨.inl rfl, trustworthy_zero.distinct, trustworthy_zero.inRange⟩
  | some bytes =>
      rw [gateMain] at h
      simp only at h
      split at h
      · rename_i s hload
        cases h
        obtain ⟨payload, s₀, hcarries, hbegins, rfl⟩ := load_eq_ok hload
        have htrust := trustworthy_normalize.mpr
          (hfile bytes rfl payload s₀ hcarries hbegins)
        exact ⟨htrust.owner, htrust.distinct, htrust.inRange⟩
      · cases h

theorem Trusted.step {g : GateSys F} (hg : Trusted g) (e : GateEvent) :
    Trusted (g.step e) := by
  have hstep := gateStepped g e
  generalize g.step e = g' at hstep ⊢
  cases hstep with
  | same => exact hg
  | started _ hmain =>
      refine ⟨fun ctx' hctx' => ?_, hg.file⟩
      cases hctx'
      exact trustworthy_gateMain hmain hg.file
  | crashed => exact ⟨fun _ h => (by cases h), hg.file⟩
  | received msgType payload now diskOk hproc =>
      exact hg.dispatch hproc msgType payload now diskOk
  | sent => exact ⟨hg.proc, hg.file⟩

/-- Before the first start, with a state file in place. -/
def GateSys.onFile (F : Type) (bytes : List UInt8) : GateSys F :=
  { GateSys.init F with file := some bytes }

/-- In every run on the file the running state is trustworthy, and its owner
an index of the three brokers that are watched. -/
def RunsTrustworthy (F : Type) [DoubleBits F] (bytes : List UInt8) : Prop :=
  ∀ es ctx, (run GateSys.step (GateSys.onFile F bytes) es).proc = some ctx →
    ctx.state.Trustworthy ∧ ctx.state.ownerBrokerId.toNat < 3

theorem runsTrustworthy_of_file {bytes : List UInt8}
    (h : FileTrustworthy bytes) : RunsTrustworthy F bytes := by
  intro es ctx hctx
  have hinit : Trusted (GateSys.onFile F bytes) := by
    refine ⟨fun _ hproc => (by cases hproc), fun bytes' hbytes' => ?_⟩
    cases hbytes'
    exact h
  have htrust := (run_inv (P := Trusted) (fun _ e hg => hg.step e) hinit
    es).proc ctx hctx
  exact ⟨htrust, htrust.index⟩

/-- A file that loads is what the first start runs on. -/
theorem proc_start {bytes : List UInt8} {s : GateState}
    (hload : obicallGateLoadState bytes .zero = (.ok, s)) (cfg : GateConfig)
    (now : Int64) :
    ∃ ctx, (run GateSys.step (GateSys.onFile F bytes)
        [.start cfg now]).proc = some ctx
      ∧ ctx.state = { s with
          structSize := sizeofGateState, schemaVersion := 1 } := by
  have hmain : ∃ ctx, gateMain cfg (some bytes) now = some ctx
      ∧ ctx.state = { s with
          structSize := sizeofGateState, schemaVersion := 1 } := by
    rw [gateMain]
    simp only [hload]
    exact ⟨_, rfl, rfl⟩
  obtain ⟨ctx, hctx, hstate⟩ := hmain
  refine ⟨ctx, ?_, hstate⟩
  rw [run_cons, run_nil]
  simp only [GateSys.step, GateSys.onFile, GateSys.init, hctx]

/-- The state that a file carries is the state after the first start. -/
theorem fileTrustworthy_of_runs {bytes : List UInt8}
    (h : RunsTrustworthy F bytes) : FileTrustworthy bytes := by
  intro payload s hcarries hbegins
  have hload := load_of_carries hcarries .zero
  rw [decode_of_beginsWith hbegins] at hload
  obtain ⟨ctx, hctx, hstate⟩ :=
    proc_start (F := F) hload ⟨Vector.replicate 32 0, 0, 0⟩ 0
  obtain ⟨htrust, -⟩ := h _ ctx hctx
  rw [hstate] at htrust
  rw [← trustworthy_normalize]
  exact ⟨htrust.owner, htrust.distinct, htrust.inRange⟩

/-- Every run on a state file has trustworthy states only, exactly when the
file carries no other state. -/
theorem trustworthy_iff (bytes : List UInt8) :
    RunsTrustworthy F bytes ↔ FileTrustworthy bytes :=
  ⟨fileTrustworthy_of_runs, runsTrustworthy_of_file⟩

/-- A state owned by a broker 7. -/
def ownedBySeven : GateState :=
  { ownedByA with ownerBrokerId := 7 }

/-- The gate starts on the file that a persist makes of it, and has an owner
past the end of `brokers[]`. -/
theorem seven_recovered :
    ∃ bytes, obicallGatePersistState ownedBySeven = .ok bytes
      ∧ ¬ RunsTrustworthy Binary64 bytes := by
  have hfile := obicallGatePersistState_gateFile (s := ownedBySeven)
    (by decide)
  refine ⟨_, hfile, fun h => ?_⟩
  obtain ⟨ctx, hctx, hstate⟩ := proc_start (F := Binary64)
    (obicallGateLoadState_persist hfile .zero) ⟨Vector.replicate 32 0, 50, 700⟩ 0
  have hindex := (h _ ctx hctx).2
  rw [hstate] at hindex
  exact absurd hindex (by decide)

end Runs

end Obicall
