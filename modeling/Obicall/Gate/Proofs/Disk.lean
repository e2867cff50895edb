/-
The gate over a disk that may fail at any point, and a machine that may
lose its power.

# Whole or absent

Whatever happens, and whenever, what is read under the state file's name
is the whole image of a state that was renamed to it, or there is no file
yet (`state_file_whole`): a gate always starts again.

# Power failures

A power failure may bring back an older directory. While all versions of
it lead to the same file (`Disk.Steady`) it cannot be told from a kill,
and in the middle of a message from a kill before or after the rename, so
the run is one of the process over a plain file (`power_failures_killed`).
The one persist that leaves the directory unsteady ends in `renamed`.
-/
import Mathlib.Data.List.Basic
import Obicall.Gate.Disk
import Obicall.Gate.Proofs.Failover
import Obicall.Gate.Proofs.Handlers
import Obicall.Gate.Proofs.StateFile
import Obicall.Lib.Run

namespace Obicall

open Lib.Publish (Disk Reach)
open Lib.Publish.Disk

variable {F : Type}

-- =============================================================== handlers

/-- A handler, by what the disk will answer: its answer changes neither
the memory nor whether there is a reply, and the state that is persisted
is the one the handler ends in. -/
structure Regular {α : Type} (file : Option (List UInt8))
    (h : Bool → Handled α) : Prop where
  ctx : ∀ b, (h b).ctx = (h true).ctx
  reply : ∀ b, (h b).reply.isSome = (h true).reply.isSome
  saves : (∀ b, (h b).saved = none ∧ (h b).file = file)
    ∨ ∀ b, (h b).saved = some (persistLocked (h b).ctx file b).1
      ∧ (h b).file = (persistLocked (h b).ctx file b).2

/-- A handler that does not ask the disk. -/
theorem regular_of_unsaved {α : Type} {file : Option (List UInt8)}
    {h : Bool → Handled α} {x : Handled α} (hx : ∀ b, h b = x)
    (hsaved : x.saved = none) (hfile : x.file = file) : Regular file h := by
  refine ⟨fun b => ?_, fun b => ?_, .inl fun b => ?_⟩
  · rw [hx, hx]
  · rw [hx, hx]
  · rw [hx]
    exact ⟨hsaved, hfile⟩

/-- A handler that persists the state it ends in. -/
theorem regular_of_persist {α : Type} {file : Option (List UInt8)}
    {h : Bool → Handled α} {ctx : GateCtx} {reply : Bool → Option α}
    (hx : ∀ b, h b =
      { ctx
        file := (persistLocked ctx file b).2
        saved := some (persistLocked ctx file b).1
        reply := reply b })
    (hreply : ∀ b, (reply b).isSome = (reply true).isSome) :
    Regular file h := by
  refine ⟨fun b => ?_, fun b => ?_, .inr fun b => ?_⟩
  · rw [hx, hx]
  · rw [hx, hx]
    exact hreply b
  · rw [hx]
    exact ⟨rfl, rfl⟩

theorem regular_heartbeat (ctx : GateCtx) (file : Option (List UInt8))
    (payload : List UInt8) (now : Int64) :
    Regular file (handleHeartbeat ctx file payload now) := by
  cases hnote : ctx.noteHeartbeat payload now with
  | none =>
      have h : ∀ b, handleHeartbeat ctx file payload now b
          = { ctx, file, saved := none, reply := none } := by
        intro b
        unfold handleHeartbeat
        rw [hnote]
      exact regular_of_unsaved h rfl rfl
  | some noted =>
      cases htarget : noted.promotionTarget now with
      | none =>
          have h : ∀ b, handleHeartbeat ctx file payload now b
              = { ctx := noted, file, saved := none
                  reply := noted.sendStatusReply now } := by
            intro b
            unfold handleHeartbeat evaluatePromotionLocked
            rw [hnote]
            dsimp only
            rw [htarget]
          exact regular_of_unsaved h rfl rfl
      | some broker =>
          have h : ∀ b, handleHeartbeat ctx file payload now b
              = let promoted : GateCtx :=
                  { noted with state := obicallGatePromote noted.state broker }
                { ctx := promoted
                  file := (persistLocked promoted file b).2
                  saved := some (persistLocked promoted file b).1
                  reply := promoted.sendStatusReply now } := by
            intro b
            unfold handleHeartbeat evaluatePromotionLocked
            rw [hnote]
            dsimp only
            rw [htarget]
          exact regular_of_persist h fun _ => rfl

theorem regular_resultPublish [DoubleBits F] (ctx : GateCtx)
    (file : Option (List UInt8)) (payload : List UInt8) (now : Int64) :
    Regular file (handleResultPublish (F := F) ctx file payload now) := by
  cases hdec : obicallWireDecodeResult (F := F) payload with
  | mk status result =>
    by_cases hok : status = .ok
    · subst hok
      cases hd : obicallGateDecidePublish ctx.state result now with
      | mk o rest =>
        obtain ⟨i, s'⟩ := rest
        have h := handleResultPublish_eq hdec hd file
        by_cases ho : o = .commit
        · simp only [if_pos ho] at h
          exact regular_of_persist h fun _ => rfl
        · simp only [if_neg ho] at h
          exact regular_of_unsaved h rfl rfl
    · have h : ∀ b, handleResultPublish (F := F) ctx file payload now b
          = { ctx, file, saved := none, reply := none } := by
        intro b
        simp only [handleResultPublish, hdec]
      exact regular_of_unsaved h rfl rfl

theorem regular_statusQuery (ctx : GateCtx) (file : Option (List UInt8))
    (now : Int64) :
    Regular file fun _ => handleStatusQuery ctx file now :=
  regular_of_unsaved (fun _ => rfl) rfl rfl

/-- A message goes to one handler, over the disk as over a plain file, or
to none. -/
theorem dispatch_case [DoubleBits F] (ctx : GateCtx)
    (file : Option (List UInt8)) (msgType : UInt8) (payload : List UInt8)
    (now : Int64) :
    (∃ (α : Type) (h : Bool → Handled α) (answer : α → Answer F),
      Regular file h
      ∧ (∀ (g : GateOnDisk F) reach, g.disk.read = file →
        g.dispatch ctx msgType payload now reach
          = g.after (h reach.ok) reach answer)
      ∧ ∀ (s : GateSys F) b, s.file = file →
        s.dispatch ctx msgType payload now b = s.after ctx (h b) answer)
    ∨ (∀ (g : GateOnDisk F) reach,
        g.dispatch ctx msgType payload now reach = g)
      ∧ ∀ (s : GateSys F) b, s.dispatch ctx msgType payload now b = s := by
  unfold GateOnDisk.dispatch GateSys.dispatch
  by_cases hheart : msgType = msgHeartbeat
  · refine .inl ⟨_, _, .statusReply, regular_heartbeat ctx file payload now,
      fun g reach hg => ?_, fun s b hs => ?_⟩
    · rw [if_pos hheart, hg]
    · rw [if_pos hheart, hs]
  by_cases hpublish : msgType = msgResultPublish
  · refine .inl ⟨_, _, fun a => .resultAck a.1 a.2,
      regular_resultPublish ctx file payload now,
      fun g reach hg => ?_, fun s b hs => ?_⟩
    · rw [if_neg hheart, if_pos hpublish, hg]
    · rw [if_neg hheart, if_pos hpublish, hs]
  by_cases hquery : msgType = msgStatusQuery
  · refine .inl ⟨_, _, .statusReply, regular_statusQuery ctx file now,
      fun g reach hg => ?_, fun s b hs => ?_⟩
    · rw [if_neg hheart, if_neg hpublish, if_pos hquery, hg]
    · rw [if_neg hheart, if_neg hpublish, if_pos hquery, hs]
  · refine .inr ⟨fun g reach => ?_, fun s b => ?_⟩
    · rw [if_neg hheart, if_neg hpublish, if_neg hquery]
    · rw [if_neg hheart, if_neg hpublish, if_neg hquery]

-- ============================================================ persisting

variable {P : List UInt8 → Prop} {disk : Disk}

/-- Over a sound disk, `persist_locked` does to what is read what it does
to a plain file. -/
theorem read_persistOnDisk (h : Sound P disk) (ctx : GateCtx)
    (reach : Reach) :
    (persistOnDisk ctx.state disk reach).read
      = (persistLocked ctx disk.read reach.ok).2 := by
  unfold persistOnDisk persistLocked
  cases obicallGatePersistState ctx.state with
  | ok bytes =>
      dsimp only
      rw [read_publish h]
      cases reach.ok with
      | true => rfl
      | false => rfl
  | error e =>
      dsimp only
      split
      · rfl
      · rw [read_publish h]
        rfl

theorem sound_persistOnDisk (h : Sound P disk) {state : GateState}
    {reach : Reach}
    (hP : ∀ bytes, obicallGatePersistState state = .ok bytes →
      reach.ok = true → P bytes) :
    Sound P (persistOnDisk state disk reach) := by
  unfold persistOnDisk
  cases hsave : obicallGatePersistState state with
  | ok bytes => exact sound_publish h (hP bytes hsave)
  | error e =>
      dsimp only
      split
      · exact h
      · exact sound_publish h fun hok => by cases hok

/-- A power failure in the middle of a persist leaves the file as a
persist that failed does, or as this one would have. -/
theorem read_persist_cutOff (h : Sound P disk) (hsteady : disk.Steady)
    (ctx : GateCtx) {reach : Reach}
    (hP : ∀ bytes, obicallGatePersistState ctx.state = .ok bytes →
      reach.ok = true → P bytes) (k : Nat) (torn : Nat → List UInt8) :
    ∃ b, ((persistOnDisk ctx.state disk reach).powerLoss k torn).read
      = (persistLocked ctx disk.read b).2 := by
  unfold persistOnDisk persistLocked
  cases hsave : obicallGatePersistState ctx.state with
  | ok bytes =>
      rcases read_cutOff h hsteady (hP bytes hsave) k torn
        with hold | ⟨-, hnew⟩
      · exact ⟨false, hold⟩
      · exact ⟨true, hnew⟩
  | error e =>
      refine ⟨false, ?_⟩
      dsimp only
      split
      · exact read_powerLoss h hsteady k torn
      · have hwrote : Reach.wrote [] ≠ .renamed := by
          intro he
          cases he
        rw [read_powerLoss (sound_publish h fun hok => by cases hok)
          (steady_publish hsteady [] hwrote), read_publish h]
        rfl

-- ======================================================== whole or absent

/-- The content is the image of one of these states. -/
def ImageOf (written : List GateState) (bytes : List UInt8) : Prop :=
  ∃ s ∈ written, obicallGatePersistState s = .ok bytes

theorem ImageOf.append {written : List GateState} {bytes : List UInt8}
    (h : ImageOf written bytes) (more : List GateState) :
    ImageOf (written ++ more) bytes := by
  obtain ⟨s, hs, hsave⟩ := h
  exact ⟨s, List.mem_append_left _ hs, hsave⟩

/-- Whatever directory comes back, the state file is a whole one. -/
def GateOnDisk.Whole (g : GateOnDisk F) : Prop :=
  Sound (ImageOf g.written) g.disk

theorem disk_after {α : Type} (g : GateOnDisk F) (h : Handled α)
    (reach : Reach) (answer : α → Answer F) :
    (g.after h reach answer).disk
      = if h.saved.isSome then persistOnDisk h.ctx.state g.disk reach
        else g.disk := rfl

/-- A state that was persisted is an image of what is then written. -/
theorem imageOf_after {α : Type} {g : GateOnDisk F} {h : Bool → Handled α}
    (hreg : Regular g.disk.read h) (reach : Reach) (answer : α → Answer F)
    (hsaved : (h reach.ok).saved.isSome) :
    ∀ bytes, obicallGatePersistState (h reach.ok).ctx.state = .ok bytes →
      reach.ok = true →
      ImageOf (g.after (h reach.ok) reach answer).written bytes := by
  intro bytes hsave hok
  rcases hreg.saves with hnone | hsome
  · rw [(hnone reach.ok).1] at hsaved
    cases hsaved
  have hstored : (h reach.ok).saved = some true := by
    rw [(hsome reach.ok).1]
    unfold persistLocked
    rw [hsave, hok]
    rfl
  refine ⟨(h reach.ok).ctx.state, ?_, hsave⟩
  show _ ∈ (if (h reach.ok).saved = some true then _ else _)
  rw [if_pos hstored]
  exact List.mem_append_right _ (List.mem_singleton_self _)

theorem sound_written {α : Type} {g : GateOnDisk F} (hwhole : g.Whole)
    (h : Handled α) (reach : Reach) (answer : α → Answer F) :
    Sound (ImageOf (g.after h reach answer).written) g.disk := by
  refine hwhole.mono fun bytes hbytes => ?_
  show ImageOf (if _ then _ else _) bytes
  split
  · exact hbytes.append _
  · exact hbytes

theorem whole_after {α : Type} {g : GateOnDisk F} {h : Bool → Handled α}
    (hwhole : g.Whole) (hreg : Regular g.disk.read h) (reach : Reach)
    (answer : α → Answer F) :
    (g.after (h reach.ok) reach answer).Whole := by
  have hgrown := sound_written hwhole (h reach.ok) reach answer
  unfold GateOnDisk.Whole
  rw [disk_after]
  by_cases hsaved : (h reach.ok).saved.isSome
  · rw [if_pos hsaved]
    exact sound_persistOnDisk hgrown (imageOf_after hreg reach answer hsaved)
  · rw [if_neg hsaved]
    exact hgrown

theorem whole_init : (GateOnDisk.init F).Whole := sound_empty

variable [DoubleBits F]

theorem whole_recv {g : GateOnDisk F} (h : g.Whole) (msgType : UInt8)
    (payload : List UInt8) (now : Int64) (reach : Reach) :
    (g.recv msgType payload now reach).Whole := by
  unfold GateOnDisk.recv
  cases g.proc with
  | none => exact h
  | some ctx =>
      dsimp only
      rcases dispatch_case (F := F) ctx g.disk.read msgType payload now
        with ⟨α, handler, answer, hreg, hdisk, -⟩ | ⟨hdisk, -⟩
      · rw [hdisk g reach rfl]
        exact whole_after h hreg reach answer
      · rw [hdisk]
        exact h

theorem whole_step {g : GateOnDisk F} (h : g.Whole) (e : DiskEvent) :
    (g.step e).Whole := by
  unfold GateOnDisk.step
  cases e with
  | start cfg now =>
      dsimp only
      split
      · exact h
      · exact h
  | recv msgType payload now reach => exact whole_recv h _ _ _ _
  | killed msgType payload now reach => exact whole_recv h _ _ _ _
  | send i =>
      dsimp only
      split
      · exact h
      · exact h
  | crash => exact h
  | powerLoss k torn => exact sound_powerLoss h k torn
  | cutOff msgType payload now reach k torn =>
      exact sound_powerLoss (whole_recv h _ _ _ _) k torn

/-- In every run, with kills, disk errors and power failures anywhere, the
state file is absent or the whole image of a state that was renamed to it,
which loads as that state; a gate starts on it. -/
theorem state_file_whole (es : List DiskEvent) :
    let g := gateDiskRun F es
    (∀ bytes, g.disk.read = some bytes →
      ∃ s ∈ g.written, obicallGatePersistState s = .ok bytes
        ∧ ∀ out, obicallGateLoadState bytes out = (.ok, s.normalize))
    ∧ ∀ cfg now, (gateMain cfg g.disk.read now).isSome := by
  intro g
  have hwhole : g.Whole := Lib.Run.run_inv (P := GateOnDisk.Whole)
    (fun s e h => whole_step h e) whole_init es
  have hload : ∀ bytes, g.disk.read = some bytes →
      ∃ s ∈ g.written, obicallGatePersistState s = .ok bytes
        ∧ ∀ out, obicallGateLoadState bytes out = (.ok, s.normalize) := by
    intro bytes hread
    obtain ⟨s, hs, hsave⟩ := hwhole.read hread
    exact ⟨s, hs, hsave, obicallGateLoadState_persist hsave⟩
  refine ⟨hload, fun cfg now => ?_⟩
  unfold gateMain
  cases hread : g.disk.read with
  | none => rfl
  | some bytes =>
      obtain ⟨s, -, -, hloads⟩ := hload bytes hread
      dsimp only
      rw [hloads]
      rfl

-- ======================================================== power failures

/-- What is left of a reply: nothing, once it is lost. -/
def visible (o : Answer F × Fate) : Option (Answer F × Fate) :=
  if o.2 = .lost then none else some o

/-- A gate over the disk is at the point of a gate over a plain file: the
same memory, the same file, the same replies sent and pending. -/
structure GateOnDisk.Matches (g : GateOnDisk F) (s : GateSys F) : Prop where
  proc : s.proc = g.proc
  file : s.file = g.disk.read
  outbox : s.outbox.map visible = g.outbox.map visible

omit [DoubleBits F] in
theorem visible_send (o : Answer F × Fate) :
    visible (o.1, o.2.send)
      = (visible o).map fun o => (o.1, o.2.send) := by
  rcases o with ⟨a, fate⟩
  cases fate with
  | pending => rfl
  | sent => rfl
  | lost => rfl

omit [DoubleBits F] in
theorem visible_lose (o : Answer F × Fate) :
    visible (o.1, o.2.lose)
      = (visible o).filter fun o => o.2 = .sent := by
  rcases o with ⟨a, fate⟩
  cases fate with
  | pending => rfl
  | sent => rfl
  | lost => rfl

omit [DoubleBits F] in
/-- When a process dies, what can be seen of its replies is what could be
seen before, less what was pending. -/
theorem map_visible_lose (outbox : List (Answer F × Fate)) :
    (outbox.map fun o => (o.1, o.2.lose)).map visible
      = (outbox.map visible).map fun o => o.filter fun o => o.2 = .sent := by
  rw [List.map_map, List.map_map]
  exact List.map_congr_left fun o _ => visible_lose o

omit [DoubleBits F] in
theorem map_visible_send (outbox : List (Answer F × Fate)) (i : Nat) :
    (outbox.modify i fun o => (o.1, o.2.send)).map visible
      = (outbox.map visible).modify i fun o =>
          o.map fun o => (o.1, o.2.send) := by
  induction outbox generalizing i with
  | nil => cases i <;> rfl
  | cons o outbox ih =>
      cases i with
      | zero =>
          show visible _ :: _ = _ :: _
          rw [visible_send]
      | succ i => exact congrArg (visible o :: ·) (ih i)

omit [DoubleBits F] in
/-- Of the reply to a message a process dies of, nothing can be seen. -/
theorem visible_lost_reply {α : Type} (answer : α → Answer F)
    {a b : Option α} (hab : a.isSome = b.isSome) :
    ((a.map fun a => (answer a, Fate.pending)).toList.map visible).map
        (fun o => o.filter fun o => o.2 = .sent)
      = ((b.map fun a => (answer a, Fate.pending)).toList.map visible).map
        (fun o => o.filter fun o => o.2 = .sent) := by
  cases a with
  | none =>
      cases b with
      | none => rfl
      | some b => cases hab
  | some a =>
      cases b with
      | none => cases hab
      | some b => rfl

variable {g : GateOnDisk F} {s : GateSys F}

omit [DoubleBits F] in
/-- What is read after a handler is the file the handler leaves. -/
theorem read_after {α : Type} {h : Bool → Handled α} (hwhole : g.Whole)
    (hreg : Regular g.disk.read h) (reach : Reach) (answer : α → Answer F) :
    (g.after (h reach.ok) reach answer).disk.read = (h reach.ok).file := by
  rw [disk_after]
  rcases hreg.saves with hnone | hsome
  · rw [(hnone reach.ok).1, (hnone reach.ok).2]
    rfl
  · rw [(hsome reach.ok).1, (hsome reach.ok).2]
    exact read_persistOnDisk hwhole _ reach

omit [DoubleBits F] in
/-- A power failure during a handler leaves the file as the handler does
for one of the disk's answers. -/
theorem read_after_cutOff {α : Type} {h : Bool → Handled α}
    (hwhole : g.Whole) (hsteady : g.disk.Steady)
    (hreg : Regular g.disk.read h) (reach : Reach) (answer : α → Answer F)
    (k : Nat) (torn : Nat → List UInt8) :
    ∃ b, (h b).file
      = ((g.after (h reach.ok) reach answer).disk.powerLoss k torn).read := by
  rw [disk_after]
  rcases hreg.saves with hnone | hsome
  · refine ⟨true, ?_⟩
    rw [(hnone reach.ok).1, (hnone true).2]
    exact (read_powerLoss hwhole hsteady k torn).symm
  · have hsaved : (h reach.ok).saved.isSome := by
      rw [(hsome reach.ok).1]
      rfl
    rw [if_pos hsaved]
    obtain ⟨b, hb⟩ := read_persist_cutOff
      (sound_written hwhole (h reach.ok) reach answer) hsteady
      (h reach.ok).ctx (imageOf_after hreg reach answer hsaved) k torn
    refine ⟨b, ?_⟩
    rw [hb, (hsome b).2, hreg.ctx b, hreg.ctx reach.ok]

omit [DoubleBits F] in
theorem matches_after {α : Type} {h : Bool → Handled α}
    (hmatch : g.Matches s) (hwhole : g.Whole)
    (hreg : Regular g.disk.read h) (ctx : GateCtx) (reach : Reach)
    (answer : α → Answer F) :
    (g.after (h reach.ok) reach answer).Matches
      (s.after ctx (h reach.ok) answer) where
  proc := rfl
  file := (read_after hwhole hreg reach answer).symm
  outbox := by
    show (s.outbox ++ _).map visible = (g.outbox ++ _).map visible
    rw [List.map_append, List.map_append, hmatch.outbox]

theorem matches_die (hmatch : g.Matches s) :
    g.die.Matches (s.step .crash) where
  proc := rfl
  file := hmatch.file
  outbox := by
    show (s.outbox.map _).map visible = (g.outbox.map _).map visible
    rw [map_visible_lose, map_visible_lose, hmatch.outbox]

theorem matches_recv (hmatch : g.Matches s) (hwhole : g.Whole)
    (msgType : UInt8) (payload : List UInt8) (now : Int64)
    (reach : Reach) :
    (g.recv msgType payload now reach).Matches
      (s.step (.recv msgType payload now reach.ok)) := by
  unfold GateOnDisk.recv GateSys.step
  dsimp only
  rw [hmatch.proc]
  cases g.proc with
  | none => exact hmatch
  | some ctx =>
      dsimp only
      rcases dispatch_case (F := F) ctx g.disk.read msgType payload now
        with ⟨α, h, answer, hreg, hdisk, hfile⟩ | ⟨hdisk, hfile⟩
      · rw [hdisk g reach rfl, hfile s reach.ok hmatch.file]
        exact matches_after hmatch hwhole hreg ctx reach answer
      · rw [hdisk, hfile]
        exact hmatch

theorem matches_powerLoss (hmatch : g.Matches s) (hwhole : g.Whole)
    (hsteady : g.disk.Steady) (k : Nat) (torn : Nat → List UInt8) :
    GateOnDisk.Matches { g.die with disk := g.disk.powerLoss k torn }
      (s.step .crash) :=
  { matches_die hmatch with
    file := hmatch.file.trans (read_powerLoss hwhole hsteady k torn).symm }

/-- A power failure in the middle of a message is a kill after it, the
disk having answered one way or the other. -/
theorem matches_cutOff (hmatch : g.Matches s) (hwhole : g.Whole)
    (hsteady : g.disk.Steady) (msgType : UInt8) (payload : List UInt8)
    (now : Int64) (reach : Reach) (k : Nat) (torn : Nat → List UInt8) :
    ∃ b, (g.step (.cutOff msgType payload now reach k torn)).Matches
      ((s.step (.recv msgType payload now b)).step .crash) := by
  show ∃ b, GateOnDisk.Matches { (g.recv msgType payload now reach).die with
    disk := (g.recv msgType payload now reach).disk.powerLoss k torn } _
  unfold GateOnDisk.recv GateSys.step
  dsimp only
  rw [hmatch.proc]
  cases g.proc with
  | none =>
      exact ⟨true, matches_powerLoss hmatch hwhole hsteady k torn⟩
  | some ctx =>
      dsimp only
      rcases dispatch_case (F := F) ctx g.disk.read msgType payload now
        with ⟨α, h, answer, hreg, hdisk, hfile⟩ | ⟨hdisk, hfile⟩
      · rw [hdisk g reach rfl]
        obtain ⟨b, hread⟩ := read_after_cutOff hwhole hsteady hreg reach
          answer k torn
        refine ⟨b, ?_⟩
        rw [hfile s b hmatch.file]
        refine ⟨rfl, hread, ?_⟩
        show (List.map _ (s.outbox ++ _)).map visible
          = (List.map _ (g.outbox ++ _)).map visible
        rw [map_visible_lose, map_visible_lose, List.map_append,
          List.map_append, List.map_append, List.map_append, hmatch.outbox,
          visible_lost_reply answer
            ((hreg.reply b).trans (hreg.reply reach.ok).symm)]
      · refine ⟨true, ?_⟩
        rw [hdisk, hfile]
        exact matches_powerLoss hmatch hwhole hsteady k torn

/-- What is an event over the disk to a gate over a plain file. A message
is the same message, and the disk answers it alike, or as told where the
power fails before it has answered. A power failure is a kill. -/
def DiskEvent.onFile (diskOk : Bool) : DiskEvent → List GateEvent
  | .start cfg now => [.start cfg now]
  | .recv msgType payload now reach => [.recv msgType payload now reach.ok]
  | .killed msgType payload now reach =>
      [.recv msgType payload now reach.ok, .crash]
  | .send i => [.send i]
  | .crash => [.crash]
  | .powerLoss _ _ => [.crash]
  | .cutOff msgType payload now _ _ _ =>
      [.recv msgType payload now diskOk, .crash]

/-- What one step over the disk does, at most two steps over a plain file
do. -/
theorem matches_step (hmatch : g.Matches s) (hwhole : g.Whole)
    {e : DiskEvent} (hpower : e.LosesPower → g.disk.Steady) :
    ∃ diskOk, (g.step e).Matches
      (Lib.Run.run GateSys.step s (e.onFile diskOk)) := by
  cases e with
  | start cfg now =>
      refine ⟨true, ?_⟩
      show (g.step (.start cfg now)).Matches (s.step (.start cfg now))
      unfold GateOnDisk.step GateSys.step
      dsimp only
      rw [hmatch.proc, hmatch.file]
      cases g.proc with
      | some ctx => exact hmatch
      | none =>
          cases gateMain cfg g.disk.read now with
          | none => exact hmatch
          | some ctx => exact ⟨rfl, rfl, hmatch.outbox⟩
  | recv msgType payload now reach =>
      exact ⟨true, matches_recv hmatch hwhole msgType payload now reach⟩
  | killed msgType payload now reach =>
      exact ⟨true,
        matches_die (matches_recv hmatch hwhole msgType payload now reach)⟩
  | send i =>
      refine ⟨true, ?_⟩
      show (g.step (.send i)).Matches (s.step (.send i))
      unfold GateOnDisk.step GateSys.step
      dsimp only
      rw [hmatch.proc]
      cases g.proc with
      | none => exact hmatch
      | some ctx =>
          refine ⟨rfl, hmatch.file, ?_⟩
          show (s.outbox.modify i _).map visible
            = (g.outbox.modify i _).map visible
          rw [map_visible_send, map_visible_send, hmatch.outbox]
  | crash => exact ⟨true, matches_die hmatch⟩
  | powerLoss k torn =>
      exact ⟨true, matches_powerLoss hmatch hwhole (hpower trivial) k torn⟩
  | cutOff msgType payload now reach k torn =>
      exact matches_cutOff hmatch hwhole (hpower trivial) msgType payload
        now reach k torn

/-- The power fails only while all versions of the directory lead to the
same state file. -/
def PowerHolds (g : GateOnDisk F) (e : DiskEvent) : Prop :=
  e.LosesPower → g.disk.Steady

omit [DoubleBits F] in
theorem steady_persistOnDisk (h : disk.Steady) (state : GateState)
    {reach : Reach} (hreach : reach ≠ .renamed) :
    (persistOnDisk state disk reach).Steady := by
  unfold persistOnDisk
  cases obicallGatePersistState state with
  | ok bytes => exact steady_publish h bytes hreach
  | error e =>
      dsimp only
      split
      · exact h
      · refine steady_publish h [] fun he => ?_
        cases he

/-- No persist that a gate outlives or is killed in ends between the rename
and the sync of the directory. -/
def DiskEvent.Settles : DiskEvent → Prop
  | .recv _ _ _ reach | .killed _ _ _ reach => reach ≠ .renamed
  | _ => True

theorem steady_recv (h : g.disk.Steady) (msgType : UInt8)
    (payload : List UInt8) (now : Int64) {reach : Reach}
    (hreach : reach ≠ .renamed) :
    (g.recv msgType payload now reach).disk.Steady := by
  unfold GateOnDisk.recv
  cases g.proc with
  | none => exact h
  | some ctx =>
      dsimp only
      rcases dispatch_case (F := F) ctx g.disk.read msgType payload now
        with ⟨α, handler, answer, -, hdisk, -⟩ | ⟨hdisk, -⟩
      · rw [hdisk g reach rfl, disk_after]
        split
        · exact steady_persistOnDisk h _ hreach
        · exact h
      · rw [hdisk]
        exact h

theorem steady_step (h : g.disk.Steady) {e : DiskEvent} (he : e.Settles) :
    (g.step e).disk.Steady := by
  unfold GateOnDisk.step
  cases e with
  | start cfg now =>
      dsimp only
      split
      · exact h
      · exact h
  | recv msgType payload now reach => exact steady_recv h _ _ _ he
  | killed msgType payload now reach => exact steady_recv h _ _ _ he
  | send i =>
      dsimp only
      split
      · exact h
      · exact h
  | crash => exact h
  | powerLoss k torn => exact steady_powerLoss _ k torn
  | cutOff msgType payload now reach k torn =>
      exact steady_powerLoss _ k torn

/-- Where every persist that gets to the rename also syncs the directory,
the power may fail at any time. -/
theorem powerHolds_of_settles {es : List DiskEvent}
    (hes : ∀ e ∈ es, e.Settles) (h : g.disk.Steady) :
    Lib.Run.Meets GateOnDisk.step PowerHolds g es := by
  induction es generalizing g with
  | nil => trivial
  | cons e es ih =>
      obtain ⟨he, hes⟩ := List.forall_mem_cons.mp hes
      exact ⟨fun _ => h, ih hes (steady_step h he)⟩

/-- A run over the disk in which the power fails only while the directory
is steady, between messages or in the middle of one, is the run of the gate
over a plain file with the same messages, in which every power failure is a
kill: the same memory, the same state file, and the same replies, but for
what is lost. -/
theorem power_failures_killed {es : List DiskEvent}
    (hpower : Lib.Run.Meets GateOnDisk.step PowerHolds (GateOnDisk.init F)
      es) :
    ∃ ess, List.Forall₂ (fun e fs => ∃ diskOk, fs = e.onFile diskOk) es ess
      ∧ (gateDiskRun F es).Matches (gateRun F ess.flatten) := by
  have hinit : (GateOnDisk.init F).Matches (GateSys.init F) := ⟨rfl, rfl, rfl⟩
  have hstep : ∀ (g : GateOnDisk F) (s : GateSys F) (e : DiskEvent),
      g.Whole ∧ g.Matches s → PowerHolds g e →
      ∃ fs, (∃ diskOk, fs = e.onFile diskOk)
        ∧ (g.step e).Whole
        ∧ (g.step e).Matches (Lib.Run.run GateSys.step s fs) := by
    rintro g s e ⟨hwhole, hmatch⟩ hpower
    obtain ⟨diskOk, hnext⟩ := matches_step hmatch hwhole hpower
    exact ⟨e.onFile diskOk, ⟨diskOk, rfl⟩, whole_step hwhole e, hnext⟩
  obtain ⟨ess, hess, -, hmatch⟩ :=
    Lib.Run.run_simulates hstep ⟨whole_init, hinit⟩ hpower
  exact ⟨ess, hess, hmatch⟩

/-- The power fails between the rename and the sync of the directory, when
the gate has just granted the first epoch. -/
def powerCut : List DiskEvent :=
  [.start cfgAB 0, .cutOff msgHeartbeat heartbeatA.bytes 0 .renamed 1
    fun _ => [], .start cfgAB 5]

/-- The gate that starts again is the one over a plain file that was killed
after the heartbeat. -/
theorem power_failures_killed_cut :
    ∃ diskOk, (gateDiskRun Binary64 powerCut).Matches
      (gateRun Binary64 [.start cfgAB 0,
        .recv msgHeartbeat heartbeatA.bytes 0 diskOk, .crash,
        .start cfgAB 5]) := by
  have hsettles : ∀ e ∈ powerCut, e.Settles := by
    unfold powerCut
    simp [DiskEvent.Settles]
  obtain ⟨ess, hess, hmatch⟩ := power_failures_killed (F := Binary64)
    (powerHolds_of_settles hsettles steady_empty)
  obtain ⟨_, _, ⟨_, rfl⟩, hcut, rfl⟩ := List.forall₂_cons_left_iff.mp hess
  obtain ⟨_, _, ⟨diskOk, rfl⟩, hagain, rfl⟩ :=
    List.forall₂_cons_left_iff.mp hcut
  obtain ⟨_, _, ⟨_, rfl⟩, hend, rfl⟩ := List.forall₂_cons_left_iff.mp hagain
  obtain rfl := List.forall₂_nil_left_iff.mp hend
  exact ⟨diskOk, hmatch⟩

end Obicall
