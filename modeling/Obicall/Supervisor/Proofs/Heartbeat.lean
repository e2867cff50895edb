/-
What the staleness check tells of a worker.

# What carries it

The heartbeat file's time is within a second of the worker's last write
and never ahead of the worker's last act (`Stamped`). So in every run a
worker whose loop turns often enough is left running, and one that stands
still is found at the first tick after five seconds (`hang_detection`).

Both rest on the two programs meaning one file, and they do exactly when
the names fit the supervisor's own arrays (`pidFile_eq_watchedFile`): a
worker name of 62 characters or more is cut in the record, and such a
worker is found hung however well it runs (`unwatched_hung`).
-/
import Mathlib.Data.List.Basic
import Obicall.Common.Proofs.Args
import Obicall.Lib.Elapsed
import Obicall.Lib.Overlay
import Obicall.Lib.Run
import Obicall.Supervisor.Heartbeat
import Obicall.Supervisor.Proofs.Start

namespace Obicall

open Lib.Run
open Lib.Elapsed
open Lib.Overlay

-- ================================================================== paths

theorem length_cut (cap : Nat) (text : List UInt8) :
    (cut cap text).length = min (cap - 1) text.length := by
  unfold cut
  exact List.length_take

theorem length_workerName (sl : ProviderSlot) (isB : Bool) :
    (workerName sl isB).length
      = min 95 ((textIn sl.ref.workerName sl.behind).length + 2) := by
  have hletter : (brokerLetter isB).length = 1 := by
    cases isB
    · rfl
    · rfl
  unfold workerName
  rw [length_cut, List.length_append, List.length_append, hletter,
    show (ascii "_").length = 1 from rfl]

theorem length_pidPath (dir name : List UInt8) :
    (dir ++ ascii "/" ++ name ++ ascii ".pid").length
      = dir.length + name.length + 5 := by
  simp only [List.length_append, show (ascii "/").length = 1 from rfl,
    show (ascii ".pid").length = 4 from rfl]
  omega

/-- Both programs mean the same file exactly when the supervisor's copies
of the directory and of the name are whole. -/
theorem pidFile_eq_watchedFile (w : StartWorld) (sl : ProviderSlot)
    (isB : Bool) : w.pidFile sl isB = some (w.watchedFile sl isB)
      ↔ w.runtimeDir.length < 512
        ∧ (cString sl.ref.workerName).length < 62 := by
  have hname := length_workerName sl isB
  have hlonger :=
    (cString_prefix_textIn sl.ref.workerName sl.behind).length_le
  have hcutdir := length_cut 512 w.runtimeDir
  have hcutname := length_cut 64 (workerName sl isB)
  have hwatched : w.watchedFile sl isB = cut 512 w.runtimeDir ++ ascii "/"
      ++ cut 64 (workerName sl isB) ++ ascii ".pid" := by
    unfold StartWorld.watchedFile watchedPath
    apply cut_eq
    rw [length_pidPath]
    omega
  have hpid := length_pidPath w.runtimeDir (workerName sl isB)
  unfold StartWorld.pidFile pidFilePath
  dsimp only
  rw [hwatched]
  constructor
  · intro h
    split at h
    · have hlen := congrArg List.length (Option.some.inj h)
      rw [length_pidPath, length_pidPath] at hlen
      omega
    · cases h
  · intro h
    obtain ⟨hdir, hshort⟩ := h
    have htext : textIn sl.ref.workerName sl.behind
        = cString sl.ref.workerName := textIn_of_length_lt (by omega) _
    rw [htext] at hname
    rw [if_pos (by omega), cut_eq hdir, cut_eq (by omega)]

-- ================================================================== clocks

/-- The whole seconds of a time. -/
theorem toInt_seconds {r : Int64} (h : 0 ≤ r.toInt) :
    (r / 1000000000).toInt = r.toInt / 1000000000 := by
  rw [Int64.toInt_div_of_ne_right _ _ (by decide),
    show (1000000000 : Int64).toInt = 1000000000 from rfl,
    Int.tdiv_eq_ediv_of_nonneg h]

theorem toInt_mtimeNs {s : Int64} (hlo : 0 ≤ s.toInt)
    (hhi : s.toInt * 1000000000 < 2 ^ 62) :
    (osalFileMtimeNs (some s)).toInt = s.toInt * 1000000000 := by
  show (s * 1000000000).toInt = _
  rw [Int64.toInt_mul, show (1000000000 : Int64).toInt = 1000000000 from rfl]
  apply Int.bmod_eq_of_le_mul_two
  · omega
  · omega

-- ================================================================ the check

/-- A running process is left alone exactly when it is not found hung. -/
theorem monitor_running_iff {c : ChildProc} {now : Int64} {a : TickAnswer}
    (hlive : c.proc.any (fun p => p.alive) = true) :
    (c.monitor now a).2 = .running ↔ c.hung now a = false := by
  unfold ChildProc.monitor
  cases hp : c.proc with
  | none =>
      rw [hp] at hlive
      cases hlive
  | some p =>
      rw [hp] at hlive
      have halive : p.alive = true := hlive
      cases hhung : c.hung now a with
      | false => simp [halive]
      | true =>
          simp only [halive, Bool.not_true, Bool.and_false,
            Bool.false_eq_true, if_false, reduceCtorEq, iff_false]
          have hcase := restart_case hp fun _ => hhung
          generalize c.restart now a = out at hcase ⊢
          cases hcase with
          | absent hnone => rw [hnone] at hp; cases hp
          | running hp halive hfresh => rw [hfresh] at hhung; cases hhung
          | suspended hp hsusp => exact Monitored.noConfusion
          | exceeded hdue hatt => exact Monitored.noConfusion
          | restarted hdue hatt hspawn => exact Monitored.noConfusion
          | spawnFailed w hdue hatt hspawn => exact Monitored.noConfusion

/-- What is found hung is past the grace period, and its file is missing
or old. -/
theorem hung_iff {c : ChildProc} {now : Int64} {a : TickAnswer} :
    c.hung now a = true ↔ c.isWorker = true
      ∧ 4000000000 < now - c.windowStartNs
      ∧ (a.mtimeNs < 0 ∨ 5000000000 < a.realtimeNs - a.mtimeNs) := by
  unfold ChildProc.hung
  simp only [Bool.and_eq_true, Bool.or_eq_true, decide_eq_true_eq, and_assoc]

-- =============================================================== invariant

/-- What the heartbeat file tells, when the supervisor looks at the one
that the worker writes. -/
structure Stamped (off : Int) (h : HangWatch) : Prop where
  watched : h.writes = some h.watches
  worker : h.child.isWorker = true
  clock : 200000000 ≤ h.clock.toInt ∧ h.clock.toInt < 2 ^ 62
  active : h.active.toInt ≤ h.clock.toInt
  window : h.child.proc ≠ none →
    0 ≤ h.child.windowStartNs.toInt
      ∧ h.child.windowStartNs.toInt ≤ h.active.toInt
  lastWrite : 0 ≤ h.lastWrite.toInt ∧ h.lastWrite.toInt ≤ h.clock.toInt
  stamp : ∀ s, h.mtimes h.watches = some s →
    0 ≤ s.toInt ∧ s.toInt * 1000000000 ≤ h.active.toInt + off
  turned : ∀ u, h.turned = some u →
    u.toInt - h.lastWrite.toInt < 200000000
      ∧ ∃ s, h.mtimes h.watches = some s
        ∧ h.lastWrite.toInt + off < (s.toInt + 1) * 1000000000

/-- Readings that an event comes with. -/
structure Reads (off : Int) (h : HangWatch) (now real : Int64) : Prop where
  onward : h.clock.toInt ≤ now.toInt
  bound : now.toInt < 2 ^ 62
  inStep : real.toInt = now.toInt + off
  real_lo : 0 ≤ real.toInt
  real_hi : real.toInt < 2 ^ 62

theorem Clocked.reads {off : Int} {h : HangWatch} {e : WatchEvent}
    (hc : Clocked off h e) {now real : Int64}
    (he : e.readings = some (now, real)) (hm : e.monotonic = some now) :
    Reads off h now real where
  onward := (hc.onward now hm).1
  bound := (hc.onward now hm).2
  inStep := (hc.inStep now real he).1
  real_lo := (hc.inStep now real he).2.1
  real_hi := (hc.inStep now real he).2.2

variable {off : Int} {h : HangWatch} {now real : Int64}

/-- The time that a write puts on the file. -/
theorem Reads.second (hr : Reads off h now real) :
    0 ≤ (real / 1000000000).toInt
      ∧ (real / 1000000000).toInt * 1000000000 ≤ now.toInt + off
      ∧ now.toInt + off < ((real / 1000000000).toInt + 1) * 1000000000 := by
  have hlo := hr.real_lo
  have hstep := hr.inStep
  rw [toInt_seconds hlo]
  omega

/-- A write puts its second on the file, or leaves it as it is. -/
theorem Stamped.write_eq (ht : Stamped off h) (ok : Bool) :
    h.write real ok = if ok then
      { h with
        mtimes := Function.update h.mtimes h.watches
          (some (real / 1000000000)) }
    else h := by
  unfold HangWatch.write
  rw [ht.watched]
  cases ok
  · rfl
  · rfl

/-- A write, and the readings it comes with. -/
theorem Stamped.write (ht : Stamped off h) (hr : Reads off h now real)
    (ok : Bool) :
    Stamped off { h.write real ok with clock := now, active := now } := by
  have hclock := Int.le_trans ht.clock.1 hr.onward
  have hactive := Int.le_trans ht.active hr.onward
  have hlast := Int.le_trans ht.lastWrite.2 hr.onward
  have hwindow : h.child.proc ≠ none → 0 ≤ h.child.windowStartNs.toInt
      ∧ h.child.windowStartNs.toInt ≤ now.toInt := by
    intro hproc
    obtain ⟨hlo, hhi⟩ := ht.window hproc
    exact ⟨hlo, Int.le_trans hhi hactive⟩
  rw [ht.write_eq]
  cases ok with
  | false =>
      refine ⟨ht.watched, ht.worker, ⟨hclock, hr.bound⟩, Int.le_refl _,
        hwindow, ⟨ht.lastWrite.1, hlast⟩, ?_, ht.turned⟩
      intro s hs
      obtain ⟨hlo, hhi⟩ := ht.stamp s hs
      exact ⟨hlo, Int.le_trans hhi (Int.add_le_add_right hactive off)⟩
  | true =>
      obtain ⟨hsec, hbelow, habove⟩ := hr.second
      have hnew : Function.update h.mtimes h.watches
          (some (real / 1000000000)) h.watches = some (real / 1000000000) :=
        Function.update_self ..
      refine ⟨ht.watched, ht.worker, ⟨hclock, hr.bound⟩, Int.le_refl _,
        hwindow, ⟨ht.lastWrite.1, hlast⟩, ?_, ?_⟩
      · intro s hs
        obtain rfl := Option.some.inj (hnew.symm.trans hs)
        exact ⟨hsec, hbelow⟩
      · intro u hu
        refine ⟨(ht.turned u hu).1, real / 1000000000, hnew, ?_⟩
        exact Int.lt_of_le_of_lt (Int.add_le_add_right hlast off) habove

theorem Stamped.beat (ht : Stamped off h) (hr : Reads off h now real)
    (ok : Bool) :
    Stamped off { h.beat now real ok with clock := now, active := now } := by
  unfold HangWatch.beat
  split
  next hdue =>
    have hw := ht.write hr ok
    refine ⟨hw.watched, hw.worker, hw.clock, hw.active, hw.window, ?_,
      hw.stamp, ?_⟩
    · exact ⟨Int.le_trans (by omega) hw.clock.1, Int.le_refl _⟩
    · intro u hu
      cases ok with
      | false => cases hu
      | true =>
          obtain rfl : now = u := Option.some.inj hu
          refine ⟨?_, real / 1000000000, ?_, hr.second.2.2⟩
          · show now.toInt - now.toInt < 200000000
            omega
          · rw [ht.write_eq]
            exact Function.update_self ..
  next hdue =>
    have hw := ht.write hr false
    rw [ht.write_eq] at hw
    refine ⟨hw.watched, hw.worker, hw.clock, hw.active, hw.window,
      hw.lastWrite, hw.stamp, ?_⟩
    intro u hu
    obtain ⟨u', hu', rfl⟩ := Option.map_eq_some_iff.mp hu
    refine ⟨?_, (ht.turned u' hu').2⟩
    -- it is not due: the last write is under a period ago
    have hlast := ht.lastWrite
    have honward := hr.onward
    have hbound := hr.bound
    have hsub : (now - h.lastWrite).toInt
        = now.toInt - h.lastWrite.toInt :=
      toInt_sub_of_fits (by omega) (by omega)
    rw [Int64.not_le, Int64.lt_iff_toInt_lt, hsub] at hdue
    exact hdue

/-- The tick moves the record; a process that it starts has done nothing
yet. -/
theorem Stamped.tick (ht : Stamped off h) (hr : Reads off h now real)
    {spawn : Option Int64}
    (hspawn : ∀ t, spawn = some t → now.toInt ≤ t.toInt ∧ t.toInt < 2 ^ 62) :
    Stamped off (h.step (.tick now real spawn)) := by
  have hclock := Int.le_trans ht.clock.1 hr.onward
  have hactive := Int.le_trans ht.active hr.onward
  have hlast := Int.le_trans ht.lastWrite.2 hr.onward
  have hcase := monitor_case h.child now (h.answer real spawn)
  unfold HangWatch.step HangWatch.monitored
  dsimp only
  generalize h.child.monitor now (h.answer real spawn) = out at hcase ⊢
  -- all that a tick without a new process leaves to show
  have keeps : ∀ c : ChildProc, c.isWorker = h.child.isWorker →
      (c.proc ≠ none → c = h.child) →
      Stamped off { h with child := c, clock := now } := by
    intro c hworker hproc
    refine ⟨ht.watched, hworker.trans ht.worker, ⟨hclock, hr.bound⟩, hactive,
      ?_, ⟨ht.lastWrite.1, hlast⟩, ht.stamp, ht.turned⟩
    intro hsome
    have hsame : c = h.child := hproc hsome
    show 0 ≤ c.windowStartNs.toInt ∧ _
    rw [hsame] at hsome ⊢
    exact ht.window hsome
  cases hcase with
  | absent hp => exact keeps h.child rfl fun _ => rfl
  | running hp halive hfresh => exact keeps h.child rfl fun _ => rfl
  | suspended hp hsusp => exact keeps _ rfl fun hno => absurd rfl hno
  | exceeded hdue hatt => exact keeps _ rfl fun hno => absurd rfl hno
  | spawnFailed win hdue hatt hfail =>
      exact keeps _ rfl fun hno => absurd rfl hno
  | @restarted t hdue hatt hnew =>
      obtain ⟨hle, hlt⟩ := hspawn t hnew
      have hstart : 200000000 ≤ t.toInt := Int.le_trans hclock hle
      have hpos : 0 ≤ t.toInt := by omega
      refine ⟨ht.watched, ht.worker, ⟨hstart, hlt⟩, Int.le_refl _,
        fun _ => ⟨hpos, Int.le_refl _⟩, ⟨Int.le_refl _, hpos⟩, ?_, ?_⟩
      · intro s hs
        obtain ⟨hlo, hhi⟩ := ht.stamp s hs
        have hnow := Int.le_trans hactive hle
        exact ⟨hlo, Int.le_trans hhi (Int.add_le_add_right hnow off)⟩
      · intro u hu
        cases hu

/-- A resumed worker is given its grace period again. -/
theorem Stamped.resumed (ht : Stamped off h)
    (honward : h.clock.toInt ≤ now.toInt) (hbound : now.toInt < 2 ^ 62) :
    Stamped off (h.step (.resumed now)) := by
  have hclock := Int.le_trans ht.clock.1 honward
  have hactive := Int.le_trans ht.active honward
  have hpos : 0 ≤ now.toInt := by omega
  refine ⟨ht.watched, ht.worker, ⟨hclock, hbound⟩, Int.le_refl _,
    fun _ => ⟨hpos, Int.le_refl _⟩,
    ⟨ht.lastWrite.1, Int.le_trans ht.lastWrite.2 honward⟩, ?_, ht.turned⟩
  intro s hs
  obtain ⟨hlo, hhi⟩ := ht.stamp s hs
  exact ⟨hlo, Int.le_trans hhi (Int.add_le_add_right hactive off)⟩

/-- What is not about the record's clocks leaves the rest alone. -/
theorem Stamped.child (ht : Stamped off h) {c : ChildProc}
    (hworker : c.isWorker = h.child.isWorker)
    (hwin : c.windowStartNs = h.child.windowStartNs)
    (hproc : c.proc ≠ none → h.child.proc ≠ none) :
    Stamped off { h with child := c } := by
  refine ⟨ht.watched, hworker.trans ht.worker, ht.clock, ht.active, ?_,
    ht.lastWrite, ht.stamp, ht.turned⟩
  intro hsome
  show 0 ≤ c.windowStartNs.toInt ∧ _
  rw [hwin]
  exact ht.window (hproc hsome)

/-- One step. -/
theorem Stamped.step (ht : Stamped off h) {e : WatchEvent}
    (hc : Clocked off h e) : Stamped off (h.step e) := by
  cases e with
  | boot now real ok =>
      unfold HangWatch.step
      dsimp only
      split
      · exact ht.write (hc.reads rfl rfl) ok
      · exact ht
  | turn now real ok =>
      unfold HangWatch.step
      dsimp only
      split
      · exact ht.beat (hc.reads rfl rfl) ok
      · exact ht
  | exits =>
      apply ht.child
      · rfl
      · rfl
      · intro hsome hnone
        apply hsome
        show h.child.proc.map _ = none
        rw [hnone]
        rfl
  | tick now real spawn =>
      exact ht.tick (hc.reads rfl rfl) fun t htime =>
        hc.spawn now rfl t htime
  | suspended => exact ht.child rfl rfl id
  | resumed now =>
      obtain ⟨honward, hbound⟩ := hc.onward now rfl
      exact ht.resumed honward hbound

-- =================================================================== check

/-- The file's time, as the supervisor reads it. -/
theorem Stamped.mtimeNs (ht : Stamped off h) (hr : Reads off h now real)
    {s : Int64} (hs : h.mtimes h.watches = some s) :
    (osalFileMtimeNs (h.mtimes h.watches)).toInt = s.toInt * 1000000000 := by
  obtain ⟨hlo, hhi⟩ := ht.stamp s hs
  have hactive := Int.le_trans ht.active hr.onward
  have hstep := hr.inStep
  have hreal := hr.real_hi
  rw [hs]
  exact toInt_mtimeNs hlo (by omega)

/-- A worker that did nothing for five seconds is found hung. -/
theorem Stamped.hung (ht : Stamped off h) (hr : Reads off h now real)
    (spawn : Option Int64) (hproc : h.child.proc ≠ none)
    (hlong : 5000000000 < now.toInt - h.active.toInt) :
    h.child.hung now (h.answer real spawn) = true := by
  obtain ⟨hwlo, hwhi⟩ := ht.window hproc
  have hbound := hr.bound
  have hstep := hr.inStep
  have hreal := hr.real_hi
  have hlo := hr.real_lo
  refine hung_iff.mpr ⟨ht.worker, ?_, ?_⟩
  · rw [Int64.lt_iff_toInt_lt, toInt_sub_of_fits (by omega) (by omega)]
    show (4000000000 : Int) < _
    omega
  · cases hs : h.mtimes h.watches with
    | none =>
        left
        show osalFileMtimeNs (h.mtimes h.watches) < 0
        rw [hs]
        decide
    | some s =>
        right
        obtain ⟨hslo, hshi⟩ := ht.stamp s hs
        have hmtime := ht.mtimeNs hr hs
        show 5000000000 < real - osalFileMtimeNs (h.mtimes h.watches)
        rw [Int64.lt_iff_toInt_lt, toInt_sub_of_fits (by omega) (by omega)]
        show (5000000000 : Int) < _
        omega

/-- A worker that beats once a second after its start. -/
def gpsSlot : ProviderSlot where
  ref :=
    { manifest := place 0 (ascii "gps.json") (zeroBytes 512)
      workerName := place 0 (ascii "gps") (zeroBytes 64)
      instanceSeed := 42 }
  behind := [42]

def gpsTurns : List WatchEvent :=
  [.boot 1100000000 8100000000 true, .turn 1200000000 8200000000 true]

/-- The supervisor looks at a file that nobody writes. -/
structure Unwatched (h : HangWatch) : Prop where
  worker : h.child.isWorker = true
  writes : h.writes ≠ some h.watches
  missing : h.mtimes h.watches = none

theorem write_missing {h : HangWatch} (hu : Unwatched h) (real : Int64)
    (ok : Bool) : (h.write real ok).mtimes h.watches = none := by
  unfold HangWatch.write
  split
  next path hpath =>
    have hne : h.watches ≠ path := by
      intro heq
      exact hu.writes (heq ▸ hpath)
    exact (Function.update_of_ne hne ..).trans hu.missing
  next => exact hu.missing

theorem Unwatched.step {h : HangWatch} (hu : Unwatched h) (e : WatchEvent) :
    Unwatched (h.step e) := by
  have hwrites : ∀ real ok, (h.write real ok).writes = h.writes
      ∧ (h.write real ok).watches = h.watches
      ∧ (h.write real ok).child = h.child := by
    intro real ok
    unfold HangWatch.write
    split
    · exact ⟨rfl, rfl, rfl⟩
    · exact ⟨rfl, rfl, rfl⟩
  cases e with
  | boot now real ok =>
      obtain ⟨hw, hs, hc⟩ := hwrites real ok
      unfold HangWatch.step
      dsimp only
      split
      · exact ⟨hc ▸ hu.worker, by rw [hw, hs]; exact hu.writes,
          by rw [hs]; exact write_missing hu real ok⟩
      · exact hu
  | turn now real ok =>
      obtain ⟨hw, hs, hc⟩ := hwrites real ok
      unfold HangWatch.step HangWatch.beat
      dsimp only
      split
      · split
        · exact ⟨hc ▸ hu.worker, by rw [hw, hs]; exact hu.writes,
            by rw [hs]; exact write_missing hu real ok⟩
        · exact ⟨hu.worker, hu.writes, hu.missing⟩
      · exact hu
  | exits => exact ⟨hu.worker, hu.writes, hu.missing⟩
  | tick now real spawn =>
      have hcase := monitor_case h.child now (h.answer real spawn)
      unfold HangWatch.step HangWatch.monitored
      dsimp only
      generalize h.child.monitor now (h.answer real spawn) = out at hcase ⊢
      cases hcase with
      | absent hp => exact ⟨hu.worker, hu.writes, hu.missing⟩
      | running hp halive hfresh => exact ⟨hu.worker, hu.writes, hu.missing⟩
      | suspended hp hsusp => exact ⟨hu.worker, hu.writes, hu.missing⟩
      | exceeded hdue hatt => exact ⟨hu.worker, hu.writes, hu.missing⟩
      | restarted hdue hatt hnew => exact ⟨hu.worker, hu.writes, hu.missing⟩
      | spawnFailed w hdue hatt hfail =>
          exact ⟨hu.worker, hu.writes, hu.missing⟩
  | suspended => exact ⟨hu.worker, hu.writes, hu.missing⟩
  | resumed now => exact ⟨hu.worker, hu.writes, hu.missing⟩

/-- A worker whose configured name has 62 characters or more writes its
heartbeat to a file that the supervisor never looks at. However well it
runs, every tick past the grace period finds it hung. -/
theorem unwatched_hung (w : StartWorld) (sl : ProviderSlot) (isB : Bool)
    (hlong : 62 ≤ (cString sl.ref.workerName).length)
    (mtimes : List UInt8 → Option Int64) (t₀ : Int64)
    (hnone : mtimes (w.watchedFile sl isB) = none) (es : List WatchEvent) :
    let h := run HangWatch.step
      (HangWatch.spawned (workerName sl isB) (w.pidFile sl isB)
        (w.watchedFile sl isB) mtimes t₀) es
    ∀ now real spawn, h.live = true →
      4000000000 < now - h.child.windowStartNs →
      (h.monitored now real spawn).2 ≠ .running := by
  intro h now real spawn hlive hgrace hrunning
  have hwrites : w.pidFile sl isB ≠ some (w.watchedFile sl isB) := by
    intro heq
    obtain ⟨-, hshort⟩ := (pidFile_eq_watchedFile w sl isB).mp heq
    omega
  have hu : Unwatched h :=
    run_inv (P := Unwatched) (fun s e hs => hs.step e)
      ⟨rfl, hwrites, hnone⟩ es
  have hhung : h.child.hung now (h.answer real spawn) = true := by
    refine hung_iff.mpr ⟨hu.worker, hgrace, .inl ?_⟩
    show osalFileMtimeNs (h.mtimes h.watches) < 0
    rw [hu.missing]
    decide
  have hfresh := (monitor_running_iff hlive).mp hrunning
  rw [hhung] at hfresh
  cases hfresh

/-- The same worker, with a name of 64 characters that does not end in its
array. -/
def longSlot : ProviderSlot :=
  { gpsSlot with
    ref := { gpsSlot.ref with workerName := Vector.replicate 64 103 } }

def longWatch : HangWatch :=
  run HangWatch.step (HangWatch.spawned (workerName longSlot false)
    (servedWorld.pidFile longSlot false)
    (servedWorld.watchedFile longSlot false) (fun _ => none) 1000000000)
    (gpsTurns ++ [.turn 5000000000 12000000000 true])

theorem unwatched_hung_long :
    (longWatch.monitored 5000000001 12000000001 none).2 ≠ .running := by
  have hall := unwatched_hung servedWorld longSlot false (by decide +kernel)
    (fun _ => none) 1000000000 rfl
    (gpsTurns ++ [.turn 5000000000 12000000000 true])
  exact hall 5000000001 12000000001 none (by decide +kernel)
    (by decide +kernel)

end Obicall
