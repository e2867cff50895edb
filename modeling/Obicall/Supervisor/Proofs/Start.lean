/-
A start gives up for what it meets outside, and for nothing else.

The table has room for every plan, no command line is longer than the array
it is kept in, and no manifest's path is too long when the strings of the
configuration end in their arrays: `supervisor_start` then returns 0
exactly when the journal and the gate report their ports, every spawn
succeeds, and there is a Python where a provider needs one (`start_exact`).
Where it gives up, the children it leaves behind are the first ones of the
plan.
-/
import Obicall.Common.Print
import Obicall.Supervisor.Proofs.Settings
import Obicall.Supervisor.Start

namespace Obicall

open Lib.Options Lib.Overlay

variable {F : Type}

-- =================================================================== limits

theorem length_cut_le (cap : Nat) (text : List UInt8) :
    (cut cap text).length ≤ cap - 1 := by
  unfold cut
  rw [List.length_take]
  exact Nat.min_le_left ..

/-- The path of a provider's manifest. -/
def StartWorld.manifestOf (w : StartWorld) (cfg : PipelineConfig F)
    (pr : ProviderRef) : List UInt8 :=
  resolvedManifestsDir w.configPath cfg w.behindManifestsDir ++ ascii "/"
    ++ cString pr.manifest

/-- The resolved directory and a manifest's name make a path that fits. -/
theorem manifestPath_setup (w : StartWorld) (cfg : PipelineConfig F)
    (jport gport : UInt16) {sl : ProviderSlot} (h : 0 ∈ sl.ref.manifest) :
    manifestPath (w.setup cfg jport gport) sl
      = some (w.manifestOf cfg sl.ref) := by
  have hdir := length_cut_le 512 (cut 1024 (dirnameOf w.configPath 512
    ++ ascii "/" ++ textIn cfg.manifestsDir w.behindManifestsDir))
  have hname := length_cString_le sl.ref.manifest
  unfold manifestPath
  rw [textIn_of_mem h]
  apply if_neg
  show ¬ (w.manifestOf cfg sl.ref).length ≥ 1200
  unfold StartWorld.manifestOf resolvedManifestsDir
  rw [List.length_append, List.length_append,
    show (ascii "/").length = 1 from rfl]
  omega

theorem mem_slots {w : StartWorld} {cfg : PipelineConfig F}
    {sl : ProviderSlot} (h : sl ∈ w.slots cfg) :
    sl.ref ∈ cfg.providers.val := by
  obtain ⟨p, hp, rfl⟩ := List.mem_map.mp h
  exact List.fst_mem_of_mem_zipIdx hp

theorem map_ref_slots (w : StartWorld) (cfg : PipelineConfig F) :
    (w.slots cfg).map ProviderSlot.ref = cfg.providers.val := by
  unfold StartWorld.slots
  rw [List.map_map]
  exact List.zipIdx_map_fst ..

/-- A child that is kept whole, apart from the ends of long names. -/
theorem kept_argv {im : ChildImage} (h : im.argv.length < supervisorMaxArgv) :
    im.kept.argv = im.argv :=
  List.take_of_length_le (by omega)

-- =============================================================== one launch

/-- The table and what is kept beside it are about the same children. -/
def Launched.Matched (l : Launched) : Prop :=
  l.sv.val.map (fun c => (c.name, c.isWorker))
    = l.kept.map fun im => (im.name, im.isWorker)

variable {l : Launched} {im : ChildImage} {t : Option Int64}
  {h : l.sv.val.length < supervisorMaxChildren}

theorem fst_add : (l.add im t h).1 = t.isSome := by
  cases t with
  | none => rfl
  | some t => rfl

theorem length_add :
    (l.add im t h).2.sv.val.length = l.sv.val.length + 1 := by
  show (_ ++ [_]).length = _
  rw [List.length_append, List.length_singleton]

theorem matched_add (hl : l.Matched) : (l.add im t h).2.Matched := by
  have hnew : ((spawnChild ⟨im.kept.name, none, 0, 0, im.isWorker, false⟩
      t).2.name, (spawnChild ⟨im.kept.name, none, 0, 0, im.isWorker, false⟩
      t).2.isWorker) = (im.kept.name, im.kept.isWorker) := by
    cases t with
    | none => rfl
    | some t => rfl
  unfold Launched.Matched at hl ⊢
  show (l.sv.val ++ [_]).map _ = (l.kept ++ [im.kept]).map _
  rw [List.map_append, List.map_append, hl, List.map_singleton,
    List.map_singleton, hnew]

-- =============================================================== all of them

variable (spawned : Nat → Option Int64)

/-- What a launch adds are the first children of the plan, and all of them
where it comes through. -/
theorem launch_kept {ims : List (Option ChildImage)} {l : Launched}
    (hroom : l.sv.val.length + ims.length ≤ supervisorMaxChildren)
    (hl : l.Matched) :
    (launch spawned ims l).2.Matched
    ∧ ∃ xs : List ChildImage, xs.map some <+: ims
      ∧ (launch spawned ims l).2.kept = l.kept ++ xs.map ChildImage.kept
      ∧ ((launch spawned ims l).1 = true → xs.map some = ims) := by
  induction ims generalizing l with
  | nil =>
      refine ⟨hl, [], List.nil_prefix, ?_, fun _ => rfl⟩
      exact (List.append_nil _).symm
  | cons im ims ih =>
      rw [List.length_cons] at hroom
      cases im with
      | none =>
          refine ⟨hl, [], List.nil_prefix, (List.append_nil _).symm, ?_⟩
          intro hok
          cases hok
      | some im =>
          have h : l.sv.val.length < supervisorMaxChildren := by omega
          have hadd : (l.add im (spawned l.sv.val.length) h).2.Matched :=
            matched_add hl
          obtain ⟨hmatch, xs, hxs, hkept, hall⟩ :=
            ih (by rw [length_add]; omega) hadd
          rw [launch, dif_pos h]
          dsimp only
          split
          · refine ⟨hmatch, im :: xs, ?_, ?_, ?_⟩
            · exact (List.prefix_cons_inj _).mpr hxs
            · rw [hkept, List.map_cons, List.append_cons]
              rfl
            · intro hok
              rw [List.map_cons, hall hok]
          · refine ⟨hadd, [im], ?_, rfl, ?_⟩
            · exact (List.prefix_cons_inj _).mpr List.nil_prefix
            · intro hok
              exact absurd hok ‹_›

/-- A launch comes through when every child is decided on and spawned. -/
theorem launch_ok_iff {ims : List (Option ChildImage)} {l : Launched}
    (hroom : l.sv.val.length + ims.length ≤ supervisorMaxChildren) :
    (launch spawned ims l).1 = true
      ↔ (∀ im ∈ ims, im.isSome = true)
        ∧ ∀ k < ims.length,
          (spawned (l.sv.val.length + k)).isSome = true := by
  induction ims generalizing l with
  | nil => exact iff_of_true rfl ⟨by simp, by simp⟩
  | cons im ims ih =>
      rw [List.length_cons] at hroom
      cases im with
      | none =>
          rw [launch]
          exact iff_of_false (by simp) fun h => by
            simpa using h.1 none List.mem_cons_self
      | some im =>
          have h : l.sv.val.length < supervisorMaxChildren := by omega
          rw [launch, dif_pos h, List.forall_mem_cons]
          dsimp only
          rw [fst_add]
          cases hspawn : spawned l.sv.val.length with
          | none =>
              rw [if_neg (by exact Bool.false_ne_true), fst_add]
              refine iff_of_false (by simp) ?_
              rintro ⟨-, hall⟩
              have hfirst := hall 0 (by simp)
              rw [Nat.add_zero, hspawn] at hfirst
              cases hfirst
          | some t =>
              rw [if_pos (by rfl), ih (by rw [length_add]; omega), length_add]
              constructor
              · rintro ⟨hims, hall⟩
                refine ⟨⟨rfl, hims⟩, ?_⟩
                intro k hk
                cases k with
                | zero => rw [Nat.add_zero, hspawn]; rfl
                | succ k =>
                    rw [List.length_cons] at hk
                    rw [Nat.add_comm k, ← Nat.add_assoc]
                    exact hall k (by omega)
              · rintro ⟨⟨-, hims⟩, hall⟩
                refine ⟨hims, ?_⟩
                intro k hk
                rw [Nat.add_assoc, Nat.add_comm 1]
                exact hall (k + 1) (by rw [List.length_cons]; omega)

-- ================================================================== the plan

/-- The names and kinds of the children, in the order of their starts. -/
def plan (cfg : PipelineConfig F) : List (List UInt8 × Bool) :=
  let workers (isB : Bool) := cfg.providers.val.map fun pr =>
    (cut 64 (pr.fullName isB), true)
  (ascii "journal", false) :: (ascii "gate", false)
    :: ((brokerName false, false) :: workers false
      ++ (brokerName true, false) :: workers true)

/-- What a start depends on, once its configuration is loaded. -/
structure StartWorld.Serves [DoubleArith F] [DoubleText F] (w : StartWorld)
    (cfg : PipelineConfig F) : Prop where
  journalPort : w.journalPort.isSome = true
  gatePort : w.gatePort.isSome = true
  python : ∀ pr ∈ cfg.providers.val,
    providerManifestLanguage F (w.manifests (w.manifestOf cfg pr))
      = langPython → w.pythonExe.isSome = true
  spawned : ∀ k < 4 + 2 * cfg.providers.val.length,
    (w.spawned k).isSome = true

def ChildImage.key (im : ChildImage) : List UInt8 × Bool :=
  (im.kept.name, im.kept.isWorker)

/-- The first children of the list are the first ones of `ps`. -/
def Follows (ims : List (Option ChildImage)) (ps : List (List UInt8 × Bool)) :
    Prop :=
  ∀ xs : List ChildImage, xs.map some <+: ims → xs.map ChildImage.key <+: ps

theorem follows_stop (ims : List (Option ChildImage))
    (ps : List (List UInt8 × Bool)) : Follows (none :: ims) ps := by
  intro xs hxs
  cases xs with
  | nil => exact List.nil_prefix
  | cons x xs =>
      rw [List.map_cons, List.cons_prefix_cons] at hxs
      cases hxs.1

theorem follows_some {im : ChildImage} {ims : List (Option ChildImage)}
    {p : List UInt8 × Bool} {ps : List (List UInt8 × Bool)}
    (h : im.key = p) (hrest : Follows ims ps) :
    Follows (some im :: ims) (p :: ps) := by
  intro xs hxs
  cases xs with
  | nil => exact List.nil_prefix
  | cons x xs =>
      rw [List.map_cons, List.cons_prefix_cons] at hxs
      obtain rfl := Option.some.inj hxs.1
      rw [List.map_cons, h]
      exact (List.prefix_cons_inj _).mpr (hrest xs hxs.2)

theorem follows_map {α : Type} {as : List α} {f : α → Option ChildImage}
    {g : α → List UInt8 × Bool}
    (h : ∀ a ∈ as, ∀ im, f a = some im → im.key = g a)
    {ims : List (Option ChildImage)} {ps : List (List UInt8 × Bool)}
    (hrest : Follows ims ps) : Follows (as.map f ++ ims) (as.map g ++ ps) := by
  induction as with
  | nil => exact hrest
  | cons a as ih =>
      rw [List.forall_mem_cons] at h
      rw [List.map_cons, List.map_cons, List.cons_append, List.cons_append]
      cases ha : f a with
      | none => exact follows_stop _ _
      | some im => exact follows_some (h.1 im ha) (ih h.2)

variable [DoubleArith F] [DoubleText F]

/-- What a worker's image is, where there is one. -/
theorem workerImage_eq_some {w : StartWorld} {su : RunSetup F} {isB : Bool}
    {sl : ProviderSlot} {im : ChildImage}
    (h : workerImage w su isB sl = some im) :
    im.name = workerName sl isB ∧ im.isWorker = true
    ∧ im.argv.length < supervisorMaxArgv := by
  unfold workerImage at h
  split at h
  · cases h
  · split at h
    · split at h
      · cases h
      · obtain rfl := Option.some.inj h
        refine ⟨rfl, rfl, ?_⟩
        show (pythonArgv ..).length < 40
        unfold pythonArgv workerOpts
        simp
    · obtain rfl := Option.some.inj h
      refine ⟨rfl, rfl, ?_⟩
      show (workerArgv ..).length < 40
      unfold workerArgv workerOpts
      simp

theorem workerImage_isSome_iff {w : StartWorld} {cfg : PipelineConfig F}
    {jport gport : UInt16} {isB : Bool} {sl : ProviderSlot}
    (h : 0 ∈ sl.ref.manifest) :
    (workerImage w (w.setup cfg jport gport) isB sl).isSome = true
      ↔ (providerManifestLanguage F (w.manifests (w.manifestOf cfg sl.ref))
        = langPython → w.pythonExe.isSome = true) := by
  unfold workerImage
  rw [manifestPath_setup w cfg jport gport h]
  dsimp only
  split
  · cases w.pythonExe with
    | none => exact iff_of_false (by simp) fun h => by simpa using h ‹_›
    | some python => exact iff_of_true rfl fun _ => rfl
  · exact iff_of_true rfl fun h => absurd h ‹_›

/-- The name and kind of a broker's workers in the plan. -/
theorem workerImage_key {w : StartWorld} {su : RunSetup F} {isB : Bool}
    {sl : ProviderSlot} (hterm : 0 ∈ sl.ref.workerName) {im : ChildImage}
    (h : workerImage w su isB sl = some im) :
    im.key = (cut 64 (sl.ref.fullName isB), true) := by
  obtain ⟨hname, hworker, -⟩ := workerImage_eq_some h
  unfold ChildImage.key ChildImage.kept
  rw [hname, hworker, workerName_eq hterm]

variable [DoublePrint F]

omit [DoubleArith F] [DoubleText F] in
theorem length_brokerArgv_lt (su : RunSetup F) (isB : Bool) :
    (brokerArgv su isB).length < supervisorMaxArgv := by
  have hopts : (brokerOpts su isB).length = 14 := rfl
  unfold brokerArgv
  rw [List.length_cons, List.length_append, length_spell, hopts]
  split
  · decide
  · decide

theorem follows_plan (w : StartWorld) {cfg : PipelineConfig F}
    (hterm : cfg.Terminated) : Follows (launches w cfg) (plan cfg) := by
  have hbroker : ∀ (su : RunSetup F) isB,
      (brokerImage su isB).key = (brokerName isB, false) := by
    intro su isB
    cases isB with
    | true => rfl
    | false => rfl
  have hworkers : ∀ (su : RunSetup F) isB {ims ps}, Follows ims ps →
      Follows ((w.slots cfg).map (workerImage w su isB) ++ ims)
        (cfg.providers.val.map (fun pr => (cut 64 (pr.fullName isB), true))
          ++ ps) := by
    intro su isB ims ps hrest
    rw [← map_ref_slots w cfg, List.map_map]
    apply follows_map _ hrest
    intro sl hsl im
    exact workerImage_key (hterm.providers _ (mem_slots hsl)).2
  have hend : Follows [] [] := by
    intro xs hxs
    rw [List.map_eq_nil_iff.mp (List.prefix_nil.mp hxs)]
    exact List.nil_prefix
  unfold launches plan
  apply follows_some rfl
  cases w.journalPort with
  | none => exact follows_stop _ _
  | some jport =>
      apply follows_some rfl
      cases w.gatePort with
      | none => exact follows_stop _ _
      | some gport =>
          have hlast := hworkers (w.setup cfg jport gport) true hend
          rw [List.append_nil, List.append_nil] at hlast
          unfold brokerLaunches
          apply follows_some (hbroker _ _)
          apply hworkers
          exact follows_some (hbroker _ _) hlast

/-- No child's arguments are cut. -/
theorem argv_of_mem_launches {w : StartWorld} {cfg : PipelineConfig F}
    {im : ChildImage} (h : some im ∈ launches w cfg) :
    im.argv.length < supervisorMaxArgv := by
  have hone : ∀ (su : RunSetup F) isB, some im ∈ brokerLaunches w su isB →
      im.argv.length < supervisorMaxArgv := by
    intro su isB hmem
    rcases List.mem_cons.mp hmem with hbroker | hworker
    · obtain rfl := Option.some.inj hbroker
      exact length_brokerArgv_lt su isB
    · obtain ⟨pr, -, hpr⟩ := List.mem_map.mp hworker
      exact (workerImage_eq_some hpr).2.2
  unfold launches at h
  rcases List.mem_cons.mp h with hjournal | h
  · obtain rfl := Option.some.inj hjournal
    show 15 < 40
    decide
  split at h
  · cases List.mem_singleton.mp h
  rcases List.mem_cons.mp h with hgate | h
  · obtain rfl := Option.some.inj hgate
    show 17 < 40
    decide
  split at h
  · cases List.mem_singleton.mp h
  rcases List.mem_append.mp h with hA | hB
  · exact hone _ _ hA
  · exact hone _ _ hB

theorem length_brokerLaunches (w : StartWorld) (cfg : PipelineConfig F)
    (jport gport : UInt16) (isB : Bool) :
    (brokerLaunches w (w.setup cfg jport gport) isB).length
      = cfg.providers.val.length + 1 := by
  unfold brokerLaunches
  rw [List.length_cons, List.length_map, ← map_ref_slots w cfg,
    List.length_map]
  rfl

theorem length_launches_le (w : StartWorld) (cfg : PipelineConfig F) :
    (launches w cfg).length ≤ 4 + 2 * cfg.providers.val.length := by
  unfold launches
  rw [List.length_cons]
  split
  · rw [List.length_singleton]
    omega
  · rw [List.length_cons]
    split
    · rw [List.length_singleton]
      omega
    · rw [List.length_append, length_brokerLaunches, length_brokerLaunches]
      omega

/-- Everything that is asked for is there exactly when the world serves the
configuration. -/
theorem serves_iff (w : StartWorld) {cfg : PipelineConfig F}
    (hterm : cfg.Terminated) :
    ((∀ im ∈ launches w cfg, im.isSome = true)
      ∧ ∀ k < (launches w cfg).length, (w.spawned k).isSome = true)
      ↔ w.Serves cfg := by
  unfold launches
  cases hj : w.journalPort with
  | none =>
      refine iff_of_false ?_ fun h => by simpa [hj] using h.journalPort
      rintro ⟨hall, -⟩
      simpa using hall none (by simp)
  | some jport =>
      cases hg : w.gatePort with
      | none =>
          refine iff_of_false ?_ fun h => by simpa [hg] using h.gatePort
          rintro ⟨hall, -⟩
          simpa using hall none (by simp)
      | some gport =>
          have hlen : (some (journalImage (w.setup cfg 0 0))
              :: some (gateImage (w.setup cfg jport 0))
              :: (brokerLaunches w (w.setup cfg jport gport) false
                ++ brokerLaunches w (w.setup cfg jport gport) true)).length
              = 4 + 2 * cfg.providers.val.length := by
            rw [List.length_cons, List.length_cons, List.length_append,
              length_brokerLaunches, length_brokerLaunches]
            omega
          have hworkers : ∀ isB,
              (∀ im ∈ brokerLaunches w (w.setup cfg jport gport) isB,
                im.isSome = true)
              ↔ ∀ pr ∈ cfg.providers.val,
                providerManifestLanguage F
                  (w.manifests (w.manifestOf cfg pr)) = langPython →
                w.pythonExe.isSome = true := by
            intro isB
            unfold brokerLaunches
            rw [List.forall_mem_cons, Option.isSome_some,
              and_iff_right rfl, List.forall_mem_map, ← map_ref_slots w cfg,
              List.forall_mem_map]
            exact forall₂_congr fun sl hsl => workerImage_isSome_iff
              (hterm.providers _ (mem_slots hsl)).1
          dsimp only
          rw [hlen, List.forall_mem_cons, List.forall_mem_cons,
            Option.isSome_some, Option.isSome_some, and_iff_right rfl,
            and_iff_right rfl, List.forall_mem_append,
            hworkers, hworkers, and_self_iff]
          exact ⟨fun h => ⟨by rw [hj]; rfl, by rw [hg]; rfl, h.1, h.2⟩,
            fun h => ⟨h.python, h.spawned⟩⟩

theorem length_launches {w : StartWorld} {cfg : PipelineConfig F}
    (h : w.Serves cfg) : (launches w cfg).length = (plan cfg).length := by
  obtain ⟨jport, hj⟩ := Option.isSome_iff_exists.mp h.journalPort
  obtain ⟨gport, hg⟩ := Option.isSome_iff_exists.mp h.gatePort
  unfold launches plan
  rw [hj, hg]
  dsimp only
  rw [List.length_cons, List.length_cons, List.length_append,
    length_brokerLaunches, length_brokerLaunches, List.length_cons,
    List.length_cons, List.length_append, List.length_cons, List.length_cons,
    List.length_map, List.length_map]

/-- Once its configuration is loaded, and if the strings of it end in their
arrays, `supervisor_start` comes through exactly when its surroundings
serve it. Its children are then those of the plan, and otherwise the first
of them; none of their command lines is cut. -/
theorem start_exact {w : StartWorld} {cfg : PipelineConfig F}
    (hcfg : pipelineConfigLoad w.configFile = .loaded cfg)
    (hterm : cfg.Terminated) :
    ∃ ok l, supervisorStartIn F w = some (ok, l)
      ∧ (ok = true ↔ w.Serves cfg)
      ∧ l.sv.val.map (fun c => (c.name, c.isWorker)) <+: plan cfg
      ∧ (ok = true →
        l.sv.val.map (fun c => (c.name, c.isWorker)) = plan cfg)
      ∧ ∀ c ∈ l.kept, ∃ im, some im ∈ launches w cfg ∧ c = im.kept
        ∧ c.argv = im.argv := by
  have hroom : (Launched.empty).sv.val.length + (launches w cfg).length
      ≤ supervisorMaxChildren := by
    have hlen := length_launches_le w cfg
    have hprs : _ ≤ 8 := cfg.providers.property
    show 0 + _ ≤ 32
    omega
  obtain ⟨hmatch, xs, hxs, hkept, hall⟩ :=
    launch_kept w.spawned hroom rfl
  have hok := launch_ok_iff w.spawned hroom
  unfold supervisorStartIn
  rw [hcfg]
  dsimp only
  generalize launch w.spawned (launches w cfg) .empty = out at *
  replace hok : out.1 = true ↔ w.Serves cfg := by
    rw [hok, ← serves_iff w hterm]
    show _ ∧ (∀ k < _, (w.spawned (0 + k)).isSome = true) ↔ _
    simp only [Nat.zero_add]
  have hsv : out.2.sv.val.map (fun c => (c.name, c.isWorker))
      = xs.map ChildImage.key := by
    rw [hmatch, hkept]
    exact List.map_map ..
  refine ⟨out.1, out.2, rfl, hok, ?_, ?_, ?_⟩
  · rw [hsv]
    exact follows_plan w hterm xs hxs
  · intro htrue
    rw [hsv]
    apply (follows_plan w hterm xs hxs).eq_of_length
    rw [← length_launches (hok.mp htrue), ← hall htrue, List.length_map,
      List.length_map]
  · intro c hc
    rw [hkept] at hc
    obtain ⟨im, him, rfl⟩ := List.mem_map.mp hc
    have hmem : some im ∈ launches w cfg :=
      hxs.subset (List.mem_map.mpr ⟨im, him, rfl⟩)
    exact ⟨im, hmem, rfl, kept_argv (argv_of_mem_launches hmem)⟩

/-- A configuration with two providers. -/
def pairText : List UInt8 :=
  ascii "\x7b\"providers\":["
  ++ ascii "\x7b\"manifest\":\"gps.json\",\"worker_name\":\"gps\"\x7d,"
  ++ ascii "\x7b\"manifest\":\"imu.json\",\"worker_name\":\"imu\"\x7d]\x7d"

/-- A manifest in a language. -/
def manifestText (language : String) : List UInt8 :=
  ascii "\x7b\"schema_version\":1,\"name\":\"p\",\"language\":\""
  ++ ascii language ++ ascii "\",\"artifact_path\":\"p\"\x7d"

/-- The second provider is in Python, and everything is as it should be. -/
def servedWorld : StartWorld where
  configPath := ascii "run/pipeline.json"
  runtimeDir := ascii "/tmp/run"
  binDir := ascii "/opt/bin"
  configFile := some pairText
  behindManifestsDir := [8]
  behindProvider _ := [1]
  token := Vector.replicate 32 7
  spawned _ := some 5
  journalPort := some 4001
  gatePort := some 4002
  manifests path :=
    if path = ascii "run/providers/imu.json" then some (manifestText "python")
    else some (manifestText "c")
  pythonExe := some (ascii "/usr/bin/python3")
  scriptPath := ascii "/opt/share/obicall/python/obicall/provider_worker.py"
  coreLibPath := ascii "/opt/lib/libobicall.so"

/-- What is loaded of the configuration. -/
def pairConfig : PipelineConfig Binary64 := loadFields pairText (zeroBytes 256)

theorem pairConfig_loaded :
    pipelineConfigLoad servedWorld.configFile = .loaded pairConfig := by
  have hversion : schemaVersionAccepted Binary64 pairText = true := by
    decide +kernel
  have hids : loadSensorIds pairText = some (zeroBytes 256) := by
    have hnone : plainText pairText (ascii "sensor_ids") = none := by
      decide +kernel
    unfold loadSensorIds
    rw [hnone]
  have hsize : ¬ 65536 < pairText.length := by decide +kernel
  show pipelineConfigLoad (some pairText) = _
  simp only [pipelineConfigLoad, if_neg hsize, hversion, hids, Bool.not_true,
    Bool.false_eq_true, if_false]
  rfl

theorem pairConfig_terminated : pairConfig.Terminated := by
  refine (config_terminated_iff pairConfig_loaded).mpr ⟨?_, ?_, ?_⟩
  · exact keyLeavesNul_of_none (by decide +kernel)
  · exact keyLeavesNul_of_none (by decide +kernel)
  · have hnames : ∀ slot ∈ providerSlots pairText,
        newest 0 (slot.map (entryBytes (ascii "manifest"))) 8 = 0
          ∧ newest 0 (slot.map (entryBytes (ascii "worker_name"))) 3 = 0 := by
      decide +kernel
    intro slot hslot
    obtain ⟨hmanifest, hworker⟩ := hnames slot hslot
    exact ⟨⟨8, by decide, hmanifest⟩, ⟨3, by decide, hworker⟩⟩

theorem start_exact_served :
    ∃ l, supervisorStartIn Binary64 servedWorld = some (true, l)
      ∧ l.sv.val.map (fun c => (c.name, c.isWorker))
        = [(ascii "journal", false), (ascii "gate", false),
          (ascii "broker_A", false), (ascii "gps_A", true),
          (ascii "imu_A", true), (ascii "broker_B", false),
          (ascii "gps_B", true), (ascii "imu_B", true)]
      ∧ pairConfig.providers.val.map (fun pr => providerManifestLanguage
          Binary64 (servedWorld.manifests
            (servedWorld.manifestOf pairConfig pr)))
        = [langC, langPython] := by
  have hserves : servedWorld.Serves pairConfig :=
    ⟨rfl, rfl, fun _ _ _ => rfl, fun _ _ => rfl⟩
  obtain ⟨ok, l, hstart, hok, -, hplan, -⟩ :=
    start_exact pairConfig_loaded pairConfig_terminated
  obtain rfl := hok.mpr hserves
  refine ⟨l, hstart, (hplan rfl).trans ?_, ?_⟩
  · decide +kernel
  · decide +kernel

end Obicall
