/-
Replacing a file as a whole: the new content goes to a temporary file
beside it, is synced, and takes over the name; a sync of the directory
makes the new name last.

# The model

A `Disk` is a directory with two names and the files there are, each with
its content and whether that is synced. A running program sees the names
as they are now; a power failure brings the directory back as it was at
some moment since its last sync (`past`, this moment included), and of a
file that is not synced it leaves anything at all (`powerLoss`).

# The rules

- `Sound P`: in every version of the directory that may come back, the
  final name leads to a synced file whose content meets `P`, and not to
  the temporary file. `sound_publish` and `sound_powerLoss` keep it, so
  what is read under the final name always was published as a whole.
- `read_publish`: a publication is seen exactly when it got as far as the
  rename.
- `Steady`: all versions lead to the same file. `steady_publish` keeps it
  unless the rename is the last thing that happens; while it holds a power
  failure changes nothing (`read_powerLoss`), and one in the middle of a
  publication leaves the old content or the new (`read_cutOff`).
-/
import Mathlib.Data.List.Basic

namespace Lib.Publish

-- ================================================================ the disk

/-- A file: its content, and whether that is on the platter. -/
structure File where
  bytes : List UInt8
  synced : Bool
  deriving DecidableEq

/-- A version of the directory: the files its two names lead to. -/
structure Names where
  final : Option Nat
  tmp : Option Nat
  deriving DecidableEq

structure Disk where
  files : List File
  names : Names
  /-- the versions a power failure may bring back -/
  past : List Names
  deriving DecidableEq

/-- How far a publication gets. -/
inductive Reach where
  /-- the temporary file did not open -/
  | unopened
  /-- something else than the whole content was written, or not synced -/
  | wrote (part : List UInt8)
  | synced
  | renamed
  /-- the directory is synced too -/
  | settled
  deriving DecidableEq

/-- The publisher may take its file for published. -/
def Reach.ok : Reach → Bool
  | .renamed | .settled => true
  | _ => false

namespace Disk

/-- A directory with neither name. -/
def empty : Disk where
  files := []
  names := ⟨none, none⟩
  past := [⟨none, none⟩]

/-- What is read under the final name in a version of the directory. -/
def readIn (d : Disk) (p : Names) : Option (List UInt8) :=
  p.final.bind fun i => d.files[i]?.map File.bytes

def read (d : Disk) : Option (List UInt8) := d.readIn d.names

/-- The directory changes. -/
def setNames (d : Disk) (p : Names) : Disk :=
  { d with names := p, past := p :: d.past }

/-- The temporary file changes. -/
def onTmp (d : Disk) (g : File → File) : Disk :=
  match d.names.tmp with
  | some i => { d with files := d.files.modify i g }
  | none => d

/-- Open the temporary file for writing: created, or emptied. -/
def openTmp (d : Disk) : Disk :=
  match d.names.tmp with
  | some _ => d.onTmp fun _ => ⟨[], false⟩
  | none =>
      let created : Disk := { d with files := d.files ++ [⟨[], false⟩] }
      created.setNames ⟨d.names.final, some d.files.length⟩

def writeTmp (d : Disk) (bytes : List UInt8) : Disk :=
  d.onTmp fun f => ⟨f.bytes ++ bytes, false⟩

def syncTmp (d : Disk) : Disk := d.onTmp fun f => { f with synced := true }

/-- The temporary file takes over the final name. -/
def renameTmp (d : Disk) : Disk :=
  match d.names.tmp with
  | some i => d.setNames ⟨some i, none⟩
  | none => d

def syncDir (d : Disk) : Disk := { d with past := [d.names] }

/-- The temporary file with the content to be published. -/
def stage (d : Disk) (bytes : List UInt8) : Disk :=
  (d.openTmp.writeTmp bytes).syncTmp

/-- A publication that gets as far as `reach`. -/
def publish (d : Disk) (bytes : List UInt8) : Reach → Disk
  | .unopened => d
  | .wrote part => d.openTmp.writeTmp part
  | .synced => d.stage bytes
  | .renamed => (d.stage bytes).renameTmp
  | .settled => (d.stage bytes).renameTmp.syncDir

/-- After a power failure: the `k`th version of the directory, the newest
first, and anything in the files that were not synced. -/
def powerLoss (d : Disk) (k : Nat) (torn : Nat → List UInt8) : Disk :=
  let names := d.past.getD k d.names
  { files := d.files.mapIdx fun i f => if f.synced then f else ⟨torn i, true⟩
    names
    past := [names] }

variable {d : Disk} {P Q : List UInt8 → Prop}

-- ========================================================== the invariant

/-- The final name leads to a synced file that meets `P`, whatever comes
back, and the temporary file is another. -/
structure Sound (P : List UInt8 → Prop) (d : Disk) : Prop where
  current : d.names ∈ d.past
  finals : ∀ p ∈ d.past, ∀ i, p.final = some i →
    ∃ bytes, d.files[i]? = some ⟨bytes, true⟩ ∧ P bytes
  tmps : ∀ p ∈ d.past, ∀ i, p.tmp = some i → i < d.files.length
  apart : ∀ p ∈ d.past, ∀ i, p.tmp = some i → p.final ≠ some i
  spare : ∀ p ∈ d.past, ∀ i, d.names.tmp = some i → p.final ≠ some i

theorem sound_empty : Sound P empty where
  current := List.mem_singleton_self _
  finals p hp i hi := by
    rw [List.mem_singleton.mp hp] at hi
    cases hi
  tmps p hp i hi := by
    rw [List.mem_singleton.mp hp] at hi
    cases hi
  apart p hp i hi := by
    rw [List.mem_singleton.mp hp] at hi
    cases hi
  spare p hp i hi := by cases hi

theorem Sound.mono (h : Sound P d) (hPQ : ∀ bytes, P bytes → Q bytes) :
    Sound Q d :=
  { h with
    finals := fun p hp i hi => by
      obtain ⟨bytes, hfile, hP⟩ := h.finals p hp i hi
      exact ⟨bytes, hfile, hPQ bytes hP⟩ }

/-- What is read in any version was published as a whole. -/
theorem Sound.readIn (h : Sound P d) {p : Names} (hp : p ∈ d.past)
    {bytes : List UInt8} (hread : d.readIn p = some bytes) : P bytes := by
  unfold Disk.readIn at hread
  obtain ⟨i, hi, hread⟩ := Option.bind_eq_some_iff.mp hread
  obtain ⟨bytes', hfile, hP⟩ := h.finals p hp i hi
  rw [hfile] at hread
  cases hread
  exact hP

theorem Sound.read (h : Sound P d) {bytes : List UInt8}
    (hread : d.read = some bytes) : P bytes :=
  h.readIn h.current hread

-- ================================================= the temporary file only

theorem onTmp_none {g : File → File} (h : d.names.tmp = none) :
    d.onTmp g = d := by
  unfold onTmp
  rw [h]

theorem onTmp_some {g : File → File} {i : Nat} (h : d.names.tmp = some i) :
    d.onTmp g = { d with files := d.files.modify i g } := by
  unfold onTmp
  rw [h]

@[simp] theorem names_onTmp (d : Disk) (g : File → File) :
    (d.onTmp g).names = d.names := by
  cases h : d.names.tmp with
  | none => rw [onTmp_none h]
  | some i => rw [onTmp_some h]

@[simp] theorem past_onTmp (d : Disk) (g : File → File) :
    (d.onTmp g).past = d.past := by
  cases h : d.names.tmp with
  | none => rw [onTmp_none h]
  | some i => rw [onTmp_some h]

@[simp] theorem length_onTmp (d : Disk) (g : File → File) :
    (d.onTmp g).files.length = d.files.length := by
  cases h : d.names.tmp with
  | none => rw [onTmp_none h]
  | some i =>
      rw [onTmp_some h]
      exact List.length_modify ..

/-- A file that is not the temporary one does not change with it. -/
theorem getElem?_onTmp (g : File → File) {i : Nat}
    (hi : d.names.tmp ≠ some i) : (d.onTmp g).files[i]? = d.files[i]? := by
  cases h : d.names.tmp with
  | none => rw [onTmp_none h]
  | some j =>
      rw [onTmp_some h]
      have hne : j ≠ i := fun he => hi (h.trans (congrArg some he))
      exact List.getElem?_modify_ne g _ hne

theorem sound_onTmp (h : Sound P d) (g : File → File) :
    Sound P (d.onTmp g) where
  current := by
    rw [names_onTmp, past_onTmp]
    exact h.current
  finals p hp i hi := by
    rw [past_onTmp] at hp
    have hne : d.names.tmp ≠ some i := fun he => h.spare p hp i he hi
    rw [getElem?_onTmp g hne]
    exact h.finals p hp i hi
  tmps p hp i hi := by
    rw [past_onTmp] at hp
    rw [length_onTmp]
    exact h.tmps p hp i hi
  apart p hp := by
    rw [past_onTmp] at hp
    exact h.apart p hp
  spare p hp := by
    rw [past_onTmp] at hp
    rw [names_onTmp]
    exact h.spare p hp

theorem readIn_onTmp (h : Sound P d) (g : File → File) {p : Names}
    (hp : p ∈ d.past) : (d.onTmp g).readIn p = d.readIn p := by
  unfold readIn
  cases hf : p.final with
  | none => rfl
  | some i =>
      have hne : d.names.tmp ≠ some i := fun he => h.spare p hp i he hf
      show Option.map _ _ = Option.map _ _
      rw [getElem?_onTmp g hne]

-- ================================================================= opening

theorem openTmp_some {i : Nat} (h : d.names.tmp = some i) :
    d.openTmp = d.onTmp fun _ => ⟨[], false⟩ := by
  unfold openTmp
  rw [h]

theorem openTmp_none (h : d.names.tmp = none) :
    d.openTmp =
      { files := d.files ++ [⟨[], false⟩]
        names := ⟨d.names.final, some d.files.length⟩
        past := ⟨d.names.final, some d.files.length⟩ :: d.past } := by
  unfold openTmp
  rw [h]
  rfl

/-- A file the final name led to is where it was when one is created. -/
theorem Sound.getElem?_append (h : Sound P d) {p : Names} (hp : p ∈ d.past)
    {i : Nat} (hi : p.final = some i) (f : File) :
    i < d.files.length ∧ (d.files ++ [f])[i]? = d.files[i]? := by
  obtain ⟨bytes, hfile, -⟩ := h.finals p hp i hi
  have hlt := (List.getElem?_eq_some_iff.mp hfile).1
  exact ⟨hlt, List.getElem?_append_left hlt⟩

theorem sound_openTmp (h : Sound P d) : Sound P d.openTmp := by
  cases htmp : d.names.tmp with
  | some i =>
      rw [openTmp_some htmp]
      exact sound_onTmp h _
  | none =>
      rw [openTmp_none htmp]
      have hfinals : ∀ p ∈ ⟨d.names.final, some d.files.length⟩ :: d.past,
          ∃ q ∈ d.past, p.final = q.final := by
        intro p hp
        rcases List.mem_cons.mp hp with rfl | hp
        · exact ⟨d.names, h.current, rfl⟩
        · exact ⟨p, hp, rfl⟩
      have hlt : ∀ p ∈ ⟨d.names.final, some d.files.length⟩ :: d.past,
          ∀ i, p.final = some i → i < d.files.length := by
        intro p hp i hi
        obtain ⟨q, hq, he⟩ := hfinals p hp
        exact (h.getElem?_append hq (he ▸ hi) ⟨[], false⟩).1
      refine ⟨List.mem_cons_self, fun p hp i hi => ?_,
        fun p hp i hi => ?_, fun p hp i hi hf => ?_,
        fun p hp i hi hf => ?_⟩
      · obtain ⟨q, hq, he⟩ := hfinals p hp
        obtain ⟨bytes, hfile, hP⟩ := h.finals q hq i (he ▸ hi)
        refine ⟨bytes, ?_, hP⟩
        show (d.files ++ [_])[i]? = _
        rw [(h.getElem?_append hq (he ▸ hi) _).2, hfile]
      · show i < (d.files ++ [_]).length
        rw [List.length_append, List.length_singleton]
        rcases List.mem_cons.mp hp with rfl | hp
        · cases hi
          exact Nat.lt_succ_self _
        · exact Nat.lt_succ_of_lt (h.tmps p hp i hi)
      · rcases List.mem_cons.mp hp with rfl | hp
        · cases hi
          exact Nat.lt_irrefl _ (hlt _ List.mem_cons_self _ hf)
        · exact h.apart p hp i hi hf
      · cases hi
        exact Nat.lt_irrefl _ (hlt p hp _ hf)

theorem read_openTmp (h : Sound P d) : d.openTmp.read = d.read := by
  cases htmp : d.names.tmp with
  | some i =>
      rw [openTmp_some htmp]
      unfold Disk.read
      rw [names_onTmp]
      exact readIn_onTmp h _ h.current
  | none =>
      rw [openTmp_none htmp]
      show d.names.final.bind _ = d.names.final.bind _
      cases hf : d.names.final with
      | none => rfl
      | some i =>
          show Option.map _ (d.files ++ [_])[i]? = _
          rw [(h.getElem?_append h.current hf _).2]
          rfl

/-- The temporary name leads to the file `f`. -/
def HasTmp (d : Disk) (f : File) : Prop :=
  ∃ i, d.names.tmp = some i ∧ d.files[i]? = some f

theorem hasTmp_openTmp (h : Sound P d) : d.openTmp.HasTmp ⟨[], false⟩ := by
  cases htmp : d.names.tmp with
  | some i =>
      rw [openTmp_some htmp]
      refine ⟨i, by rw [names_onTmp, htmp], ?_⟩
      rw [onTmp_some htmp]
      have hlt := h.tmps _ h.current i htmp
      show (d.files.modify i _)[i]? = _
      rw [List.getElem?_modify_eq, List.getElem?_eq_getElem hlt]
      rfl
  | none =>
      rw [openTmp_none htmp]
      refine ⟨d.files.length, rfl, ?_⟩
      show (d.files ++ [_])[d.files.length]? = _
      exact List.getElem?_concat_length ..

theorem HasTmp.onTmp {f : File} (h : d.HasTmp f) (g : File → File) :
    (d.onTmp g).HasTmp (g f) := by
  obtain ⟨i, htmp, hfile⟩ := h
  refine ⟨i, by rw [names_onTmp, htmp], ?_⟩
  rw [onTmp_some htmp]
  show (d.files.modify i g)[i]? = _
  rw [List.getElem?_modify_eq, hfile]
  rfl

-- ================================================================= staging

theorem sound_stage (h : Sound P d) (bytes : List UInt8) :
    Sound P (d.stage bytes) :=
  sound_onTmp (sound_onTmp (sound_openTmp h) _) _

theorem hasTmp_stage (h : Sound P d) (bytes : List UInt8) :
    (d.stage bytes).HasTmp ⟨bytes, true⟩ :=
  ((hasTmp_openTmp h).onTmp _).onTmp _

theorem sound_renameTmp (h : Sound P d) {bytes : List UInt8}
    (htmp : d.HasTmp ⟨bytes, true⟩) (hP : P bytes) :
    Sound P d.renameTmp := by
  obtain ⟨i, hi, hfile⟩ := htmp
  unfold renameTmp
  rw [hi]
  refine ⟨List.mem_cons_self, fun p hp j hj => ?_, fun p hp j hj => ?_,
    fun p hp j hj => ?_, fun p hp j hj => ?_⟩
  · rcases List.mem_cons.mp hp with rfl | hp
    · cases hj
      exact ⟨bytes, hfile, hP⟩
    · exact h.finals p hp j hj
  · rcases List.mem_cons.mp hp with rfl | hp
    · cases hj
    · exact h.tmps p hp j hj
  · rcases List.mem_cons.mp hp with rfl | hp
    · cases hj
    · exact h.apart p hp j hj
  · cases hj

theorem read_renameTmp {bytes : List UInt8} {b : Bool}
    (htmp : d.HasTmp ⟨bytes, b⟩) : d.renameTmp.read = some bytes := by
  obtain ⟨i, hi, hfile⟩ := htmp
  unfold renameTmp
  rw [hi]
  show Option.map _ d.files[i]? = _
  rw [hfile]
  rfl

theorem sound_syncDir (h : Sound P d) : Sound P d.syncDir := by
  have hmem : ∀ p ∈ d.syncDir.past, p ∈ d.past := by
    intro p hp
    rw [List.mem_singleton.mp hp]
    exact h.current
  exact ⟨List.mem_singleton_self _, fun p hp => h.finals p (hmem p hp),
    fun p hp => h.tmps p (hmem p hp), fun p hp => h.apart p (hmem p hp),
    fun p hp => h.spare p (hmem p hp)⟩

-- ============================================================== publishing

theorem sound_publish (h : Sound P d) {bytes : List UInt8} {reach : Reach}
    (hP : reach.ok = true → P bytes) : Sound P (d.publish bytes reach) := by
  have hrenamed := fun hok => sound_renameTmp (sound_stage h bytes)
    (hasTmp_stage h bytes) (hP hok)
  cases reach with
  | unopened => exact h
  | wrote part => exact sound_onTmp (sound_openTmp h) _
  | synced => exact sound_stage h bytes
  | renamed => exact hrenamed rfl
  | settled => exact sound_syncDir (hrenamed rfl)

theorem read_writeTmp (h : Sound P d) (bytes : List UInt8) :
    (d.openTmp.writeTmp bytes).read = d.read := by
  have hopen := sound_openTmp h
  rw [← read_openTmp h]
  unfold Disk.read writeTmp
  rw [names_onTmp]
  exact readIn_onTmp hopen _ hopen.current

theorem read_stage (h : Sound P d) (bytes : List UInt8) :
    (d.stage bytes).read = d.read := by
  have hwrite := sound_onTmp (sound_openTmp h)
    fun f => ⟨f.bytes ++ bytes, false⟩
  rw [← read_writeTmp h bytes]
  unfold Disk.read stage syncTmp
  rw [names_onTmp]
  exact readIn_onTmp hwrite _ hwrite.current

/-- A publication is seen when it got as far as the rename. -/
theorem read_publish (h : Sound P d) (bytes : List UInt8) (reach : Reach) :
    (d.publish bytes reach).read
      = if reach.ok then some bytes else d.read := by
  have hrenamed := read_renameTmp (hasTmp_stage h bytes)
  cases reach with
  | unopened => rfl
  | wrote part => exact read_writeTmp h part
  | synced => exact read_stage h bytes
  | renamed => exact hrenamed
  | settled => exact hrenamed

-- =========================================================== power failure

theorem mem_getD_past (h : d.names ∈ d.past) (k : Nat) :
    d.past.getD k d.names ∈ d.past := by
  rw [List.getD_eq_getElem?_getD]
  cases hk : d.past[k]? with
  | none => exact h
  | some p => exact List.mem_of_getElem? hk

/-- A file the final name may lead to survives. -/
theorem Sound.getElem?_powerLoss (h : Sound P d) {p : Names}
    (hp : p ∈ d.past) {i : Nat} (hi : p.final = some i) (k : Nat)
    (torn : Nat → List UInt8) :
    (d.powerLoss k torn).files[i]? = d.files[i]? := by
  obtain ⟨bytes, hfile, -⟩ := h.finals p hp i hi
  show (d.files.mapIdx _)[i]? = _
  rw [List.getElem?_mapIdx, hfile]
  rfl

theorem sound_powerLoss (h : Sound P d) (k : Nat)
    (torn : Nat → List UInt8) : Sound P (d.powerLoss k torn) := by
  have hmem := mem_getD_past h.current k
  have hpast : ∀ p ∈ (d.powerLoss k torn).past, p ∈ d.past := by
    intro p hp
    rw [List.mem_singleton.mp hp]
    exact hmem
  refine ⟨List.mem_singleton_self _, fun p hp i hi => ?_,
    fun p hp i hi => ?_, fun p hp => h.apart p (hpast p hp),
    fun p hp i hi => ?_⟩
  · rw [h.getElem?_powerLoss (hpast p hp) hi]
    exact h.finals p (hpast p hp) i hi
  · show i < (d.files.mapIdx _).length
    rw [List.length_mapIdx]
    exact h.tmps p (hpast p hp) i hi
  · rw [List.mem_singleton.mp hp]
    exact h.apart _ hmem i hi

/-- All versions of the directory lead to the same file. -/
def Steady (d : Disk) : Prop := ∀ p ∈ d.past, p.final = d.names.final

instance (d : Disk) : Decidable d.Steady := by
  unfold Steady
  infer_instance

theorem steady_empty : Steady empty := by
  intro p hp
  rw [List.mem_singleton.mp hp]
  rfl

theorem steady_powerLoss (d : Disk) (k : Nat) (torn : Nat → List UInt8) :
    (d.powerLoss k torn).Steady := by
  intro p hp
  rw [List.mem_singleton.mp hp]
  rfl

theorem steady_onTmp (h : d.Steady) (g : File → File) :
    (d.onTmp g).Steady := by
  unfold Steady
  rw [past_onTmp, names_onTmp]
  exact h

theorem steady_openTmp (h : d.Steady) : d.openTmp.Steady := by
  cases htmp : d.names.tmp with
  | some i =>
      rw [openTmp_some htmp]
      exact steady_onTmp h _
  | none =>
      rw [openTmp_none htmp]
      intro p hp
      rcases List.mem_cons.mp hp with rfl | hp
      · rfl
      · exact h p hp

/-- Only a rename that nothing follows leaves two files that may come
back. -/
theorem steady_publish (h : d.Steady) (bytes : List UInt8) {reach : Reach}
    (hreach : reach ≠ .renamed) : (d.publish bytes reach).Steady := by
  have hopen := steady_openTmp h
  cases reach with
  | unopened => exact h
  | wrote part => exact steady_onTmp hopen _
  | synced => exact steady_onTmp (steady_onTmp hopen _) _
  | renamed => exact absurd rfl hreach
  | settled =>
      intro p hp
      rw [List.mem_singleton.mp hp]
      rfl

theorem readIn_powerLoss (h : Sound P d) (k : Nat)
    (torn : Nat → List UInt8) :
    (d.powerLoss k torn).read = d.readIn (d.past.getD k d.names) := by
  have hmem := mem_getD_past h.current k
  show Option.bind _ _ = Option.bind _ _
  show (d.past.getD k d.names).final.bind _ = _
  cases hf : (d.past.getD k d.names).final with
  | none => rfl
  | some i =>
      show Option.map _ (d.powerLoss k torn).files[i]? = _
      rw [h.getElem?_powerLoss hmem hf]
      rfl

/-- While all versions agree, a power failure is not seen. -/
theorem read_powerLoss (h : Sound P d) (hsteady : d.Steady) (k : Nat)
    (torn : Nat → List UInt8) : (d.powerLoss k torn).read = d.read := by
  rw [readIn_powerLoss h]
  unfold Disk.read Disk.readIn
  rw [hsteady _ (mem_getD_past h.current k)]

/-- A power failure in the middle of a publication leaves what was there
before, or all of what was to be published. -/
theorem read_cutOff (h : Sound P d) (hsteady : d.Steady)
    {bytes : List UInt8} {reach : Reach} (hP : reach.ok = true → P bytes)
    (k : Nat) (torn : Nat → List UInt8) :
    ((d.publish bytes reach).powerLoss k torn).read = d.read
    ∨ reach.ok = true
      ∧ ((d.publish bytes reach).powerLoss k torn).read = some bytes := by
  have hsound := sound_publish h hP
  by_cases hreach : reach = .renamed
  · subst hreach
    rw [readIn_powerLoss hsound]
    have hstage : (d.stage bytes).Steady :=
      steady_onTmp (steady_onTmp (steady_openTmp hsteady) _) _
    obtain ⟨i, hi, hfile⟩ := hasTmp_stage h bytes
    have hpub : d.publish bytes .renamed
        = (d.stage bytes).setNames ⟨some i, none⟩ := by
      show (d.stage bytes).renameTmp = _
      unfold renameTmp
      rw [hi]
    have hmem := mem_getD_past hsound.current k
    rw [hpub] at hmem ⊢
    -- the version that comes back is from after the rename, or before it
    generalize ((d.stage bytes).setNames ⟨some i, none⟩).past.getD k _ = p
      at hmem
    rcases List.mem_cons.mp hmem with rfl | hmem
    · right
      refine ⟨rfl, ?_⟩
      show Option.map _ (d.stage bytes).files[i]? = _
      rw [hfile]
      rfl
    · left
      show (d.stage bytes).readIn p = _
      rw [← read_stage h bytes]
      unfold Disk.read Disk.readIn
      rw [hstage p hmem]
  · rw [read_powerLoss hsound (steady_publish hsteady bytes hreach),
      read_publish h]
    cases hok : reach.ok with
    | false => exact .inl rfl
    | true => exact .inr ⟨rfl, rfl⟩

end Disk

end Lib.Publish
