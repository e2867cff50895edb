/-
When the broker finds an action eligible.

# Freshness

The freshness table is a first-come table of eight names, each with the
time its sensor was last processed (`Freshness`). So a sensor is found
observable exactly when its latest admitted observation is recent and it
is one of the first eight that ever had one (`observable_iff`).

# Masks

The loop goes over the configured sensors, not over the bits of the mask:
a bit without a configured sensor asks for nothing (`actionOk_iff`). With
two configured sensors the default table has no such bit; with one, the
actions that need the second are judged without it, and with none, every
action is eligible.

Both together are the only ways in which the broker is wrong about what
an action needs (`eligible_exactly_iff`).
-/
import Obicall.Broker.Live
import Obicall.Lib.Elapsed
import Obicall.Lib.Table

namespace Obicall

open Lib.Run Lib.Table

variable {F : Type}

-- ============================================================= statement

/-- The sensors that were admitted at these turns, and when. -/
def processed (ts : List (QueueEntry F × LocalInput)) :
    List (List UInt8 × Int64) :=
  ts.filterMap fun t =>
    if t.1.admitted ≠ 0 then some (cString t.1.obs.sensorId, t.2.now)
    else none

/-- The sensor's latest admitted observation was processed no longer than
the window ago. -/
def ProcessedRecently (seen : List (List UInt8 × Int64))
    (freshWindowNs now : Int64) (name : List UInt8) : Prop :=
  ∃ t, lastOf seen name = some t
    ∧ now.toInt - t.toInt ≤ freshWindowNs.toInt

/-- The bit names a configured sensor that was processed recently. -/
def BrokerCtx.HasSensor (g : BrokerCtx F) (seen : List (List UInt8 × Int64))
    (now : Int64) (b : Nat) : Prop :=
  ∃ name, g.sensorNames.val[b]? = some name
    ∧ ProcessedRecently seen g.sensorFreshWindowNs now (cString name)

/-- The actions that are marked eligible are those with a mask all of
whose sensors are there. -/
def BrokerCtx.EligibleExactly (g : BrokerCtx F)
    (seen : List (List UInt8 × Int64)) (now : Int64) : Prop :=
  ∀ a : Fin dgtMaxActions, a.val < g.dgt.actionCount.toNat →
    ((g.eligibility now).get a = true
      ↔ (g.dgt.actions.get a).sensorSubsetMask ≠ 0
        ∧ ∀ b < 64, maskHas (g.dgt.actions.get a).sensorSubsetMask b = true →
          g.HasSensor seen now b)

/-- What the other parties promise of a turn: an admitted observation is a
valid one, so its id is terminated, and `CLOCK_MONOTONIC` is not
negative. -/
structure Promised (t : QueueEntry F × LocalInput) : Prop where
  terminated : t.1.admitted ≠ 0 → t.1.obs.sensorId.contains 0 = true
  clock : 0 ≤ t.2.now

-- ============================================================= freshness

/-- The names of a freshness table. -/
def freshNames (sensors : Tracked SensorFreshness) : List (List UInt8) :=
  sensors.val.map fun s => cString s.sensorId

/-- The table after these records: a name for each of the first eight
sensors, each with its last time. -/
structure Freshness (seen : List (List UInt8 × Int64))
    (sensors : Tracked SensorFreshness) : Prop where
  names : freshNames sensors
    = (seen.map Prod.fst).foldl (enter maxTrackedSensors) []
  nodup : (freshNames sensors).Nodup
  last : ∀ s ∈ sensors.val,
    lastOf seen (cString s.sensorId) = some s.lastSeenNs

theorem freshness_nil : Freshness [] ⟨[], Nat.zero_le _⟩ where
  names := rfl
  nodup := List.nodup_nil
  last := nofun

/-- A terminated id is stored whole. -/
theorem cString_stored {sensorId : SensorId}
    (h : sensorId.contains 0 = true) :
    cString (strncpy31 (cString sensorId)) = cString sensorId := by
  rw [cString_strncpy31 fun _ hb => ne_zero_of_mem_cString hb]
  exact List.take_of_length_le (Nat.le_of_lt_succ (length_cString_lt h))

theorem lastOf_ne {seen : List (List UInt8 × Int64)} {name : List UInt8}
    {s : SensorFreshness} {now : Int64} (hne : cString s.sensorId ≠ name)
    (h : lastOf seen (cString s.sensorId) = some s.lastSeenNs) :
    lastOf (seen ++ [(name, now)]) (cString s.sensorId)
      = some s.lastSeenNs := by
  rw [lastOf_append, if_neg hne.symm]
  exact h

section Touch

variable {seen : List (List UInt8 × Int64)} {sensors : Tracked SensorFreshness}
  {sensorId : SensorId} {now : Int64} (h : Freshness seen sensors)
include h

/-- A sensor that has an entry gets a new time in it. -/
theorem freshness_again {i : Nat}
    (hfind : sensors.val.findIdx? (fun s => strncmpEq s.sensorId sensorId)
      = some i) {sensors' : Tracked SensorFreshness}
    (htable : sensors'.val
      = sensors.val.modify i fun s => { s with lastSeenNs := now }) :
    Freshness (seen ++ [(cString sensorId, now)]) sensors' := by
  obtain ⟨hi, hname, -⟩ := List.findIdx?_eq_some_iff_getElem.mp hfind
  have hkey : cString sensors.val[i].sensorId = cString sensorId :=
    beq_iff_eq.mp hname
  have hnames : freshNames sensors' = freshNames sensors := by
    refine List.ext_getElem? fun j => ?_
    rw [freshNames, freshNames, htable, List.getElem?_map, List.getElem?_map,
      List.getElem?_modify]
    cases sensors.val[j]? with
    | none => rfl
    | some s =>
        show some (cString (if i = j then _ else s).sensorId) = _
        split
        · rfl
        · rfl
  refine ⟨?_, hnames ▸ h.nodup, fun s hs => ?_⟩
  · have hmem : cString sensorId
        ∈ (seen.map Prod.fst).foldl (enter maxTrackedSensors) [] := by
      rw [← h.names, ← hkey]
      exact List.mem_map.mpr ⟨_, List.getElem_mem hi, rfl⟩
    rw [hnames, h.names, List.map_append, List.foldl_append]
    exact (if_pos (.inl hmem)).symm
  · rw [htable] at hs
    obtain ⟨j, hj⟩ := List.mem_iff_getElem?.mp hs
    rw [List.getElem?_modify] at hj
    by_cases hij : i = j
    · subst hij
      rw [List.getElem?_eq_getElem hi, Option.map_eq_map, Option.map_some,
        if_pos rfl] at hj
      obtain rfl := Option.some.inj hj
      rw [lastOf_append]
      exact if_pos hkey.symm
    · simp only [hij, if_false, Option.map_eq_map, Option.map_id'] at hj
      obtain ⟨hjlt, hjs⟩ := List.getElem?_eq_some_iff.mp hj
      refine lastOf_ne (fun heq => hij ?_) (h.last s (hjs ▸ List.getElem_mem _))
      have hi' : i < (freshNames sensors).length := by
        rwa [freshNames, List.length_map]
      have hj' : j < (freshNames sensors).length := by
        rwa [freshNames, List.length_map]
      refine (@List.Nodup.getElem_inj_iff _ _ h.nodup i hi' j hj').mp ?_
      simp only [freshNames, List.getElem_map, hjs, hkey, heq]

/-- A sensor that has none finds the table full, or takes the next. -/
theorem freshness_first (hid : sensorId.contains 0 = true)
    (hfind : sensors.val.findIdx? (fun s => strncmpEq s.sensorId sensorId)
      = none) :
    Freshness (seen ++ [(cString sensorId, now)])
      (touchSensorLocked sensors sensorId now) := by
  have hnew : ∀ s ∈ sensors.val, cString s.sensorId ≠ cString sensorId := by
    intro s hs heq
    have hno := List.findIdx?_eq_none_iff.mp hfind s hs
    rw [strncmpEq, heq, beq_self_eq_true] at hno
    cases hno
  have hnotin : cString sensorId ∉ freshNames sensors := by
    intro hmem
    obtain ⟨s, hs, heq⟩ := List.mem_map.mp hmem
    exact hnew s hs heq
  have hlen : (freshNames sensors).length = sensors.val.length :=
    List.length_map ..
  rw [touchSensorLocked, hfind]
  dsimp only
  split
  next hroom =>
    have hnames : ∀ hle, freshNames ⟨sensors.val
        ++ [⟨strncpy31 (cString sensorId), now⟩], hle⟩
        = freshNames sensors ++ [cString sensorId] := by
      intro hle
      rw [freshNames, List.map_append, List.map_singleton,
        cString_stored hid]
      rfl
    have henter : enter maxTrackedSensors (freshNames sensors)
        (cString sensorId) = freshNames sensors ++ [cString sensorId] := by
      rw [enter, if_neg]
      rw [not_or, hlen]
      exact ⟨hnotin, Nat.not_le.mpr hroom⟩
    refine ⟨?_, ?_, fun s hs => ?_⟩
    · rw [hnames, List.map_append, List.foldl_append, ← h.names]
      exact henter.symm
    · rw [hnames, ← henter]
      exact nodup_enter h.nodup _
    · rcases List.mem_append.mp hs with hs | hs
      · exact lastOf_ne (hnew s hs) (h.last s hs)
      · rw [List.mem_singleton.mp hs, cString_stored hid, lastOf_append]
        exact if_pos rfl
  next hfull =>
    refine ⟨?_, h.nodup, fun s hs => lastOf_ne (hnew s hs) (h.last s hs)⟩
    rw [List.map_append, List.foldl_append, ← h.names]
    refine (if_pos (.inr ?_)).symm
    rw [hlen]
    exact Nat.le_of_not_lt hfull

theorem freshness_touch (hid : sensorId.contains 0 = true) :
    Freshness (seen ++ [(cString sensorId, now)])
      (touchSensorLocked sensors sensorId now) := by
  cases hfind : sensors.val.findIdx?
      fun s => strncmpEq s.sensorId sensorId with
  | some i =>
      refine freshness_again h hfind ?_
      rw [touchSensorLocked, hfind]
  | none => exact freshness_first h hid hfind

end Touch

/-- With readings that are not negative the machine's age is the age. -/
theorem age_le_iff {now t freshWindowNs : Int64} (hnow : 0 ≤ now)
    (ht : 0 ≤ t) :
    now - t ≤ freshWindowNs
      ↔ now.toInt - t.toInt ≤ freshWindowNs.toInt := by
  have hnow' := Int64.le_iff_toInt_le.mp hnow
  have ht' := Int64.le_iff_toInt_le.mp ht
  rw [Int64.toInt_zero] at hnow' ht'
  have hnowlt := now.toInt_lt
  have htlt := t.toInt_lt
  rw [Int64.le_iff_toInt_le,
    Lib.Elapsed.toInt_sub_of_fits (by omega) (by omega)]

/-- A sensor is found observable exactly when it has an entry and was
processed recently. -/
theorem observable_iff {seen : List (List UInt8 × Int64)}
    {sensors : Tracked SensorFreshness} (h : Freshness seen sensors)
    (hseen : ∀ p ∈ seen, 0 ≤ p.2) {freshWindowNs now : Int64}
    (hnow : 0 ≤ now) (name : SensorId) :
    sensorObservableLocked sensors freshWindowNs name now = true
      ↔ cString name ∈ freshNames sensors
        ∧ ProcessedRecently seen freshWindowNs now (cString name) := by
  rw [sensorObservableLocked]
  cases hfind : sensors.val.find? fun s => strncmpEq s.sensorId name with
  | none =>
      refine iff_of_false nofun fun hno => ?_
      obtain ⟨s, hs, hname⟩ := List.mem_map.mp hno.1
      have hne := List.find?_eq_none.mp hfind s hs
      exact hne (beq_iff_eq.mpr hname)
  | some s =>
      have hs := List.mem_of_find?_eq_some hfind
      have hmatch := List.find?_some hfind
      have hname : cString s.sensorId = cString name :=
        beq_iff_eq.mp hmatch
      have hlast := h.last s hs
      rw [hname] at hlast
      have hmem : cString name ∈ freshNames sensors :=
        List.mem_map.mpr ⟨s, hs, hname⟩
      have hpos : 0 ≤ s.lastSeenNs := lastOf_mem hlast hseen
      rw [and_iff_right hmem, decide_eq_true_iff, age_le_iff hnow hpos]
      constructor
      · exact fun hle => ⟨_, hlast, hle⟩
      · rintro ⟨t, ht, hle⟩
        rw [hlast] at ht
        obtain rfl := Option.some.inj ht
        exact hle

-- ================================================================= masks

/-- The loop asks for the configured sensors of the mask, whatever else
the mask has. -/
theorem actionOk_iff (g : BrokerCtx F) (now : Int64) (mask : UInt64) :
    g.actionOk now mask = true
      ↔ mask ≠ 0 ∧ ∀ b < 64, maskHas mask b = true →
        ∀ name, g.sensorNames.val[b]? = some name →
          g.observable now name = true := by
  rw [BrokerCtx.actionOk, Bool.and_eq_true, bne_iff_ne, and_comm,
    List.all_eq_true]
  refine and_congr_right fun _ => ?_
  constructor
  · intro h b _ hmask name hname
    have hentry := h (name, b) (List.mem_zipIdx_iff_getElem?.mpr hname)
    rw [hmask] at hentry
    exact hentry
  · rintro h ⟨name, b⟩ hmem
    have hname := List.mem_zipIdx_iff_getElem?.mp hmem
    have hb : b < g.sensorNames.val.length :=
      (List.getElem?_eq_some_iff.mp hname).1
    have hlt : b < 64 :=
      Nat.lt_trans (Nat.lt_of_lt_of_le hb g.sensorNames.property) (by decide)
    cases hmask : maskHas mask b with
    | false => rfl
    | true => exact h b hlt hmask name hname

/-- The bits of the masks that the default table has. -/
theorem forall_bits_one {Q : Nat → Prop} :
    (∀ b < 64, maskHas 1 b = true → Q b) ↔ Q 0 := by
  have hbits : ∀ b < 64, maskHas 1 b = true ↔ b = 0 := by decide
  constructor
  · exact fun h => h 0 (by decide) (by decide)
  · intro h b hb hmask
    exact (hbits b hb).mp hmask ▸ h

theorem forall_bits_two {Q : Nat → Prop} :
    (∀ b < 64, maskHas 2 b = true → Q b) ↔ Q 1 := by
  have hbits : ∀ b < 64, maskHas 2 b = true ↔ b = 1 := by decide
  constructor
  · exact fun h => h 1 (by decide) (by decide)
  · intro h b hb hmask
    exact (hbits b hb).mp hmask ▸ h

theorem forall_bits_three {Q : Nat → Prop} :
    (∀ b < 64, maskHas 3 b = true → Q b) ↔ Q 0 ∧ Q 1 := by
  have hbits : ∀ b < 64, maskHas 3 b = true ↔ b = 0 ∨ b = 1 := by decide
  constructor
  · exact fun h => ⟨h 0 (by decide) (by decide), h 1 (by decide) (by decide)⟩
  · rintro ⟨h0, h1⟩ b hb hmask
    rcases (hbits b hb).mp hmask with rfl | rfl
    · exact h0
    · exact h1

section Bits

variable (g : BrokerCtx F) (now : Int64)

theorem actionOk_one_iff :
    g.actionOk now 1 = true
      ↔ ∀ name, g.sensorNames.val[0]? = some name →
        g.observable now name = true := by
  rw [actionOk_iff, forall_bits_one, and_iff_right (by decide)]

theorem actionOk_two_iff :
    g.actionOk now 2 = true
      ↔ ∀ name, g.sensorNames.val[1]? = some name →
        g.observable now name = true := by
  rw [actionOk_iff, forall_bits_two, and_iff_right (by decide)]

theorem actionOk_three_iff :
    g.actionOk now 3 = true
      ↔ g.actionOk now 1 = true ∧ g.actionOk now 2 = true := by
  rw [actionOk_iff, forall_bits_three, and_iff_right (by decide),
    actionOk_one_iff, actionOk_two_iff]

end Bits

-- ================================================================== runs

theorem processed_append (ts : List (QueueEntry F × LocalInput))
    (t : QueueEntry F × LocalInput) :
    processed (ts ++ [t]) = processed ts
      ++ if t.1.admitted ≠ 0 then [(cString t.1.obs.sensorId, t.2.now)]
        else [] := by
  rw [processed, processed, List.filterMap_append, List.filterMap_cons,
    List.filterMap_nil]
  by_cases hadm : t.1.admitted ≠ 0
  · rw [if_pos hadm, if_pos hadm]
  · rw [if_neg hadm, if_neg hadm]

theorem processed_clock {ts : List (QueueEntry F × LocalInput)}
    (h : ∀ t ∈ ts, Promised t) : ∀ p ∈ processed ts, 0 ≤ p.2 := by
  intro p hp
  obtain ⟨t, ht, hsome⟩ := List.mem_filterMap.mp hp
  split at hsome
  · exact Option.some.inj hsome ▸ (h t ht).clock
  · cases hsome

theorem freshness_turn {ts : List (QueueEntry F × LocalInput)}
    {t : QueueEntry F × LocalInput} {g : BrokerCtx F} (ht : Promised t)
    (h : Freshness (processed ts) g.sensors) :
    Freshness (processed (ts ++ [t])) (g.touch t.1 t.2.now).sensors := by
  rw [processed_append, BrokerCtx.touch]
  by_cases hadm : t.1.admitted ≠ 0
  · rw [if_pos hadm, if_pos hadm]
    exact freshness_touch h (ht.terminated hadm)
  · rw [if_neg hadm, if_neg hadm, List.append_nil]
    exact h

variable [DoubleArith F] [DoubleBits F]

/-- What of a broker its command line has settled. -/
structure BrokerCtx.Configured (opts : BrokerOptions F) (g : BrokerCtx F) :
    Prop where
  dgt : g.dgt = initDefaultDgtTable F
  sensorNames : g.sensorNames = parseSensorIds opts.sensorIds
  window : g.sensorFreshWindowNs = opts.sensorFreshWindowMs * 1000000
  dgtEnabled : g.dgtEnabled = opts.dgtEnabled

variable {opts : BrokerOptions F} {brokerId : UInt32}

theorem BrokerCtx.Configured.touch {g : BrokerCtx F} (h : g.Configured opts)
    (e : QueueEntry F) (now : Int64) : (g.touch e now).Configured opts := by
  obtain ⟨sensors, htouch⟩ := touch_frame g e now
  rw [htouch]
  exact ⟨h.dgt, h.sensorNames, h.window, h.dgtEnabled⟩

/-- The configuration does not change in a run. -/
theorem configured_run (ts : List (QueueEntry F × LocalInput)) :
    (run BrokerCtx.turn (.start brokerId opts) ts).Configured opts := by
  refine run_inv (P := BrokerCtx.Configured opts) (fun g t h => ?_)
    ⟨rfl, rfl, rfl, rfl⟩ ts
  obtain ⟨_, _, _, _, _, _, hturn⟩ := processEntry_frame g t.1 t.2.now
    t.2.epochBelief
  rw [BrokerCtx.turn, hturn]
  exact ⟨h.dgt, h.sensorNames, h.window, h.dgtEnabled⟩

/-- Of a turn only its touch writes the freshness table. -/
theorem sensors_turn (g : BrokerCtx F) (t : QueueEntry F × LocalInput) :
    (g.turn t).sensors = (g.touch t.1 t.2.now).sensors := by
  rw [BrokerCtx.turn, BrokerCtx.processEntry, BrokerCtx.conclude]
  dsimp only
  generalize g.touch t.1 t.2.now = g'
  obtain ⟨_, _, hpolicy⟩ := applyPolicy_frame g' (g'.eligibility t.2.now)
  generalize g'.applyPolicy (g'.eligibility t.2.now) = policy at hpolicy ⊢
  obtain ⟨_, _, hestimate⟩ := estimate_frame policy.1 t.1 policy.2.2
  rw [hestimate, hpolicy]

theorem freshness_run {ts : List (QueueEntry F × LocalInput)}
    (h : ∀ t ∈ ts, Promised t) :
    Freshness (processed ts)
      (run BrokerCtx.turn (.start brokerId opts) ts).sensors := by
  have hstep : ∀ ts (g : BrokerCtx F) t, Promised t →
      Freshness (processed ts) g.sensors →
      Freshness (processed (ts ++ [t])) (g.turn t).sensors := by
    intro ts g t ht hg
    rw [sensors_turn]
    exact freshness_turn ht hg
  have hstart : Freshness (processed ([] : List (QueueEntry F × LocalInput)))
      (BrokerCtx.start brokerId opts).sensors := freshness_nil
  exact run_trace (P := fun ts (g : BrokerCtx F) =>
    Freshness (processed ts) g.sensors) hstep hstart h

-- ========================================================= the equivalence

/-- Two sensors are configured, and those of the first two that were
processed recently are among the first eight sensors that ever were. -/
def BrokerOptions.Covers (opts : BrokerOptions F)
    (seen : List (List UInt8 × Int64)) (now : Int64) : Prop :=
  let names := (parseSensorIds opts.sensorIds).val
  2 ≤ names.length
    ∧ ∀ name ∈ names.take 2,
      ProcessedRecently seen (opts.sensorFreshWindowMs * 1000000) now
        (cString name) →
      cString name ∈ (fresh [] (seen.map Prod.fst)).take maxTrackedSensors

/-- The masks of the default table: one sensor, the other, both. -/
theorem forall_default_masks {Q : UInt64 → Prop} :
    (∀ a : Fin dgtMaxActions,
      a.val < (initDefaultDgtTable F).actionCount.toNat →
      Q ((initDefaultDgtTable F).actions.get a).sensorSubsetMask)
      ↔ Q 1 ∧ Q 2 ∧ Q 3 := by
  have hcount : (initDefaultDgtTable F).actionCount.toNat = 3 := rfl
  rw [hcount]
  constructor
  · intro h
    exact ⟨h 0 (by decide), h 1 (by decide), h 2 (by decide)⟩
  · rintro ⟨h0, h1, h2⟩ a hlt
    match a, hlt with
    | ⟨0, _⟩, _ => exact h0
    | ⟨1, _⟩, _ => exact h1
    | ⟨2, _⟩, _ => exact h2

omit [DoubleArith F] [DoubleBits F] in
/-- At a bit the two readings of a mask agree exactly when it has a
configured sensor that the table does not lack. -/
theorem bit_iff {names : List SensorId} {b : Nat}
    {entered recent : SensorId → Prop} :
    ((∀ name, names[b]? = some name → entered name ∧ recent name)
      ↔ ∃ name, names[b]? = some name ∧ recent name)
      ↔ ∃ name, names[b]? = some name ∧ (recent name → entered name) := by
  cases names[b]? with
  | none => simp
  | some name =>
      simp only [Option.some.injEq, forall_eq', exists_eq_left',
        and_iff_right_iff_imp]

omit [DoubleArith F] [DoubleBits F] in
/-- The first two bits have sensors with a property exactly when there are
two sensors and those have it. -/
theorem first_two_iff {names : List SensorId} {P : SensorId → Prop} :
    (∃ name, names[0]? = some name ∧ P name)
      ∧ (∃ name, names[1]? = some name ∧ P name)
      ↔ 2 ≤ names.length ∧ ∀ name ∈ names.take 2, P name := by
  match names with
  | [] => simp
  | [_] => simp
  | _ :: _ :: _ => simp

/-- What is said of every action of a broker and its mark is said of the
three masks. -/
theorem forall_actions_iff {g : BrokerCtx F} (hg : g.Configured opts)
    (now : Int64) {Q : UInt64 → Bool → Prop} :
    (∀ a : Fin dgtMaxActions, a.val < g.dgt.actionCount.toNat →
      Q (g.dgt.actions.get a).sensorSubsetMask ((g.eligibility now).get a))
      ↔ Q 1 (g.actionOk now 1) ∧ Q 2 (g.actionOk now 2)
        ∧ Q 3 (g.actionOk now 3) := by
  have hmark : ∀ a : Fin dgtMaxActions, a.val < g.dgt.actionCount.toNat →
      (g.eligibility now).get a
        = g.actionOk now (g.dgt.actions.get a).sensorSubsetMask := by
    intro a ha
    have hget : ∀ v : DgtEligibility, v.get a = v[a.val] := fun _ => rfl
    rw [BrokerCtx.eligibility, hget, Vector.getElem_ofFn, decide_eq_true ha,
      Bool.true_and]
    rfl
  rw [← forall_default_masks (F := F)
    (Q := fun mask => Q mask (g.actionOk now mask)), ← hg.dgt]
  refine forall_congr' fun a => forall_congr' fun ha => ?_
  rw [hmark a ha]

/-- The default actions are judged by two sensors, so they are judged
right exactly when each of the two is. -/
theorem eligibleExactly_iff {g : BrokerCtx F} (hg : g.Configured opts)
    {seen : List (List UInt8 × Int64)} {now : Int64}
    {entered : SensorId → Prop}
    (hobs : ∀ name, g.observable now name = true ↔ entered name
      ∧ ProcessedRecently seen g.sensorFreshWindowNs now (cString name)) :
    g.EligibleExactly seen now
      ↔ 2 ≤ g.sensorNames.val.length
        ∧ ∀ name ∈ g.sensorNames.val.take 2,
          ProcessedRecently seen g.sensorFreshWindowNs now (cString name) →
          entered name := by
  have hone : (1 : UInt64) ≠ 0 := by decide
  have htwo : (2 : UInt64) ≠ 0 := by decide
  have hthree : (3 : UInt64) ≠ 0 := by decide
  rw [BrokerCtx.EligibleExactly, forall_actions_iff hg now
      (Q := fun mask ok => ok = true ↔ mask ≠ 0 ∧ ∀ b < 64,
        maskHas mask b = true → g.HasSensor seen now b),
    forall_bits_one, forall_bits_two, forall_bits_three,
    and_iff_right hone, and_iff_right htwo, and_iff_right hthree,
    actionOk_three_iff]
  have hboth : ∀ p q p' q' : Prop,
      (p ↔ p') ∧ (q ↔ q') ∧ (p ∧ q ↔ p' ∧ q') ↔ (p ↔ p') ∧ (q ↔ q') :=
    fun p q p' q' => ⟨fun h => ⟨h.1, h.2.1⟩,
      fun h => ⟨h.1, h.2, and_congr h.1 h.2⟩⟩
  rw [hboth, actionOk_one_iff, actionOk_two_iff, ← first_two_iff, ← bit_iff,
    ← bit_iff]
  simp only [hobs, BrokerCtx.HasSensor]

/-- The broker judges the actions by what they need exactly when the
sensors that the default table needs are configured, and none of them is
kept out of the freshness table by eight that came before. -/
theorem eligible_exactly_iff (brokerId : UInt32) (opts : BrokerOptions F)
    (ts : List (QueueEntry F × LocalInput)) (t : QueueEntry F × LocalInput)
    (h : ∀ t' ∈ ts ++ [t], Promised t') :
    BrokerCtx.EligibleExactly
        ((run BrokerCtx.turn (.start brokerId opts) ts).touch t.1 t.2.now)
        (processed (ts ++ [t])) t.2.now
      ↔ opts.Covers (processed (ts ++ [t])) t.2.now := by
  obtain ⟨hts, ht⟩ := List.forall_mem_append.mp h
  have ht := List.forall_mem_singleton.mp ht
  have hg : (run BrokerCtx.turn (.start brokerId opts) ts).Configured opts :=
    configured_run ts
  have hrun : Freshness (processed ts)
      (run BrokerCtx.turn (.start brokerId opts) ts).sensors :=
    freshness_run hts
  have hfresh := freshness_turn ht hrun
  have hg' := hg.touch t.1 t.2.now
  generalize (run BrokerCtx.turn (.start brokerId opts) ts).touch t.1 t.2.now
    = g' at hfresh hg'
  rw [eligibleExactly_iff hg' fun name =>
      observable_iff hfresh (processed_clock h) ht.clock name,
    hfresh.names, foldl_enter, hg'.sensorNames, hg'.window]
  rfl

-- =============================================================== samples

/-- The policy with its default table for these sensors. -/
def withPolicy (sensorIds : List UInt8) : BrokerOptions Binary64 :=
  { policyOff sensorIds with dgtEnabled := true }

/-- An admitted position of the sensor with this name of one letter. -/
def letterTurn (c : UInt8) (now : Int64) :
    QueueEntry Binary64 × LocalInput :=
  (⟨1, makeObs [c] 1 1 1000000000 1.0 2.0, 1⟩, ⟨now, 0⟩)

theorem promised_letterTurn {c : UInt8} {now : Int64} (hnow : 0 ≤ now) :
    Promised (letterTurn c now) where
  terminated _ := by
    show (strncpy31 [c]).contains 0 = true
    rw [Vector.contains_iff_mem, ← Vector.mem_toList_iff, toList_strncpy31]
    exact List.mem_append_right _
      (List.mem_replicate.mpr ⟨Nat.succ_ne_zero 30, rfl⟩)
  clock := hnow

/-- With `p` and `q` configured, and `q` last seen two seconds ago when an
observation of `p` comes. -/
theorem eligible_exactly_two_sensors :
    (∀ t' ∈ [letterTurn 113 1000000000] ++ [letterTurn 112 3000000000],
      Promised t')
    ∧ BrokerCtx.EligibleExactly
      ((run BrokerCtx.turn
        (.start brokerA (withPolicy [112, 44, 113]))
        [letterTurn 113 1000000000]).touch (letterTurn 112 3000000000).1
        3000000000)
      (processed ([letterTurn 113 1000000000]
        ++ [letterTurn 112 3000000000])) 3000000000 := by
  have hprom : ∀ t' ∈ [letterTurn 113 1000000000]
      ++ [letterTurn 112 3000000000], Promised t' := by
    intro t' ht'
    rcases List.mem_pair.mp ht' with rfl | rfl
    · exact promised_letterTurn (by decide)
    · exact promised_letterTurn (by decide)
  refine ⟨hprom, (eligible_exactly_iff brokerA _ _ _ hprom).mpr ⟨?_, ?_⟩⟩
  · decide
  · intro name hname _
    have hall : ∀ name ∈ ((parseSensorIds [112, 44, 113]).val.take 2),
        cString name ∈ (fresh []
          ((processed ([letterTurn 113 1000000000]
            ++ [letterTurn 112 3000000000])).map Prod.fst)).take
          maxTrackedSensors := by
      decide
    exact hall name hname

/-- With `p` alone configured, the action that needs a second sensor is
eligible when `p` is there. And after one observation from each of eight
others, no action that needs `p` is, though it was seen just now. -/
theorem judged_wrong :
    let eight : List (QueueEntry Binary64 × LocalInput) :=
      [97, 98, 99, 100, 101, 102, 103, 104].map (letterTurn · 1000000000)
    let p := letterTurn 112 1000000000
    (∀ t' ∈ eight ++ [p], Promised t')
    ∧ ¬ BrokerCtx.EligibleExactly
      ((BrokerCtx.start brokerA (withPolicy [112])).touch p.1 p.2.now)
      (processed [p]) p.2.now
    ∧ ¬ BrokerCtx.EligibleExactly
      ((run BrokerCtx.turn (.start brokerA (withPolicy [112, 44, 113]))
        eight).touch p.1 p.2.now)
      (processed (eight ++ [p])) p.2.now := by
  intro eight p
  refine ⟨fun t' ht' => ?_, fun h => ?_, fun h => ?_⟩
  · obtain ⟨c, -, rfl⟩ : ∃ c ∈ [97, 98, 99, 100, 101, 102, 103, 104, 112],
        letterTurn c 1000000000 = t' := List.mem_map.mp ht'
    exact promised_letterTurn (by decide)
  · have helig : ((BrokerCtx.start brokerA (withPolicy [112])).touch p.1
        p.2.now |>.eligibility p.2.now)[(1 : Fin dgtMaxActions)] = true := by
      decide +kernel
    obtain ⟨name, hname, -⟩ :=
      ((h 1 (by decide)).mp helig).2 1 (by decide) (by decide)
    cases hname
  · have helig : (((run BrokerCtx.turn
        (.start brokerA (withPolicy [112, 44, 113])) eight).touch p.1
        p.2.now).eligibility p.2.now)[(0 : Fin dgtMaxActions)] = false := by
      decide +kernel
    refine Bool.eq_false_iff.mp helig
      ((h 0 (by decide)).mpr ⟨by decide, ?_⟩)
    refine forall_bits_one.mpr ⟨strncpy31 [112], ?_, ?_⟩
    · decide
    · exact ⟨1000000000, by decide, by decide⟩

end Obicall
