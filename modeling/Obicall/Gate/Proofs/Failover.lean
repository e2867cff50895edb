/-
Who the gate promotes, and when: the promotion rule over the life of one
gate process.

# Results

- `failover_justified`: an owner is replaced only by the broker whose
  heartbeat is being handled, and only when the owner's own last
  heartbeat is older than the timeout.
- `silent_owner_replaced_iff`: an owner silent for longer than that is
  replaced by a fit successor exactly when the process has ever heard the
  owner and neither 64-bit expression of the rule wraps around. An owner
  that was loaded from the state file and has been silent since is never
  replaced (`loaded_owner_stays`).
- `promotable_exact_iff`: the replay-gap test answers as in exact
  arithmetic unless its sum wraps to below the high-water.
-/
import Mathlib.Data.List.Basic
import Obicall.Gate.Proofs.Lives
import Obicall.Lib.Elapsed

namespace Obicall

-- ============================================================= promotion

theorem shadowPromotable_iff {r : GateReadiness}
    {req : GatePromotionRequirements} {highWater : UInt64} :
    obicallGateShadowPromotable r req highWater = true
      ↔ r.healthy ≠ 0 ∧ r.configDigest = req.requiredConfigDigest
        ∧ r.checkpointSchemaVersion = req.requiredCheckpointSchemaVersion
        ∧ ¬ r.lastProcessedWindowSeq + req.maxAllowedReplayGap
          < highWater := by
  rw [obicallGateShadowPromotable]
  by_cases hhealthy : r.healthy = 0
  · simp [hhealthy]
  by_cases hdigest : r.configDigest = req.requiredConfigDigest
  · by_cases hschema : r.checkpointSchemaVersion
        = req.requiredCheckpointSchemaVersion
    · simp [hhealthy, hdigest, hschema]
    · simp [hschema]
  · simp [hdigest]

/-- Nobody owns the gate: broker A is granted it as soon as it is known
to be healthy. -/
theorem promotionTarget_of_none {ctx : GateCtx} {now : Int64}
    (h : ctx.state.ownerBrokerId = brokerNone) :
    ctx.promotionTarget now
      = if (ctx.view brokerA).known = true
          ∧ (ctx.view brokerA).readiness.healthy ≠ 0 then some brokerA
        else none := by
  simp only [GateCtx.promotionTarget, h, if_true, GateCtx.view]
  simp only [Bool.and_eq_true, bne_iff_ne]

/-- A broker owns the gate: its successor is granted it when the owner
is known and its last heartbeat too old, and the successor is known and
promotable. -/
theorem promotionTarget_of_broker {ctx : GateCtx} {now : Int64}
    (h : IsBroker ctx.state.ownerBrokerId) :
    let owner := ctx.state.ownerBrokerId
    ctx.promotionTarget now
      = if (ctx.view owner).known = true
          ∧ ¬ now - (ctx.view owner).lastHeartbeatNs ≤ ctx.confirmTimeoutNs
          ∧ (ctx.view (successor owner)).known = true
          ∧ obicallGateShadowPromotable
              (ctx.view (successor owner)).readiness ctx.requirements
              ctx.state.committedHighWater = true
        then some (successor owner) else none := by
  intro owner
  have hne : owner ≠ brokerNone := h.ne_none
  have hslot : ctx.brokers[owner.toNat]? = some (ctx.view owner) := by
    rcases h with hA | hB
    · simp only [owner, hA]
      rfl
    · simp only [owner, hB]
      rfl
  have hother : (if owner = brokerA then ctx.brokers[2] else ctx.brokers[1])
      = ctx.view (successor owner) := by
    rcases h with hA | hB
    · simp only [owner, hA]
      rfl
    · simp only [owner, hB]
      rfl
  have hsucc : (if owner = brokerA then brokerB else brokerA)
      = successor owner := by
    rw [successor, if_neg hne]
  simp only [GateCtx.promotionTarget]
  rw [if_neg hne, hslot, hother, hsucc]
  dsimp only
  by_cases hknown : (ctx.view owner).known = true
  · rw [if_neg (by simp [hknown])]
    by_cases hage : now - (ctx.view owner).lastHeartbeatNs
        ≤ ctx.confirmTimeoutNs
    · rw [if_pos hage, if_neg fun hall => hall.2.1 hage]
    · rw [if_neg hage]
      by_cases hknown' : (ctx.view (successor owner)).known = true
      · rw [if_neg (by simp [hknown'])]
        by_cases hfit : obicallGateShadowPromotable
            (ctx.view (successor owner)).readiness ctx.requirements
            ctx.state.committedHighWater = true
        · exact (if_pos hfit).trans
            (if_pos ⟨hknown, hage, hknown', hfit⟩).symm
        · exact (if_neg hfit).trans
            (if_neg fun hall => hfit hall.2.2.2).symm
      · rw [if_pos (by simp [hknown']), if_neg fun hall => hknown' hall.2.2.1]
  · rw [if_pos (by simp [hknown]), if_neg fun hall => hknown hall.1]


/-- Nobody is promoted over an owner that is not one of the brokers. -/
theorem isBroker_of_promotionTarget {ctx : GateCtx} {now : Int64}
    {b : UInt32} (h : ctx.promotionTarget now = some b)
    (hne : ctx.state.ownerBrokerId ≠ brokerNone) :
    IsBroker ctx.state.ownerBrokerId := by
  rw [GateCtx.promotionTarget] at h
  simp only [if_neg hne] at h
  cases hslot : ctx.brokers[ctx.state.ownerBrokerId.toNat]? with
  | none => rw [hslot] at h; cases h
  | some view =>
      obtain ⟨hlt, -⟩ := Vector.getElem?_eq_some_iff.mp hslot
      have hpos : ctx.state.ownerBrokerId.toNat ≠ 0 := fun h0 =>
        hne (UInt32.toNat_inj.mp h0)
      have hcases : ctx.state.ownerBrokerId.toNat = 1
          ∨ ctx.state.ownerBrokerId.toNat = 2 := by omega
      rcases hcases with h1 | h2
      · exact .inl (UInt32.toNat_inj.mp h1)
      · exact .inr (UInt32.toNat_inj.mp h2)

-- ================================================================= clocks

/-- With clocks that do not run backwards the age cannot wrap into one
above the timeout. -/
theorem silence_of_age {now t confirm : Int64} (hle : t ≤ now)
    (h : ¬ now - t ≤ confirm) :
    t.toInt + confirm.toInt < now.toInt :=
  Lib.Elapsed.lt_of_lt_sub hle (Int64.not_le.mp h)

/-- The age test at a true age above the timeout fails only when the
difference wraps. -/
theorem age_iff {now t confirm : Int64}
    (h : t.toInt + confirm.toInt < now.toInt) :
    ¬ now - t ≤ confirm
      ↔ now.toInt - t.toInt < 2 ^ 63
        ∨ confirm.toInt + 2 ^ 64 < now.toInt - t.toInt := by
  have hnow := now.toInt_lt
  have ht := t.le_toInt
  have hconfirm := confirm.le_toInt
  rw [Int64.not_le, Int64.lt_iff_toInt_lt]
  by_cases hfits : now.toInt - t.toInt < 2 ^ 63
  · rw [Lib.Elapsed.toInt_sub_of_fits (by omega) hfits]
    omega
  · rw [Lib.Elapsed.toInt_sub_of_wraps hfits]
    omega

/-- The gap test at a true sum that is enough fails only when the sum
wraps. -/
theorem gap_iff {seq gap highWater : UInt64}
    (h : highWater.toNat ≤ seq.toNat + gap.toNat) :
    ¬ seq + gap < highWater
      ↔ seq.toNat + gap.toNat < 2 ^ 64
        ∨ highWater.toNat + 2 ^ 64 ≤ seq.toNat + gap.toNat := by
  have hseq := seq.toNat_lt
  have hgap := gap.toNat_lt
  rw [UInt64.not_lt, UInt64.le_iff_toNat_le, UInt64.toNat_add]
  omega

-- ========================================================= the replay gap

/-- `obicall_gate_shadow_promotable` as it is documented, in exact
arithmetic. -/
def ExactlyPromotable (r : GateReadiness) (req : GatePromotionRequirements)
    (highWater : UInt64) : Prop :=
  r.healthy ≠ 0 ∧ r.configDigest = req.requiredConfigDigest
    ∧ r.checkpointSchemaVersion = req.requiredCheckpointSchemaVersion
    ∧ (highWater.toNat : Int) - r.lastProcessedWindowSeq.toNat
      ≤ req.maxAllowedReplayGap.toNat

/-- A shadow that is fit, but for which the sum of the gap test wraps
around to below the high-water. -/
def WrapsShort (r : GateReadiness) (req : GatePromotionRequirements)
    (highWater : UInt64) : Prop :=
  r.healthy ≠ 0 ∧ r.configDigest = req.requiredConfigDigest
    ∧ r.checkpointSchemaVersion = req.requiredCheckpointSchemaVersion
    ∧ 2 ^ 64 ≤ r.lastProcessedWindowSeq.toNat + req.maxAllowedReplayGap.toNat
    ∧ r.lastProcessedWindowSeq.toNat + req.maxAllowedReplayGap.toNat
      < 2 ^ 64 + highWater.toNat

/-- The gap test on a sum, against the exact one: they differ only where
the sum wraps short. -/
theorem sum_lt_iff (seq gap highWater : UInt64) :
    (¬ seq + gap < highWater
        ↔ (highWater.toNat : Int) - seq.toNat ≤ gap.toNat)
      ↔ ¬ (2 ^ 64 ≤ seq.toNat + gap.toNat
        ∧ seq.toNat + gap.toNat < 2 ^ 64 + highWater.toNat) := by
  have hseq := seq.toNat_lt
  have hgap := gap.toNat_lt
  have hhigh := highWater.toNat_lt
  rw [UInt64.not_lt, UInt64.le_iff_toNat_le, UInt64.toNat_add]
  omega

/-- The test answers as documented exactly when its sum does not wrap
short. -/
theorem promotable_exact_iff (r : GateReadiness)
    (req : GatePromotionRequirements) (highWater : UInt64) :
    (obicallGateShadowPromotable r req highWater = true
        ↔ ExactlyPromotable r req highWater)
      ↔ ¬ WrapsShort r req highWater := by
  have hsum := sum_lt_iff r.lastProcessedWindowSeq
    req.maxAllowedReplayGap highWater
  rw [shadowPromotable_iff, ExactlyPromotable, WrapsShort]
  by_cases hfit : r.healthy ≠ 0 ∧ r.configDigest = req.requiredConfigDigest
      ∧ r.checkpointSchemaVersion = req.requiredCheckpointSchemaVersion
  · obtain ⟨hhealthy, hdigest, hschema⟩ := hfit
    simp only [hhealthy, hdigest, hschema, true_and, ne_eq,
      not_false_eq_true]
    exact hsum
  · refine iff_of_true (iff_of_false ?_ ?_) ?_
    · exact fun h => hfit ⟨h.1, h.2.1, h.2.2.1⟩
    · exact fun h => hfit ⟨h.1, h.2.1, h.2.2.1⟩
    · exact fun h => hfit ⟨h.1, h.2.1, h.2.2.1⟩

/-- A gate that allows any gap turns a fit shadow away: the sum of window
10 and the gap wraps to 9. -/
theorem any_gap_refused :
    let r : GateReadiness := ⟨1, Vector.replicate 32 0, 1, 10⟩
    let req : GatePromotionRequirements :=
      ⟨Vector.replicate 32 0, 1, 0xFFFFFFFFFFFFFFFF⟩
    obicallGateShadowPromotable r req 10 = false
      ∧ ExactlyPromotable r req 10 := by
  refine ⟨by decide +kernel, by decide, rfl, rfl, by decide⟩

-- =============================================================== failover

/-- The broker that is not the owner is its successor. -/
theorem eq_successor {owner b : UInt32} (howner : IsBroker owner)
    (hb : IsBroker b) (hne : b ≠ owner) : b = successor owner := by
  rcases howner with rfl | rfl
  · rcases hb with rfl | rfl
    · exact absurd rfl hne
    · rfl
  · rcases hb with rfl | rfl
    · rfl
    · exact absurd rfl hne

/-- A broker's last heartbeat is one of the heartbeats. -/
theorem mem_of_lastHeard {b : UInt32} {es : List GateEvent} {t : Int64}
    (h : lastHeard b es = some t) :
    ∃ p ∈ es.filterMap GateEvent.heartbeat, p.2 = t := by
  rw [lastHeard] at h
  obtain ⟨p, hp, rfl⟩ := Option.map_eq_some_iff.mp h
  exact ⟨p, (List.mem_filter.mp (List.mem_of_getLast? hp)).1, rfl⟩

variable {F : Type} [DoubleBits F]

theorem lifeEvents_append (before msgs : List GateEvent)
    (cfg : GateConfig) (t₀ : Int64) (e : GateEvent) :
    lifeEvents before cfg t₀ (msgs ++ [e])
      = lifeEvents before cfg t₀ msgs ++ [e] := by
  rw [lifeEvents, lifeEvents, List.append_assoc, List.cons_append]

/-- One more message of a life. -/
theorem Life.next_ctx {before msgs : List GateEvent} {cfg : GateConfig}
    {t₀ : Int64} {e : GateEvent} (he : e ≠ .crash) {ctx : GateCtx}
    (hctx : (gateRun F (lifeEvents before cfg t₀ msgs)).proc = some ctx) :
    (gateRun F (lifeEvents before cfg t₀ (msgs ++ [e]))).proc
      = some (ctx.next F e) := by
  rw [lifeEvents_append, gateRun, Lib.Run.run_append]
  exact proc_step hctx he

/-- In a life with `confirm_timeout_ns` at least zero and heartbeats at
non-decreasing times, whatever the events before it: an owner changes
only on the heartbeat of the broker that becomes the owner, when the old
owner's last heartbeat is more than the timeout ago. Whatever is not a
broker's heartbeat changes neither epoch nor owner. -/
theorem failover_justified {before msgs : List GateEvent}
    {cfg : GateConfig} {t₀ : Int64} {e : GateEvent}
    (life : Life F before cfg t₀ (msgs ++ [e]))
    (hconfirm : 0 ≤ cfg.confirmTimeoutNs)
    (hclock : ((msgs ++ [e]).filterMap GateEvent.heartbeat).Pairwise
      fun p q => p.2 ≤ q.2)
    {ctx ctx' : GateCtx}
    (hctx : (gateRun F (lifeEvents before cfg t₀ msgs)).proc = some ctx)
    (hctx' : (gateRun F (lifeEvents before cfg t₀ (msgs ++ [e]))).proc
      = some ctx') :
    (ctx.state.ownerBrokerId ≠ brokerNone →
      ctx'.state.ownerBrokerId ≠ ctx.state.ownerBrokerId →
      ∃ hb now t, e.heartbeat = some (hb, now)
        ∧ hb.brokerId = ctx'.state.ownerBrokerId
        ∧ hb.brokerId ≠ ctx.state.ownerBrokerId
        ∧ lastHeard ctx.state.ownerBrokerId msgs = some t
        ∧ t.toInt + cfg.confirmTimeoutNs.toInt < now.toInt)
    ∧ (e.heartbeat = none → ctx'.state.epoch = ctx.state.epoch
        ∧ ctx'.state.ownerBrokerId = ctx.state.ownerBrokerId) := by
  have hne : e ≠ .crash := life.running e (by simp)
  obtain rfl : ctx.next F e = ctx' :=
    Option.some.inj ((Life.next_ctx hne hctx).symm.trans hctx')
  have told : Told cfg msgs ctx :=
    Life.told ⟨life.idle, life.started, fun e' he' =>
      life.running e' (List.mem_append_left _ he')⟩ hctx
  cases he : e.heartbeat with
  | none =>
      have hsame := next_of_not_heartbeat (F := F) he ctx
      refine ⟨fun _ hchange => absurd hsame.owner hchange, fun _ => ?_⟩
      exact ⟨hsame.epoch, hsame.owner⟩
  | some p =>
      obtain ⟨hb, now⟩ := p
      obtain ⟨hbroker, -⟩ := heartbeat_eq_some he
      refine ⟨fun howner hchange => ?_, fun h => nomatch h⟩
      rw [next_of_heartbeat he, GateCtx.promoted] at hchange ⊢
      cases ht : (ctx.noted hb now).promotionTarget now with
      | none =>
          rw [ht] at hchange
          exact absurd rfl hchange
      | some b =>
          have hown : IsBroker ctx.state.ownerBrokerId :=
            @isBroker_of_promotionTarget (ctx.noted hb now) _ _ ht howner
          have hrule := @promotionTarget_of_broker (ctx.noted hb now) now hown
          rw [hrule] at ht
          split at ht
          next hall =>
            obtain rfl : successor ctx.state.ownerBrokerId = b :=
              Option.some.inj ht
            obtain ⟨hknown, hage, -, -⟩ := hall
            have hview := view_noted ctx now hbroker hown
            -- a heartbeat of the owner itself would be of age zero
            have hother : hb.brokerId ≠ ctx.state.ownerBrokerId := by
              intro heq
              rw [if_pos heq.symm] at hview
              have hzero : now - (heartbeatView hb now).lastHeartbeatNs
                  ≤ ctx.confirmTimeoutNs := by
                rw [told.confirm]
                simpa [heartbeatView] using hconfirm
              exact hage (hview ▸ hzero)
            rw [if_neg (Ne.symm hother)] at hview
            have hlast : lastHeard ctx.state.ownerBrokerId msgs
                = some (ctx.view ctx.state.ownerBrokerId).lastHeartbeatNs :=
              (told.heard_iff hown).mpr ⟨hview ▸ hknown, rfl⟩
            obtain ⟨p, hp, hpt⟩ := mem_of_lastHeard hlast
            have hle : p.2 ≤ now := by
              rw [List.filterMap_append] at hclock
              exact (List.pairwise_append.mp hclock).2.2 p hp (hb, now)
                (by simp [he])
            refine ⟨hb, now, _, rfl, ?_, hother, hlast, ?_⟩
            · exact eq_successor hown hbroker hother
            · refine silence_of_age (hpt ▸ hle) ?_
              rw [← told.confirm]
              exact hview ▸ hage
          · cases ht

/-- Broker B's heartbeat, as fit as A's. -/
def heartbeatB : MsgHeartbeat := { heartbeatA with brokerId := brokerB }

/-- A confirm timeout of 700 and no further requirements than A and B
meet. -/
def cfgAB : GateConfig := ⟨Vector.replicate 32 0, 50, 700⟩

/-- Both brokers are heard, A first. -/
def heardBoth : List GateEvent :=
  [.recv msgHeartbeat heartbeatA.bytes 10 true,
    .recv msgHeartbeat heartbeatB.bytes 20 true]

/-- B takes over from A at 900. -/
theorem failover_justified_toB :
    ∃ hb now t, (GateEvent.recv msgHeartbeat heartbeatB.bytes 900
        true).heartbeat = some (hb, now)
      ∧ hb.brokerId = brokerB ∧ lastHeard brokerA heardBoth = some t
      ∧ t.toInt + cfgAB.confirmTimeoutNs.toInt < now.toInt := by
  have hbefore : (gateRun Binary64 (lifeEvents [] cfgAB 0 heardBoth)).proc.map
      (fun ctx => ctx.state.ownerBrokerId) = some brokerA := by
    decide +kernel
  have hafter : (gateRun Binary64 (lifeEvents [] cfgAB 0 (heardBoth
      ++ [.recv msgHeartbeat heartbeatB.bytes 900 true]))).proc.map
      (fun ctx => ctx.state.ownerBrokerId) = some brokerB := by
    decide +kernel
  obtain ⟨ctx, hctx, hA⟩ := Option.map_eq_some_iff.mp hbefore
  obtain ⟨ctx', hctx', hB⟩ := Option.map_eq_some_iff.mp hafter
  have hrun : ∀ e ∈ heardBoth
      ++ [GateEvent.recv msgHeartbeat heartbeatB.bytes 900 true],
      e ≠ .crash := by
    simp [heardBoth]
  obtain ⟨hjust, -⟩ := failover_justified
    ⟨rfl, rfl, hrun⟩ (by decide) (by decide +kernel) hctx hctx'
  obtain ⟨hb, now, t, he, hnew, -, hlast, hage⟩ := hjust
    (by rw [hA]; decide) (by rw [hA, hB]; decide)
  exact ⟨hb, now, t, he, hnew.trans hB, hA ▸ hlast, hage⟩

-- =============================================================== takeover

/-- The owner's heartbeats are missing for more than the timeout,
counted from the later of the last one and the start. -/
def Silent (cfg : GateConfig) (t₀ : Int64) (owner : UInt32)
    (msgs : List GateEvent) (now : Int64) : Prop :=
  ∀ t, t = t₀ ∨ lastHeard owner msgs = some t →
    t.toInt + cfg.confirmTimeoutNs.toInt < now.toInt

/-- A heartbeat that is healthy, of the gate's configuration and within
the replay gap. -/
structure Fit (cfg : GateConfig) (highWater : UInt64) (hb : MsgHeartbeat) :
    Prop where
  healthy : hb.healthy ≠ 0
  digest : hb.configDigest = cfg.configDigest
  schema : hb.checkpointSchemaVersion = checkpointSchemaVersion
  gap : highWater.toNat ≤ hb.lastWindowSeq.toNat + cfg.maxReplayGap.toNat

/-- The owner was heard by this process, and neither the age nor the sum
of the gap test wraps around 64 bits (or so far that the test passes all
the same). -/
structure Replaceable (cfg : GateConfig) (owner : UInt32)
    (highWater : UInt64) (msgs : List GateEvent) (hb : MsgHeartbeat)
    (now : Int64) : Prop where
  age : ∃ t, lastHeard owner msgs = some t
    ∧ (now.toInt - t.toInt < 2 ^ 63
      ∨ cfg.confirmTimeoutNs.toInt + 2 ^ 64 < now.toInt - t.toInt)
  gap : hb.lastWindowSeq.toNat + cfg.maxReplayGap.toNat < 2 ^ 64
    ∨ highWater.toNat + 2 ^ 64
      ≤ hb.lastWindowSeq.toNat + cfg.maxReplayGap.toNat

theorem Fit.promotable_iff {cfg : GateConfig} {highWater : UInt64}
    {hb : MsgHeartbeat} (h : Fit cfg highWater hb) (now : Int64) :
    obicallGateShadowPromotable (heartbeatView hb now).readiness
        cfg.requirements highWater = true
      ↔ ¬ hb.lastWindowSeq + cfg.maxReplayGap < highWater := by
  rw [shadowPromotable_iff]
  constructor
  · rintro ⟨-, -, -, hgap⟩
    exact hgap
  · intro hgap
    exact ⟨h.healthy, h.digest, h.schema, hgap⟩

/-- The promotion rule over a noted heartbeat of the other broker, in
terms of what was heard. -/
theorem promotes_iff_replaceable {cfg : GateConfig}
    {msgs : List GateEvent} {ctx : GateCtx} (told : Told cfg msgs ctx)
    (howner : IsBroker ctx.state.ownerBrokerId) {hb : MsgHeartbeat}
    {t₀ now : Int64} (hbroker : IsBroker hb.brokerId)
    (hother : hb.brokerId ≠ ctx.state.ownerBrokerId)
    (hsilent : Silent cfg t₀ ctx.state.ownerBrokerId msgs now)
    (hfit : Fit cfg ctx.state.committedHighWater hb) :
    (ctx.noted hb now).promotionTarget now = some hb.brokerId
      ↔ Replaceable cfg ctx.state.ownerBrokerId
          ctx.state.committedHighWater msgs hb now := by
  have hview := view_noted ctx now hbroker howner
  rw [if_neg (Ne.symm hother)] at hview
  have hview' := view_noted ctx now hbroker hbroker
  rw [if_pos rfl] at hview'
  have hsucc := eq_successor howner hbroker hother
  have hrule := @promotionTarget_of_broker (ctx.noted hb now) now howner
  rw [hrule]
  show (if ((ctx.noted hb now).view ctx.state.ownerBrokerId).known = true
      ∧ ¬ now - ((ctx.noted hb now).view
          ctx.state.ownerBrokerId).lastHeartbeatNs ≤ ctx.confirmTimeoutNs
      ∧ ((ctx.noted hb now).view
          (successor ctx.state.ownerBrokerId)).known = true
      ∧ obicallGateShadowPromotable ((ctx.noted hb now).view
          (successor ctx.state.ownerBrokerId)).readiness ctx.requirements
          ctx.state.committedHighWater = true
    then some (successor ctx.state.ownerBrokerId) else none)
      = some hb.brokerId ↔ _
  rw [← hsucc, hview, hview', told.requirements, told.confirm,
    Option.ite_none_right_eq_some, and_iff_left rfl,
    hfit.promotable_iff now, gap_iff hfit.gap]
  constructor
  · rintro ⟨hknown, hage, -, hgap⟩
    have hlast := (told.heard_iff howner).mpr ⟨hknown, rfl⟩
    exact ⟨⟨_, hlast, (age_iff (hsilent _ (.inr hlast))).mp hage⟩, hgap⟩
  · rintro ⟨⟨t, hlast, hage⟩, hgap⟩
    obtain ⟨hknown, rfl⟩ := (told.heard_iff howner).mp hlast
    exact ⟨hknown, (age_iff (hsilent _ (.inr hlast))).mpr hage, rfl, hgap⟩

/-- In any state of a running process: the other broker's fit heartbeat
makes it the owner of the next epoch, the owner being silent, exactly
when the owner can be replaced. -/
theorem silent_owner_replaced_iff {before msgs : List GateEvent}
    {cfg : GateConfig} {t₀ : Int64} (life : Life F before cfg t₀ msgs)
    {ctx : GateCtx}
    (hctx : (gateRun F (lifeEvents before cfg t₀ msgs)).proc = some ctx)
    (howner : IsBroker ctx.state.ownerBrokerId) {e : GateEvent}
    {hb : MsgHeartbeat} {now : Int64} (he : e.heartbeat = some (hb, now))
    (hother : hb.brokerId ≠ ctx.state.ownerBrokerId)
    (hsilent : Silent cfg t₀ ctx.state.ownerBrokerId msgs now)
    (hfit : Fit cfg ctx.state.committedHighWater hb) :
    (∃ ctx', (gateRun F (lifeEvents before cfg t₀ (msgs ++ [e]))).proc
          = some ctx'
        ∧ ctx'.state.ownerBrokerId = hb.brokerId
        ∧ ctx'.state.epoch = ctx.state.epoch + 1)
      ↔ Replaceable cfg ctx.state.ownerBrokerId
          ctx.state.committedHighWater msgs hb now := by
  obtain ⟨hbroker, payload, diskOk, hev, -⟩ := heartbeat_eq_some he
  have hne : e ≠ .crash := by
    rw [hev]
    simp
  rw [Life.next_ctx hne hctx, next_of_heartbeat he, GateCtx.promoted,
    ← promotes_iff_replaceable (life.told hctx) howner hbroker hother
      hsilent hfit]
  cases ht : (ctx.noted hb now).promotionTarget now with
  | none =>
      refine iff_of_false ?_ (fun h => nomatch h)
      rintro ⟨ctx', hctx', hnew, -⟩
      obtain rfl := Option.some.inj hctx'
      exact hother hnew.symm
  | some b =>
      constructor
      · rintro ⟨ctx', hctx', hnew, -⟩
        obtain rfl := Option.some.inj hctx'
        exact congrArg some hnew
      · intro hb'
        exact ⟨_, rfl, Option.some.inj hb', rfl⟩

/-- A is silent since 10, B's heartbeat of 900 makes it the owner. -/
theorem silent_owner_replaced_iff_silentA :
    ∃ ctx, (gateRun Binary64 (lifeEvents [] cfgAB 0 heardBoth)).proc
        = some ctx
      ∧ ((∃ ctx', (gateRun Binary64 (lifeEvents [] cfgAB 0 (heardBoth
            ++ [.recv msgHeartbeat heartbeatB.bytes 900 true]))).proc
              = some ctx'
            ∧ ctx'.state.ownerBrokerId = brokerB
            ∧ ctx'.state.epoch = ctx.state.epoch + 1)
        ↔ Replaceable cfgAB ctx.state.ownerBrokerId
            ctx.state.committedHighWater heardBoth heartbeatB 900) := by
  have hbefore : (gateRun Binary64 (lifeEvents [] cfgAB 0 heardBoth)).proc.map
      (fun ctx => (ctx.state.ownerBrokerId, ctx.state.committedHighWater))
      = some (brokerA, 0) := by
    decide +kernel
  obtain ⟨ctx, hctx, hA⟩ := Option.map_eq_some_iff.mp hbefore
  obtain ⟨hown, hhigh⟩ := Prod.mk.inj hA
  have hlast : lastHeard brokerA heardBoth = some 10 := by decide +kernel
  have he : (GateEvent.recv msgHeartbeat heartbeatB.bytes 900
      true).heartbeat = some (heartbeatB, 900) := by
    decide +kernel
  have hother : heartbeatB.brokerId ≠ ctx.state.ownerBrokerId := by
    rw [hown]
    decide
  refine ⟨ctx, hctx, silent_owner_replaced_iff ⟨rfl, rfl, ?_⟩ hctx
    (.inl hown) he hother ?_ ?_⟩
  · simp [heardBoth]
  · rw [hown]
    rintro t (rfl | ht)
    · decide
    · obtain rfl := Option.some.inj (hlast.symm.trans ht)
      decide
  · rw [hhigh]
    exact ⟨by decide, rfl, rfl, by decide⟩

/-- A gate that is started again on the file that makes A the owner, and
hears nothing from A: B's heartbeat of any later time is not enough. -/
theorem loaded_owner_stays :
    let before : List GateEvent :=
      [.start cfgAB 0, .recv msgHeartbeat heartbeatA.bytes 10 true, .crash]
    let e : GateEvent := .recv msgHeartbeat heartbeatB.bytes 1000000 true
    (gateRun Binary64 before).proc = none
    ∧ (gateRun Binary64 (lifeEvents before cfgAB 20 [])).proc.map
        (fun ctx => (ctx.state.epoch, ctx.state.ownerBrokerId,
          ctx.state.committedHighWater)) = some (1, brokerA, 0)
    ∧ e.heartbeat = some (heartbeatB, 1000000)
    ∧ Silent cfgAB 20 brokerA [] 1000000 ∧ Fit cfgAB 0 heartbeatB
    ∧ (gateRun Binary64 (lifeEvents before cfgAB 20 [e])).proc.map
        (fun ctx => (ctx.state.epoch, ctx.state.ownerBrokerId))
      = some (1, brokerA) := by
  refine ⟨rfl, by decide +kernel, by decide +kernel, ?_,
    ⟨by decide, rfl, rfl, by decide⟩, by decide +kernel⟩
  rintro t (rfl | ht)
  · decide
  · cases ht

end Obicall
