/-
What the gate knew of a broker when it made it the owner.

A failover asks `obicall_gate_shadow_promotable` and so for the gate's
own configuration; the first grant asks for a healthy heartbeat of broker
A only. Every grant of a life, and with it every commit, is compatible
exactly when that first healthy heartbeat is (`allCompatible_iff`).
-/
import Mathlib.Data.List.Basic
import Mathlib.Data.List.Induction
import Obicall.Gate.Proofs.Failover

namespace Obicall

-- ================================================================ grants

/-- A readiness that is healthy and of the gate's configuration. -/
structure Compatible (cfg : GateConfig) (r : GateReadiness) : Prop where
  healthy : r.healthy ≠ 0
  digest : r.configDigest = cfg.configDigest
  schema : r.checkpointSchemaVersion = Obicall.checkpointSchemaVersion

/-- A life's state after some of its messages. -/
def LifeCtx (F : Type) [DoubleBits F] (before : List GateEvent)
    (cfg : GateConfig) (t₀ : Int64) (msgs : List GateEvent)
    (ctx : GateCtx) : Prop :=
  (gateRun F (lifeEvents before cfg t₀ msgs)).proc = some ctx

/-- Handling `e` after `pre` makes `broker` the owner of `epoch`, and
`readiness` is what the gate holds of it at that moment. -/
def Grants (F : Type) [DoubleBits F] (before : List GateEvent)
    (cfg : GateConfig) (t₀ : Int64) (pre : List GateEvent) (e : GateEvent)
    (epoch : UInt64) (broker : UInt32) (readiness : GateReadiness) :
    Prop :=
  ∃ ctx ctx', LifeCtx F before cfg t₀ pre ctx
    ∧ LifeCtx F before cfg t₀ (pre ++ [e]) ctx'
    ∧ ctx'.state.epoch ≠ ctx.state.epoch
    ∧ ctx'.state.epoch = epoch ∧ ctx'.state.ownerBrokerId = broker
    ∧ (ctx'.view broker).readiness = readiness

/-- Handling `e` after `pre` commits `r`. -/
def CommitsAt (before : List GateEvent) (cfg : GateConfig) (t₀ : Int64)
    (pre : List GateEvent) (e : GateEvent) {F : Type} [DoubleBits F]
    (r : Result F) : Prop :=
  ∃ ctx payload now diskOk, LifeCtx F before cfg t₀ pre ctx
    ∧ e = .recv msgResultPublish payload now diskOk
    ∧ obicallWireDecodeResult payload = (.ok, r)
    ∧ (obicallGateDecidePublish ctx.state r now).1 = .commit

/-- Every grant of the life is compatible, and every commit is under a
grant made in it that was. -/
structure AllCompatible (F : Type) [DoubleBits F]
    (before : List GateEvent) (cfg : GateConfig) (t₀ : Int64)
    (msgs : List GateEvent) : Prop where
  grants : ∀ pre e epoch broker readiness, pre ++ [e] <+: msgs →
    Grants F before cfg t₀ pre e epoch broker readiness →
    Compatible cfg readiness
  commits : ∀ pre e, ∀ r : Result F, pre ++ [e] <+: msgs →
    CommitsAt before cfg t₀ pre e r →
    ∃ pre' e' readiness, pre' ++ [e'] <+: pre
      ∧ Grants F before cfg t₀ pre' e' r.epoch r.brokerId readiness
      ∧ Compatible cfg readiness

/-- The first healthy heartbeat of broker A, if there is one, is of the
gate's configuration. -/
def FirstHealthyFits (cfg : GateConfig) (msgs : List GateEvent) : Prop :=
  ∀ pre e hb now, pre ++ [e] <+: msgs → e.heartbeat = some (hb, now) →
    hb.brokerId = brokerA → hb.healthy ≠ 0 →
    (∀ p ∈ heartbeatsFrom brokerA pre, p.1.healthy = 0) →
    hb.configDigest = cfg.configDigest
      ∧ hb.checkpointSchemaVersion = checkpointSchemaVersion

-- =============================================================== one step

variable {F : Type} [DoubleBits F]

/-- What an event does to the grant: it is no heartbeat, or one on which
no promotion is due, or one on which a broker is promoted. -/
theorem next_cases (ctx : GateCtx) (e : GateEvent) :
    (e.heartbeat = none ∧ ctx.SameGrant (ctx.next F e)) ∨
    (∃ hb now, e.heartbeat = some (hb, now)
      ∧ (ctx.noted hb now).promotionTarget now = none
      ∧ ctx.next F e = ctx.noted hb now) ∨
    ∃ hb now b, e.heartbeat = some (hb, now)
      ∧ (ctx.noted hb now).promotionTarget now = some b
      ∧ ctx.next F e = { ctx.noted hb now with
          state := obicallGatePromote ctx.state b } := by
  cases he : e.heartbeat with
  | none => exact .inl ⟨rfl, next_of_not_heartbeat he ctx⟩
  | some p =>
      obtain ⟨hb, now⟩ := p
      rw [next_of_heartbeat he, GateCtx.promoted]
      cases ht : (ctx.noted hb now).promotionTarget now with
      | none => exact .inr (.inl ⟨hb, now, rfl, ht, rfl⟩)
      | some b => exact .inr (.inr ⟨hb, now, b, rfl, ht, rfl⟩)

/-- A failover is to a compatible broker. -/
theorem compatible_of_failover {cfg : GateConfig} {msgs : List GateEvent}
    {ctx : GateCtx} (told : Told cfg msgs ctx) {hb : MsgHeartbeat}
    {now : Int64} {b : UInt32}
    (hne : ctx.state.ownerBrokerId ≠ brokerNone)
    (h : (ctx.noted hb now).promotionTarget now = some b) :
    Compatible cfg ((ctx.noted hb now).view b).readiness := by
  have howner : IsBroker ctx.state.ownerBrokerId :=
    @isBroker_of_promotionTarget (ctx.noted hb now) _ _ h hne
  rw [@promotionTarget_of_broker (ctx.noted hb now) now howner] at h
  split at h
  next hall =>
    obtain ⟨-, -, -, hfit⟩ := hall
    obtain rfl := Option.some.inj h
    have hreq : (ctx.noted hb now).requirements = cfg.requirements :=
      told.requirements
    rw [hreq] at hfit
    obtain ⟨hhealthy, hdigest, hschema, -⟩ := shadowPromotable_iff.mp hfit
    exact ⟨hhealthy, hdigest, hschema⟩
  · cases h

omit [DoubleBits F] in
/-- While a broker's heartbeats were all unhealthy, its view is a
healthy one exactly when the one heartbeat more is. -/
theorem viewAfter_healthy {hbs new : List (MsgHeartbeat × Int64)}
    (hnew : new.length ≤ 1) (hold : ∀ p ∈ hbs, p.1.healthy = 0) :
    ((viewAfter (hbs ++ new)).known = true
        ∧ (viewAfter (hbs ++ new)).readiness.healthy ≠ 0)
      ↔ ¬ ∀ p ∈ hbs ++ new, p.1.healthy = 0 := by
  match new, hnew with
  | [], _ =>
      rw [List.append_nil]
      refine iff_of_false ?_ (not_not.mpr hold)
      rintro ⟨-, hhealthy⟩
      rw [viewAfter] at hhealthy
      cases hlast : hbs.getLast? with
      | none =>
          rw [hlast] at hhealthy
          exact hhealthy rfl
      | some p =>
          rw [hlast] at hhealthy
          exact hhealthy (hold p (List.mem_of_getLast? hlast))
  | [p], _ =>
      rw [viewAfter, List.getLast?_concat]
      constructor
      · rintro ⟨-, hhealthy⟩ hall
        exact hhealthy (hall p (by simp))
      · intro hnot
        refine ⟨rfl, fun hzero => hnot ?_⟩
        have hp : p.1.healthy = 0 := hzero
        rw [List.forall_mem_append]
        exact ⟨hold, by simpa using hp⟩

theorem successor_ne_none (owner : UInt32) :
    successor owner ≠ brokerNone := by
  rw [successor]
  split
  · decide
  · split
    · decide
    · decide

theorem epoch_succ_ne (epoch : UInt64) : epoch + 1 ≠ epoch := by
  intro h
  have hnat := congrArg UInt64.toNat h
  rw [UInt64.toNat_add] at hnat
  have hlt := epoch.toNat_lt
  have hone : (1 : UInt64).toNat = 1 := rfl
  omega

-- ================================================================ a life

/-- What holds in a life that began without a state file: the process
knows what it was told, nobody owns the gate until broker A was healthy,
and an owner's grant is part of the life. -/
structure Fresh (F : Type) [DoubleBits F] (before : List GateEvent)
    (cfg : GateConfig) (t₀ : Int64) (es : List GateEvent) (ctx : GateCtx) :
    Prop extends Told cfg es ctx where
  here : LifeCtx F before cfg t₀ es ctx
  unowned : ctx.state.ownerBrokerId = brokerNone
    ↔ ∀ p ∈ heartbeatsFrom brokerA es, p.1.healthy = 0
  granted : ctx.state.ownerBrokerId ≠ brokerNone →
    ∃ pre e readiness, pre ++ [e] <+: es
      ∧ Grants F before cfg t₀ pre e ctx.state.epoch
          ctx.state.ownerBrokerId readiness

variable {before : List GateEvent} {cfg : GateConfig} {t₀ : Int64}

/-- Without an owner, a heartbeat makes broker A the owner exactly when
it is the first healthy one. -/
theorem Fresh.first_grant {es : List GateEvent} {ctx : GateCtx}
    (h : Fresh F before cfg t₀ es ctx) {e : GateEvent} {hb : MsgHeartbeat}
    {now : Int64} (he : e.heartbeat = some (hb, now))
    (hnone : ctx.state.ownerBrokerId = brokerNone) :
    (ctx.noted hb now).promotionTarget now
      = if ∀ p ∈ heartbeatsFrom brokerA (es ++ [e]), p.1.healthy = 0
        then none else some brokerA := by
  have htold := h.noted he
  have hview := htold.view brokerA (.inl rfl)
  have hone : (e.heartbeat.toList.filter fun p =>
      p.1.brokerId = brokerA).length ≤ 1 := by
    rw [he]
    exact List.length_filter_le ..
  have hhealthy := viewAfter_healthy hone (h.unowned.mp hnone)
  rw [← heartbeatsFrom_append] at hhealthy
  rw [@promotionTarget_of_none (ctx.noted hb now) now hnone, hview]
  by_cases hall : ∀ p ∈ heartbeatsFrom brokerA (es ++ [e]),
      p.1.healthy = 0
  · rw [if_pos hall, if_neg fun hfit => hhealthy.mp hfit hall]
  · rw [if_neg hall, if_pos (hhealthy.mpr hall)]

theorem fresh_next {es : List GateEvent} {ctx : GateCtx} {e : GateEvent}
    (he : e ≠ .crash) (h : Fresh F before cfg t₀ es ctx) :
    Fresh F before cfg t₀ (es ++ [e]) (ctx.next F e) := by
  have hhere : LifeCtx F before cfg t₀ (es ++ [e]) (ctx.next F e) :=
    Life.next_ctx he h.here
  have hgrow : heartbeatsFrom brokerA (es ++ [e])
      = heartbeatsFrom brokerA es
        ++ (e.heartbeat.toList.filter fun p => p.1.brokerId = brokerA) :=
    heartbeatsFrom_append ..
  have hold : ∀ {ctx' : GateCtx},
      ctx'.state.epoch = ctx.state.epoch →
      ctx'.state.ownerBrokerId = ctx.state.ownerBrokerId →
      ctx'.state.ownerBrokerId ≠ brokerNone →
      ∃ pre e' readiness, pre ++ [e'] <+: es ++ [e]
        ∧ Grants F before cfg t₀ pre e' ctx'.state.epoch
            ctx'.state.ownerBrokerId readiness := by
    intro ctx' hepoch howner hne
    rw [hepoch, howner] at *
    obtain ⟨pre, e', readiness, hpre, hgrant⟩ := h.granted hne
    exact ⟨pre, e', readiness, hpre.trans (List.prefix_append ..), hgrant⟩
  rcases next_cases (F := F) ctx e with ⟨hnot, hsame⟩ |
    ⟨hb, now, hheart, ht, hnext⟩ | ⟨hb, now, b, hheart, ht, hnext⟩
  · refine ⟨h.next e, hhere, ?_, hold hsame.epoch hsame.owner⟩
    rw [hsame.owner, hgrow, hnot, Option.toList_none, List.filter_nil,
      List.append_nil]
    exact h.unowned
  · have howner : (ctx.next F e).state.ownerBrokerId
        = ctx.state.ownerBrokerId := by
      rw [hnext]
      rfl
    refine ⟨h.next e, hhere, ?_, hold (by rw [hnext]; rfl) howner⟩
    rw [howner]
    by_cases hnone : ctx.state.ownerBrokerId = brokerNone
    · rw [h.first_grant hheart hnone] at ht
      refine iff_of_true hnone ?_
      by_contra hall
      rw [if_neg hall] at ht
      cases ht
    · refine iff_of_false hnone fun hall => hnone (h.unowned.mpr ?_)
      rw [hgrow] at hall
      exact (List.forall_mem_append.mp hall).1
  · have howner : (ctx.next F e).state.ownerBrokerId = b := by
      rw [hnext]
      rfl
    refine ⟨h.next e, hhere, iff_of_false ?_ ?_, fun _ => ?_⟩
    · rw [howner, @promotionTarget_eq (ctx.noted hb now) _ _ ht]
      exact successor_ne_none _
    · intro hall
      by_cases hnone : ctx.state.ownerBrokerId = brokerNone
      · rw [h.first_grant hheart hnone, if_pos hall] at ht
        cases ht
      · rw [hgrow] at hall
        exact hnone (h.unowned.mpr (List.forall_mem_append.mp hall).1)
    · refine ⟨es, e, _, List.prefix_rfl, ctx, _, h.here, hhere, ?_, rfl,
        rfl, rfl⟩
      rw [hnext]
      exact epoch_succ_ne _

-- ================================================================= result

/-- A life that began without a state file is fresh throughout. -/
theorem Life.fresh {msgs : List GateEvent} (life : Life F before cfg t₀ msgs)
    (hfile : (gateRun F before).file = none) {pre : List GateEvent}
    (hpre : pre <+: msgs) :
    ∃ ctx, Fresh F before cfg t₀ pre ctx := by
  obtain ⟨boot, hboot⟩ := Option.isSome_iff_exists.mp life.started
  have hhere : LifeCtx F before cfg t₀ [] boot := by
    rw [LifeCtx, lifeEvents, gateRun, Lib.Run.run_append,
      Lib.Run.run_cons, Lib.Run.run_nil, ← gateRun]
    simp only [GateSys.step, life.idle, hboot]
  have hzero : boot.state.ownerBrokerId = brokerNone := by
    rw [hfile] at hboot
    obtain rfl := Option.some.inj hboot
    rfl
  have hfresh : Fresh F before cfg t₀ [] boot :=
    ⟨told_boot hboot, hhere, iff_of_true hzero (by simp [heartbeatsFrom]),
      fun hne => absurd hzero hne⟩
  exact ⟨_, Lib.Run.run_trace (fun _ _ _ he h => fresh_next he h) hfresh
    fun e he => life.running e (hpre.subset he)⟩

omit [DoubleBits F] in
/-- The heartbeat that is new among an event's. -/
theorem mem_new_heartbeat {b : UInt32} {e : GateEvent}
    {p : MsgHeartbeat × Int64}
    (h : p ∈ e.heartbeat.toList.filter fun p => p.1.brokerId = b) :
    e.heartbeat = some p ∧ p.1.brokerId = b := by
  obtain ⟨hmem, hb⟩ := List.mem_filter.mp h
  exact ⟨Option.mem_toList.mp hmem, of_decide_eq_true hb⟩

/-- Before the first healthy heartbeat of A nobody owns the gate; on it A
is granted the next epoch, with what that heartbeat says. -/
theorem Fresh.grants_first {pre : List GateEvent} {ctx : GateCtx}
    (h : Fresh F before cfg t₀ pre ctx) {e : GateEvent} {hb : MsgHeartbeat}
    {now : Int64} (he : e.heartbeat = some (hb, now))
    (hA : hb.brokerId = brokerA) (hhealthy : hb.healthy ≠ 0)
    (hold : ∀ p ∈ heartbeatsFrom brokerA pre, p.1.healthy = 0) :
    Grants F before cfg t₀ pre e (ctx.state.epoch + 1) brokerA
      (heartbeatView hb now).readiness := by
  obtain ⟨hbroker, _, _, hev, -⟩ := heartbeat_eq_some he
  have hne : e ≠ .crash := by
    rw [hev]
    simp
  have hmem : (hb, now) ∈ heartbeatsFrom brokerA (pre ++ [e]) := by
    rw [heartbeatsFrom_append, he]
    simp [hA]
  have ht := h.first_grant he (h.unowned.mpr hold)
  rw [if_neg fun hall => hhealthy (hall _ hmem)] at ht
  have hview := view_noted ctx now hbroker (.inl rfl : IsBroker brokerA)
  rw [if_pos hA.symm] at hview
  refine ⟨ctx, _, h.here, Life.next_ctx hne h.here, ?_⟩
  rw [next_of_heartbeat he, GateCtx.promoted, ht]
  exact ⟨epoch_succ_ne _, rfl, rfl, congrArg BrokerView.readiness hview⟩

/-- A grant is compatible when the first healthy heartbeat of A is. -/
theorem Fresh.grant_compatible {pre : List GateEvent} {ctx : GateCtx}
    (h : Fresh F before cfg t₀ pre ctx) {e : GateEvent} (hne : e ≠ .crash)
    (hfits : FirstHealthyFits cfg (pre ++ [e])) {epoch : UInt64}
    {broker : UInt32} {readiness : GateReadiness}
    (hgrant : Grants F before cfg t₀ pre e epoch broker readiness) :
    Compatible cfg readiness := by
  obtain ⟨ctx₀, ctx', hctx, hctx', hepoch, rfl, rfl, rfl⟩ := hgrant
  obtain rfl : ctx = ctx₀ := Option.some.inj (h.here.symm.trans hctx)
  obtain rfl : ctx.next F e = ctx' :=
    Option.some.inj ((Life.next_ctx hne h.here).symm.trans hctx')
  rcases next_cases (F := F) ctx e with ⟨-, hsame⟩ |
    ⟨hb, now, -, -, hnext⟩ | ⟨hb, now, b, hheart, ht, hnext⟩
  · exact absurd hsame.epoch hepoch
  · exact absurd (by rw [hnext]; rfl) hepoch
  · rw [hnext]
    show Compatible cfg ((ctx.noted hb now).view b).readiness
    by_cases hnone : ctx.state.ownerBrokerId = brokerNone
    · obtain ⟨hbroker, -⟩ := heartbeat_eq_some hheart
      have hold := h.unowned.mp hnone
      rw [h.first_grant hheart hnone] at ht
      split at ht
      · cases ht
      next hsome =>
        obtain rfl := Option.some.inj ht
        rw [heartbeatsFrom_append, List.forall_mem_append,
          not_and] at hsome
        -- the healthy one is new: it is the heartbeat being handled
        obtain ⟨p, hp⟩ := not_forall.mp (hsome hold)
        obtain ⟨hmem, hhealthy⟩ := Classical.not_imp.mp hp
        obtain ⟨hp', hA⟩ := mem_new_heartbeat hmem
        obtain rfl : (hb, now) = p :=
          Option.some.inj (hheart.symm.trans hp')
        obtain ⟨hdigest, hschema⟩ :=
          hfits pre e hb now List.prefix_rfl hheart hA hhealthy hold
        have hview := view_noted ctx now hbroker
          (.inl rfl : IsBroker brokerA)
        rw [if_pos hA.symm] at hview
        rw [hview]
        exact ⟨hhealthy, hdigest, hschema⟩
    · exact compatible_of_failover h.toTold hnone ht

/-- In a life that began without a state file all grants and commits are
compatible exactly when broker A's first healthy heartbeat is. -/
theorem allCompatible_iff {msgs : List GateEvent}
    (life : Life F before cfg t₀ msgs)
    (hfile : (gateRun F before).file = none) :
    AllCompatible F before cfg t₀ msgs ↔ FirstHealthyFits cfg msgs := by
  constructor
  · intro hall pre e hb now hpre he hA hhealthy hold
    obtain ⟨ctx, hfresh⟩ := life.fresh hfile
      ((List.prefix_append pre [e]).trans hpre)
    have hcompat := hall.grants _ _ _ _ _ hpre
      (hfresh.grants_first he hA hhealthy hold)
    exact ⟨hcompat.digest, hcompat.schema⟩
  · intro hfits
    have hgrants : ∀ pre e epoch broker readiness, pre ++ [e] <+: msgs →
        Grants F before cfg t₀ pre e epoch broker readiness →
        Compatible cfg readiness := by
      intro pre e epoch broker readiness hpre hgrant
      obtain ⟨ctx, hfresh⟩ := life.fresh hfile
        ((List.prefix_append pre [e]).trans hpre)
      have hne : e ≠ .crash := life.running e (hpre.subset (by simp))
      exact hfresh.grant_compatible hne
        (fun pre' e' hb now hpre' => hfits pre' e' hb now
          (hpre'.trans hpre)) hgrant
    refine ⟨hgrants, fun pre e r hpre hcommit => ?_⟩
    obtain ⟨ctx, payload, now, diskOk, hctx, -, -, hout⟩ := hcommit
    have hprefix := (List.prefix_append pre [e]).trans hpre
    obtain ⟨ctx₀, hfresh⟩ := life.fresh hfile hprefix
    obtain rfl : ctx₀ = ctx := Option.some.inj (hfresh.here.symm.trans hctx)
    cases hd : obicallGateDecidePublish ctx₀.state r now with
    | mk o rest =>
      obtain ⟨i, s'⟩ := rest
      rw [hd] at hout
      obtain rfl : o = .commit := hout
      have hcommit := decide_commit hd
      obtain ⟨pre', e', readiness, hpre', hgrant⟩ :=
        hfresh.granted hcommit.owned
      have hepoch : r.epoch = ctx₀.state.epoch :=
        UInt64.toNat_inj.mp hcommit.admits.epoch
      have howner : r.brokerId = ctx₀.state.ownerBrokerId :=
        hcommit.admits.owner
      rw [← hepoch, ← howner] at hgrant
      exact ⟨pre', e', readiness, hpre', hgrant,
        hgrants _ _ _ _ _ (hpre'.trans hprefix) hgrant⟩

theorem allCompatible_iff_heardBoth :
    AllCompatible Binary64 [] cfgAB 0 heardBoth
      ↔ FirstHealthyFits cfgAB heardBoth :=
  allCompatible_iff ⟨rfl, rfl, by simp [heardBoth]⟩ rfl

/-- Broker A, healthy but of another configuration. -/
def foreignA : MsgHeartbeat :=
  { heartbeatA with configDigest := Vector.replicate 32 1 }

/-- It is granted the first epoch, and its result is committed. -/
theorem foreign_owner_commits :
    ¬ AllCompatible Binary64 [] cfgAB 0
      [.recv msgHeartbeat foreignA.bytes 10 true]
    ∧ CommitsAt [] cfgAB 0 [.recv msgHeartbeat foreignA.bytes 10 true]
      (.recv msgResultPublish resultA.bytes 20 true) resultA := by
  have hheart : (GateEvent.recv msgHeartbeat foreignA.bytes 10
      true).heartbeat = some (foreignA, 10) := by
    decide +kernel
  constructor
  · intro hall
    have life : Life Binary64 [] cfgAB 0
        [.recv msgHeartbeat foreignA.bytes 10 true] :=
      ⟨rfl, rfl, by simp⟩
    obtain ⟨ctx, hfresh⟩ := life.fresh rfl (List.nil_prefix)
    have hgrant := hfresh.grants_first hheart rfl (by decide)
      (by simp [heartbeatsFrom])
    have hcompat := hall.grants [] _ _ _ _ List.prefix_rfl hgrant
    exact absurd hcompat.digest (by decide)
  · have hafter : (gateRun Binary64 (lifeEvents [] cfgAB 0
        [.recv msgHeartbeat foreignA.bytes 10 true])).proc.map
        (fun ctx => (obicallGateDecidePublish ctx.state resultA 20).1)
        = some .commit := by
      decide +kernel
    obtain ⟨ctx, hctx, hout⟩ := Option.map_eq_some_iff.mp hafter
    exact ⟨ctx, resultA.bytes, 20, true, hctx, rfl, by decide +kernel, hout⟩

end Obicall
