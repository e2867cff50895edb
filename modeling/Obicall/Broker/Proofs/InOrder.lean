/-
What the reader decodes is what the main loop processes, while the queue
has room.

The queue refines a list (`Lib.Fifo`): what has been processed, the rest
of the batch and the queued entries are, in this order, everything that
was decoded. A pair completed while 511 entries are queued is dropped,
and once an entry is missing it stays missing: so the sequences agree in
a run exactly when no pair of it finds the queue full
(`processed_in_order_iff`).
-/
import Mathlib.Data.List.Basic
import Obicall.Broker.Intake
import Obicall.Core.Observation

namespace Obicall

open Lib.Fifo Lib.Run

variable {F : Type} [DoubleBits F]

-- ============================================================= statement

/-- Everything on its way through the broker, oldest first. -/
def Intake.pipeline (s : Intake F) : List (QueueEntry F) :=
  s.processed ++ (s.batch ++ s.queue.contents)

/-- The main loop has processed what was decoded, in order, and will
process the rest: nothing is missing and nothing is repeated. -/
def Intake.InOrder (s : Intake F) : Prop := s.pipeline = s.decoded

/-- A pair that an event completes finds room in the queue. -/
def hasRoom (s : Intake F) : IntakeEvent → Bool
  | .frame msgType payload =>
      (s.reader.frame msgType payload).1.isNone || !s.queue.full
  | _ => true

-- ================================================================= steps

/-- Taking a batch moves entries and loses none. -/
theorem step_drain (s : Intake F) :
    (s.step .drain).pipeline = s.pipeline
    ∧ (s.step .drain).decoded = s.decoded := by
  unfold Intake.step
  dsimp only
  split
  next hbatch =>
    obtain ⟨hxs, hrest⟩ := drain_eq queueCap s.queue
      (Nat.le_of_lt (length_contents_lt s.queue))
    refine ⟨?_, rfl⟩
    unfold Intake.pipeline
    dsimp only
    rw [hxs, hrest, hbatch, List.append_nil, List.nil_append]
  · exact ⟨rfl, rfl⟩

/-- So does processing one. -/
theorem step_process (s : Intake F) :
    (s.step .process).pipeline = s.pipeline
    ∧ (s.step .process).decoded = s.decoded := by
  unfold Intake.step
  dsimp only
  split
  · exact ⟨rfl, rfl⟩
  next entry batch hbatch =>
    refine ⟨?_, rfl⟩
    unfold Intake.pipeline
    dsimp only
    rw [hbatch, List.append_assoc]
    rfl

/-- A step moves entries along, or decodes one and puts it. -/
theorem intake_step_cases (s : Intake F) (e : IntakeEvent) :
    ((s.step e).pipeline = s.pipeline ∧ (s.step e).decoded = s.decoded
      ∧ hasRoom s e = true)
    ∨ ∃ entry, (s.step e).decoded = s.decoded ++ [entry]
      ∧ hasRoom s e = !s.queue.full
      ∧ (s.step e).pipeline
        = s.processed ++ (s.batch ++ (s.queue.put entry).contents) := by
  cases e with
  | drain =>
      obtain ⟨hp, hd⟩ := step_drain s
      exact .inl ⟨hp, hd, rfl⟩
  | process =>
      obtain ⟨hp, hd⟩ := step_process s
      exact .inl ⟨hp, hd, rfl⟩
  | frame msgType payload =>
      unfold Intake.step hasRoom
      dsimp only
      cases s.reader.frame msgType payload with
      | mk entry r =>
          cases entry with
          | none => exact .inl ⟨rfl, rfl, rfl⟩
          | some entry => exact .inr ⟨entry, rfl, rfl, rfl⟩

/-- With room, a completed pair joins the pipeline. -/
theorem Intake.InOrder.step {s : Intake F} (h : s.InOrder)
    {e : IntakeEvent} (hroom : hasRoom s e = true) :
    (s.step e).InOrder := by
  unfold Intake.InOrder at h ⊢
  rcases intake_step_cases s e with ⟨hp, hd, _⟩ | ⟨entry, hd, hfull, hp⟩
  · rw [hp, hd, h]
  · rw [hroom] at hfull
    have hnot : s.queue.full = false := by
      cases hq : s.queue.full with
      | false => rfl
      | true =>
          rw [hq] at hfull
          cases hfull
    rw [hp, hd, put_contents hnot, ← h]
    unfold Intake.pipeline
    rw [List.append_assoc, List.append_assoc]

/-- Some decoded entry is missing. -/
def Intake.Behind (s : Intake F) : Prop :=
  s.pipeline.length < s.decoded.length

omit [DoubleBits F] in
theorem Intake.InOrder.not_behind {s : Intake F} (h : s.InOrder) :
    ¬ s.Behind := by
  unfold Intake.Behind
  have hlen : s.pipeline.length = s.decoded.length := congrArg _ h
  omega

/-- What is missing stays missing: a step that decodes one more entry
puts at most one more. -/
theorem Intake.Behind.step {s : Intake F} (h : s.Behind)
    (e : IntakeEvent) : (s.step e).Behind := by
  unfold Intake.Behind at h ⊢
  rcases intake_step_cases s e with ⟨hp, hd, _⟩ | ⟨entry, hd, _, hp⟩
  · rw [hp, hd]
    exact h
  · have hput := length_put_contents_le s.queue entry
    unfold Intake.pipeline at h
    rw [hp, hd]
    simp only [List.length_append, List.length_singleton] at h ⊢
    omega

/-- A pair that finds no room is missing from then on. -/
theorem Intake.InOrder.behind {s : Intake F} (h : s.InOrder)
    {e : IntakeEvent} (hroom : hasRoom s e = false) :
    (s.step e).Behind := by
  have hlen : s.pipeline.length = s.decoded.length := congrArg _ h
  unfold Intake.Behind
  rcases intake_step_cases s e with ⟨_, _, hyes⟩ | ⟨entry, hd, hfull, hp⟩
  · rw [hroom] at hyes
    cases hyes
  · rw [hroom] at hfull
    have hyes : s.queue.full = true := by
      cases hq : s.queue.full with
      | true => rfl
      | false =>
          rw [hq] at hfull
          cases hfull
    have hsame : (s.step e).pipeline = s.pipeline := by
      rw [hp, put_of_full hyes]
      rfl
    rw [hsame, hd, hlen, List.length_append]
    exact Nat.lt_succ_self _

-- ================================================================== runs

/-- From a state in order, a run ends in order exactly when every pair of
it found room. -/
theorem inOrder_run_iff {s : Intake F} (h : s.InOrder)
    (es : List IntakeEvent) :
    (intakeRun s es).InOrder
      ↔ Meets Intake.step (fun s e => hasRoom s e = true) s es := by
  induction es generalizing s with
  | nil => exact iff_of_true h trivial
  | cons e es ih =>
      show (intakeRun (s.step e) es).InOrder ↔ hasRoom s e = true ∧ _
      cases hroom : hasRoom s e with
      | true =>
          rw [ih (h.step hroom)]
          exact (and_iff_right rfl).symm
      | false =>
          have hbehind : (intakeRun (s.step e) es).Behind :=
            run_inv (fun _ e hs => hs.step e) (h.behind hroom) es
          exact iff_of_false (fun hin => hin.not_behind hbehind)
            fun hmeets => Bool.false_ne_true hmeets.1

theorem inOrder_start : (Intake.start F).InOrder := by
  unfold Intake.InOrder Intake.pipeline Intake.start
  rw [contents_empty]
  rfl

/-- The main loop processes exactly what the reader decoded, in order, in
the runs where no pair is completed while the queue is full, and in no
others. -/
theorem processed_in_order_iff (es : List IntakeEvent) :
    (intakeRun (Intake.start F) es).InOrder
      ↔ Meets Intake.step (fun s e => hasRoom s e = true)
        (Intake.start F) es :=
  inOrder_run_iff inOrder_start es

-- ======================================================== counterexample

/-- The two frames of one window, as the journal sends them. -/
def pairFrames (obs : Observation F) (dec : MsgAdmissionDecision) :
    List IntakeEvent :=
  [.frame msgReplayData obs.bytes, .frame msgAdmissionDecision dec.bytes]

/-- A burst of `n` windows. -/
def burst (obs : Observation F) (dec : MsgAdmissionDecision) (n : Nat) :
    List IntakeEvent :=
  (List.replicate n (pairFrames obs dec)).flatten

/-- One window of a burst is decoded, and stays with the reader or in
the queue. -/
theorem run_pairFrames {obs : Observation F} (hobs : obs.Encodable)
    (dec : MsgAdmissionDecision) (s : Intake F) :
    (intakeRun s (pairFrames obs dec)).decoded.length = s.decoded.length + 1
    ∧ (intakeRun s (pairFrames obs dec)).batch = s.batch
    ∧ (intakeRun s (pairFrames obs dec)).processed = s.processed := by
  have hdata : s.reader.frame msgReplayData obs.bytes
      = (none, ⟨obs.normalize, true⟩) := by
    unfold Reader.frame
    rw [if_pos rfl, obicallWireDecodeObservation_bytes hobs]
    rfl
  have hdec : Reader.frame ⟨obs.normalize, true⟩ msgAdmissionDecision dec.bytes
      = (some ⟨dec.windowSeq, obs.normalize, dec.admitted⟩,
        ⟨obs.normalize, false⟩) := by
    unfold Reader.frame
    rw [if_neg (by decide), if_pos (by rfl),
      obicallWireDecodeAdmissionDecision_bytes]
  have hrun : intakeRun s (pairFrames obs dec)
      = (s.step (.frame msgReplayData obs.bytes)).step
        (.frame msgAdmissionDecision dec.bytes) := rfl
  have hfirst : s.step (.frame msgReplayData obs.bytes)
      = { s with reader := ⟨obs.normalize, true⟩ } := by
    unfold Intake.step
    dsimp only
    rw [hdata]
  rw [hrun, hfirst]
  unfold Intake.step
  dsimp only
  rw [hdec]
  exact ⟨List.length_append, rfl, rfl⟩

/-- A burst that the main loop does not get to. -/
theorem run_burst {obs : Observation F} (hobs : obs.Encodable)
    (dec : MsgAdmissionDecision) (n : Nat) (s : Intake F) :
    (intakeRun s (burst obs dec n)).decoded.length = s.decoded.length + n
    ∧ (intakeRun s (burst obs dec n)).batch = s.batch
    ∧ (intakeRun s (burst obs dec n)).processed = s.processed := by
  induction n generalizing s with
  | zero => exact ⟨rfl, rfl, rfl⟩
  | succ n ih =>
      have hrun : intakeRun s (burst obs dec (n + 1))
          = intakeRun (intakeRun s (pairFrames obs dec)) (burst obs dec n) := by
        unfold burst intakeRun
        rw [List.replicate_succ, List.flatten_cons, run_append]
      obtain ⟨hd, hb, hp⟩ := run_pairFrames hobs dec s
      obtain ⟨hd', hb', hp'⟩ := ih (intakeRun s (pairFrames obs dec))
      rw [hrun]
      refine ⟨?_, hb'.trans hb, hp'.trans hp⟩
      rw [hd', hd]
      omega

/-- 512 windows arrive while the main loop waits for the gate: the queue
holds 511 of them. -/
theorem burst_not_inOrder :
    ¬ (intakeRun (Intake.start Binary64)
      (burst (makeObs [99, 97, 109] 1 1 1 1.0 2.0)
        ⟨strncpy31 [112], 1, strncpy31 [99, 97, 109], 1, 1, 0, 0⟩
        512)).InOrder := by
  have hobs : (makeObs [99, 97, 109] 1 1 1 1.0 2.0).Encodable :=
    ⟨by decide, by decide⟩
  obtain ⟨hd, hb, hp⟩ := run_burst hobs
    ⟨strncpy31 [112], 1, strncpy31 [99, 97, 109], 1, 1, 0, 0⟩ 512
    (Intake.start Binary64)
  intro h
  have hlen := congrArg List.length h
  have hlt := length_contents_lt (intakeRun (Intake.start Binary64)
    (burst (makeObs [99, 97, 109] 1 1 1 1.0 2.0)
      ⟨strncpy31 [112], 1, strncpy31 [99, 97, 109], 1, 1, 0, 0⟩ 512)).queue
  unfold Intake.pipeline at hlen
  rw [hb, hp, hd] at hlen
  change (([] : List (QueueEntry Binary64)) ++ ([] ++ _)).length = 0 + 512
    at hlen
  rw [List.nil_append, List.nil_append] at hlen
  have hcap : queueCap = 512 := rfl
  omega

end Obicall
