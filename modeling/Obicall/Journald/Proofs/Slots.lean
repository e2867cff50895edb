/-
Which connections give their slots back.

A thread that waits for its peer notices that the peer has left: the next
receive fails and the thread returns, be it in the hello, before the
replay request or in a worker's loop. The sending loop of a broker's
connection does not receive, and it does not look at what
`osal_send_frame` returns. Once a thread is in it, it stays in it
(`streaming_step`), with its socket and its slot, whatever becomes of the
peer. So the slots are given back exactly when no peer leaves, and no send
fails, while the thread is in that loop (`slots_given_back_iff`): a broker
that is restarted 16 times takes the last slot (`restarts_take_all_slots`).
-/
import Obicall.Journald.Net
import Obicall.Journald.Proofs.Subscription

namespace Obicall

open Lib.Endless

variable {F : Type} [DoubleBits F] [DoubleArith F]

-- =========================================================== conditions

omit [DoubleArith F] in
/-- A thread that stands there sends in its next step. -/
def JournalState.sendsAt (s : JournalState F) (i : Fin maxConnections) :
    ConnPc F → Bool
  | .poll => !hasMore s i && !(s.conns i).caughtUp
  | .data copied =>
      (obicallWireEncodeObservation copied.entry.obs 1200).toBool
  | .decision _ _ => true
  | .hello | .request | .worker | .advance => false

omit [DoubleArith F] in
/-- The slot's thread has something to send now. -/
def JournalState.sendsNow (s : JournalState F) (i : Fin maxConnections) :
    Bool :=
  (s.conns i).at.elim false (s.sendsAt i)

omit [DoubleArith F] in
/-- The event breaks a connection in the sending loop: its peer leaves, or
a send on it fails. -/
def Net.breaksStream (s : Net F) : PeerEvent → Prop
  | .accept => False
  | .disconnect i => (s.journal.conns i).streaming = true
  | .turn i a => s.journal.sendsNow i = true ∧ a.delivered = false

-- ============================================================== one turn

omit [DoubleBits F] [DoubleArith F] in
theorem slot_of_next {s : Net F} {i : Fin maxConnections} {a : PeerAnswer}
    {e : JournalEvent} (h : s.next i a = some e) : e.slot = some i := by
  unfold Net.next at h
  dsimp only at h
  split at h
  · cases h
  · cases h; rfl
  · cases h; rfl
  · split at h
    · cases h; rfl
    · obtain ⟨f, -, rfl⟩ := Option.map_eq_some_iff.mp h
      rfl
  · cases h; rfl
  · cases h; rfl
  · cases h; rfl
  · cases h; rfl

/-- A thread's step leaves the other slots alone. -/
theorem step_conns_ne (s : JournalState F) {e : JournalEvent}
    {i j : Fin maxConnections} (he : e.slot = some i) (h : j ≠ i) :
    (s.step e).conns j = s.conns j := by
  have hstep := stepped s e
  generalize s.step e = s' at hstep ⊢
  cases hstep with
  | same => rfl
  | refused => cases he
  | accepted => cases he
  | admitted obs now written =>
      exact congrFun (admitLocked_conns s obs now written).1 j
  | thread k c frames pairs hk =>
      cases he.symm.trans hk
      exact conns_setConn_ne h c

omit [DoubleBits F] [DoubleArith F] in
theorem inUse_of_streaming {c : ConnSlot F} (h : c.streaming = true) :
    c.inUse = true := by
  rw [ConnSlot.streaming, Bool.and_eq_true] at h
  exact h.1

omit [DoubleArith F] in
/-- Only a thread in the sending loop has something to send. -/
theorem streaming_of_sendsNow {s : JournalState F} {i : Fin maxConnections}
    (h : s.sendsNow i = true) : (s.conns i).streaming = true := by
  rw [JournalState.sendsNow] at h
  cases hat : (s.conns i).at with
  | none =>
      rw [hat] at h
      cases h
  | some pc =>
      rw [hat] at h
      rw [ConnSlot.streaming_of_at hat]
      cases pc with
      | hello => cases h
      | request => cases h
      | worker => cases h
      | poll => rfl
      | data => rfl
      | decision => rfl
      | advance => rfl

/-- The sending loop does not end. -/
theorem streaming_step (s : JournalState F) {e : JournalEvent}
    {i : Fin maxConnections} (he : e.slot = some i)
    (h : (s.conns i).streaming = true) :
    ((s.step e).conns i).streaming = true := by
  have hstep := stepped s e
  generalize s.step e = s' at hstep ⊢
  cases hstep with
  | same => exact h
  | refused => cases he
  | accepted => cases he
  | admitted obs now written =>
      rw [(admitLocked_conns s obs now written).1]
      exact h
  | thread k c frames pairs hk _ _ _ hstays =>
      cases he.symm.trans hk
      show ((s.setConn i c).conns i).streaming = true
      rw [conns_setConn_self]
      exact hstays h

omit [DoubleBits F] [DoubleArith F] in
theorem inUse_release (s : JournalState F) (i : Fin maxConnections) :
    ((s.release i).conns i).inUse = false := by
  rw [JournalState.release, conns_setConn_self]

/-- A thread whose peer has left returns, unless it is in the sending
loop. -/
theorem returns_of_gone {s : Net F} {i : Fin maxConnections}
    (hin : s.inUse i = true)
    (h : (s.journal.conns i).streaming = false) (hgone : s.gone i = true)
    (a : PeerAnswer) : ∃ e, s.next i a = some e
      ∧ ((s.journal.step e).conns i).inUse = false := by
  have hat : (s.journal.conns i).at = some (s.journal.conns i).pc :=
    ConnSlot.at_of_inUse hin rfl
  have hpc : (s.journal.conns i).pc.streaming = false := by
    rw [← ConnSlot.streaming_of_at hat]
    exact h
  unfold Net.next
  dsimp only
  cases hcase : (s.journal.conns i).pc with
  | hello =>
      rw [hcase] at hat
      rw [hat, hgone]
      refine ⟨_, rfl, ?_⟩
      unfold JournalState.step
      dsimp only
      rw [hat]
      exact inUse_release _ i
  | request =>
      rw [hcase] at hat
      rw [hat, hgone]
      refine ⟨_, rfl, ?_⟩
      unfold JournalState.step
      dsimp only
      rw [hat]
      exact inUse_release _ i
  | worker =>
      rw [hcase] at hat
      rw [hat, hgone]
      refine ⟨_, rfl, ?_⟩
      unfold JournalState.step
      dsimp only
      rw [hat]
      exact inUse_release _ i
  | poll => rw [hcase] at hpc; cases hpc
  | data copied => rw [hcase] at hpc; cases hpc
  | decision copied buf => rw [hcase] at hpc; cases hpc
  | advance => rw [hcase] at hpc; cases hpc

omit [DoubleBits F] [DoubleArith F] in
theorem next_of_free {s : Net F} {i : Fin maxConnections}
    (h : s.inUse i = false) (a : PeerAnswer) : s.next i a = none := by
  have hat : (s.journal.conns i).at = none := by
    unfold ConnSlot.at
    rw [if_neg]
    rw [Net.inUse] at h
    rw [h]
    decide
  unfold Net.next
  dsimp only
  rw [hat]

/-- A turn of a free slot is none. -/
theorem turn_free {s : Net F} {i : Fin maxConnections}
    (h : s.inUse i = false) (a : PeerAnswer) :
    (s.step (.turn i a)).inUse i = false := by
  show (((s.next i a).elim s.journal s.journal.step).conns i).inUse = false
  rw [next_of_free h]
  exact h

/-- A turn in the sending loop stays in it. -/
theorem turn_streams {s : Net F} {i : Fin maxConnections}
    (h : (s.journal.conns i).streaming = true) (a : PeerAnswer) :
    ((s.step (.turn i a)).journal.conns i).streaming = true := by
  show (((s.next i a).elim s.journal s.journal.step).conns i).streaming
    = true
  cases hnext : s.next i a with
  | none => exact h
  | some e => exact streaming_step s.journal (slot_of_next hnext) h

/-- Any other turn returns when the peer has left. -/
theorem turn_returns {s : Net F} {i : Fin maxConnections}
    (hin : s.inUse i = true)
    (h : (s.journal.conns i).streaming = false) (hgone : s.gone i = true)
    (a : PeerAnswer) : (s.step (.turn i a)).inUse i = false := by
  show (((s.next i a).elim s.journal s.journal.step).conns i).inUse = false
  obtain ⟨e, hnext, hfree⟩ := returns_of_gone hin h hgone a
  rw [hnext]
  exact hfree

/-- A turn leaves the other slots alone. -/
theorem turn_conns_ne (s : Net F) {i j : Fin maxConnections} (h : j ≠ i)
    (a : PeerAnswer) :
    (s.step (.turn i a)).journal.conns j = s.journal.conns j := by
  show ((s.next i a).elim s.journal s.journal.step).conns j = _
  cases hnext : s.next i a with
  | none => rfl
  | some e => exact step_conns_ne s.journal (slot_of_next hnext) h

-- ================================================================== sends

theorem frames_step (s : JournalState F) {e : JournalEvent}
    (h : e.sends = false) : (s.step e).frames = s.frames := by
  have hstep := stepped s e
  generalize s.step e = s' at hstep ⊢
  cases hstep with
  | same => rfl
  | refused => rfl
  | accepted => rfl
  | admitted obs now written =>
      exact (admitLocked_conns s obs now written).2.1
  | thread i c frames pairs _ _ _ hsends _ =>
      rw [hsends h]
      exact List.append_nil s.frames

/-- The frames a turn added, and whether one of them failed, as the state
before it says. -/
def SentAs (s : Net F) (i : Fin maxConnections) (a : PeerAnswer)
    (s' : JournalState F) : Prop :=
  ∃ new, s'.frames = s.journal.frames ++ new
    ∧ (new.any fun f => !f.delivered)
      = (s.journal.sendsNow i && !(a.delivered && !s.gone i))

omit [DoubleArith F] in
theorem SentAs.quiet {s : Net F} {i : Fin maxConnections} {a : PeerAnswer}
    {s' : JournalState F} (hframes : s'.frames = s.journal.frames)
    (hsends : s.journal.sendsNow i = false) : SentAs s i a s' := by
  refine ⟨[], by rw [hframes, List.append_nil], ?_⟩
  rw [hsends]
  rfl

omit [DoubleArith F] in
theorem SentAs.one {s : Net F} {i : Fin maxConnections} {a : PeerAnswer}
    {s' : JournalState F} {f : SentFrame}
    (hframes : s'.frames = s.journal.frames ++ [f])
    (hf : f.delivered = (a.delivered && !s.gone i))
    (hsends : s.journal.sendsNow i = true) : SentAs s i a s' := by
  refine ⟨[f], hframes, ?_⟩
  rw [hsends, List.any_cons, List.any_nil, hf, Bool.or_false, Bool.true_and]

/-- A turn sends at most one frame, exactly when the thread has something
to send; it fails when the peer has left or the send does. -/
theorem sent_turn (s : Net F) (i : Fin maxConnections) (a : PeerAnswer) :
    SentAs s i a (s.step (.turn i a)).journal := by
  show SentAs s i a ((s.next i a).elim s.journal s.journal.step)
  cases hat : (s.journal.conns i).at with
  | none =>
      have hsends : s.journal.sendsNow i = false := by
        rw [JournalState.sendsNow, hat]
        rfl
      have hnext : s.next i a = none := by
        unfold Net.next
        dsimp only
        rw [hat]
      rw [hnext]
      exact .quiet rfl hsends
  | some pc =>
      have hsends : s.journal.sendsNow i = s.journal.sendsAt i pc := by
        rw [JournalState.sendsNow, hat]
        rfl
      unfold Net.next
      dsimp only
      rw [hat]
      cases pc with
      | hello =>
          show SentAs s i a (JournalState.step _ (.hello i _))
          exact .quiet (frames_step _ rfl) hsends
      | request =>
          show SentAs s i a (JournalState.step _ (.request i _))
          exact .quiet (frames_step _ rfl) hsends
      | worker =>
          dsimp only
          split
          · show SentAs s i a (JournalState.step _ (.hangup i))
            exact .quiet (frames_step _ rfl) hsends
          · cases a.frame with
            | none => exact .quiet rfl hsends
            | some f =>
                show SentAs s i a (JournalState.step _ (.submit i _ _ _ _))
                exact .quiet (frames_step _ rfl) hsends
      | poll =>
          show SentAs s i a (JournalState.step _ (.poll i _))
          unfold JournalState.step
          dsimp only
          rw [hat]
          dsimp only
          unfold pollRing
          dsimp only
          split
          next hmore =>
            refine .quiet rfl ?_
            rw [hsends, JournalState.sendsAt, hmore]
            rfl
          next hmore =>
            split
            next hup =>
              refine .quiet rfl ?_
              rw [hsends, JournalState.sendsAt, hup]
              exact Bool.and_false _
            next hup =>
              refine .one rfl rfl ?_
              rw [hsends, JournalState.sendsAt]
              simp [hmore, hup]
      | data copied =>
          show SentAs s i a (JournalState.step _ (.sendData i _))
          unfold JournalState.step
          dsimp only
          rw [hat]
          dsimp only
          unfold sendData
          split
          next st henc =>
            refine .quiet rfl ?_
            rw [hsends, JournalState.sendsAt, henc]
            rfl
          next buf henc =>
            refine .one rfl rfl ?_
            rw [hsends, JournalState.sendsAt, henc]
            rfl
      | decision copied buf =>
          show SentAs s i a (JournalState.step _ (.sendDecision i _ _))
          unfold JournalState.step
          dsimp only
          rw [hat]
          dsimp only
          rw [sendDecision_eq]
          exact .one rfl rfl hsends
      | advance =>
          show SentAs s i a (JournalState.step _ (.advance i))
          exact .quiet (frames_step _ rfl) hsends

/-- A send on a connection has failed when one had before, or the turn's
does. -/
theorem failed_turn (s : Net F) (i : Fin maxConnections) (a : PeerAnswer) :
    (s.step (.turn i a)).failed i
      = (s.failed i
        || s.journal.sendsNow i && !(a.delivered && !s.gone i)) := by
  obtain ⟨new, hframes, hany⟩ := sent_turn s i a
  have hfailed : (s.step (.turn i a)).failed i
      = (s.failed i || ((s.step (.turn i a)).journal.frames.drop
          s.journal.frames.length).any fun f => !f.delivered) :=
    Function.update_self ..
  rw [hfailed, hframes, List.drop_left, hany]

-- ============================================================= acceptance

/-- A connection is accepted to a free slot and starts outside the sending
loop, or turned away. -/
inductive Accepts (s s' : Net F) : Prop
  | refused (hslot : s.journal.freeSlot = none)
      (hconns : s'.journal.conns = s.journal.conns)
      (hgone : s'.gone = s.gone) (hfailed : s'.failed = s.failed)
      (hnoticed : s'.noticed = s.noticed) : Accepts s s'
  | accepted (i : Fin maxConnections) (hfree : s.inUse i = false)
      (hstream : (s'.journal.conns i).streaming = false)
      (hothers : ∀ j ≠ i, s'.journal.conns j = s.journal.conns j)
      (hgone : s'.gone = Function.update s.gone i false)
      (hfailed : s'.failed = Function.update s.failed i false)
      (hnoticed : s'.noticed = Function.update s.noticed i false) :
      Accepts s s'

theorem accepts (s : Net F) : Accepts s (s.step .accept) := by
  unfold Net.step JournalState.step
  dsimp only
  cases hslot : s.journal.freeSlot with
  | none => exact .refused hslot rfl rfl rfl rfl
  | some i =>
      have hfree : s.inUse i = false := by
        have hfound := List.find?_some hslot
        exact (Bool.not_eq_true' _).mp hfound
      refine .accepted i hfree ?_ (fun j hj => ?_) rfl rfl rfl
      · show ((s.journal.setConn i _).conns i).streaming = false
        rw [conns_setConn_self]
        rfl
      · exact conns_setConn_ne hj _

-- ================================================================= others

/-- The slot an event is about. -/
def PeerEvent.slot : PeerEvent → Option (Fin maxConnections)
  | .accept => none
  | .disconnect i | .turn i _ => some i

/-- The states say the same of a slot. -/
structure Net.SameAt (s s' : Net F) (i : Fin maxConnections) : Prop where
  conn : s'.journal.conns i = s.journal.conns i
  gone : s'.gone i = s.gone i
  failed : s'.failed i = s.failed i
  noticed : s'.noticed i = s.noticed i

omit [DoubleBits F] [DoubleArith F] in
theorem Net.SameAt.inUse {s s' : Net F} {i : Fin maxConnections}
    (h : s.SameAt s' i) : s'.inUse i = s.inUse i :=
  congrArg ConnSlot.inUse h.conn

omit [DoubleBits F] [DoubleArith F] in
theorem Net.SameAt.streaming {s s' : Net F} {i : Fin maxConnections}
    (h : s.SameAt s' i) : (s'.journal.conns i).streaming
      = (s.journal.conns i).streaming :=
  congrArg ConnSlot.streaming h.conn

/-- A slot in use is left alone by what is not about it, new connections
included. -/
theorem sameAt_of_other {s : Net F} {i : Fin maxConnections}
    (hin : s.inUse i = true) {e : PeerEvent} (he : e.slot ≠ some i) :
    s.SameAt (s.step e) i := by
  cases e with
  | accept =>
      cases accepts s with
      | refused _ hconns hgone hfailed hnoticed =>
          exact ⟨congrFun hconns i, congrFun hgone i, congrFun hfailed i,
            congrFun hnoticed i⟩
      | accepted k hfree _ hothers hgone hfailed hnoticed =>
          have hik : i ≠ k := by
            rintro rfl
            rw [hin] at hfree
            cases hfree
          refine ⟨hothers i hik, ?_, ?_, ?_⟩
          · rw [hgone, Function.update_of_ne hik]
          · rw [hfailed, Function.update_of_ne hik]
          · rw [hnoticed, Function.update_of_ne hik]
  | disconnect k =>
      have hik : i ≠ k := fun h => he (congrArg some h.symm)
      exact ⟨rfl, Function.update_of_ne hik .., rfl, rfl⟩
  | turn k a =>
      have hik : i ≠ k := fun h => he (congrArg some h.symm)
      exact ⟨turn_conns_ne s hik a, rfl, Function.update_of_ne hik ..,
        Function.update_of_ne hik ..⟩

-- ============================================================== invariant

/-- Where no stream was broken: no send has failed, a peer that has left
was not in the sending loop, and its thread has not run since. -/
structure Net.Sane (s : Net F) (i : Fin maxConnections) : Prop where
  sent : s.failed i = false
  fresh : s.noticed i = false
  stays : (s.journal.conns i).streaming = true → s.gone i = false

/-- Every connection is. -/
def Net.AllSane (s : Net F) : Prop :=
  ∀ i, s.inUse i = true → s.Sane i

omit [DoubleArith F] in
theorem allSane_start (pipelineId : List UInt8) (cfg : JournalConfig)
    (segmentFile : Option (List UInt8)) :
    (Net.start (F := F) pipelineId cfg segmentFile).AllSane := by
  intro i h
  cases h

omit [DoubleBits F] [DoubleArith F] in
theorem Net.Sane.of_sameAt {s s' : Net F} {i : Fin maxConnections}
    (h : s.Sane i) (hsame : s.SameAt s' i) : s'.Sane i where
  sent := hsame.failed.trans h.sent
  fresh := hsame.noticed.trans h.fresh
  stays hstream := by
    rw [hsame.streaming] at hstream
    exact hsame.gone.trans (h.stays hstream)

/-- A turn of a sane connection's own thread whose send does not fail. -/
theorem Net.Sane.turn {s : Net F} {j : Fin maxConnections} {a : PeerAnswer}
    (h : s.Sane j) (he : ¬ s.breaksStream (.turn j a))
    (hin : s.inUse j = true) (hin' : (s.step (.turn j a)).inUse j = true) :
    (s.step (.turn j a)).Sane j := by
  have hgone : s.gone j = false := by
    cases hstream : (s.journal.conns j).streaming with
    | true => exact h.stays hstream
    | false =>
        by_contra hno
        have hfree := turn_returns hin hstream (Bool.not_eq_false _ ▸ hno) a
        rw [hfree] at hin'
        cases hin'
  refine ⟨?_, ?_, fun _ => hgone⟩
  · rw [failed_turn, h.sent, hgone, Bool.false_or, Bool.not_false,
      Bool.and_true]
    cases hsends : s.journal.sendsNow j with
    | false => rfl
    | true =>
        have hdelivered : a.delivered = true := by
          by_contra hno
          exact he ⟨hsends, Bool.not_eq_true _ ▸ hno⟩
        rw [hdelivered]
        rfl
  · show Function.update s.noticed j _ j = false
    rw [Function.update_self, h.fresh, hgone]
    rfl

/-- An event that breaks no stream keeps the connections so. -/
theorem Net.AllSane.step {s : Net F} (h : s.AllSane) {e : PeerEvent}
    (he : ¬ s.breaksStream e) : (s.step e).AllSane := by
  intro j hin'
  by_cases hin : s.inUse j = true
  · by_cases hother : e.slot ≠ some j
    · exact (h j hin).of_sameAt (sameAt_of_other hin hother)
    have hslot : e.slot = some j := not_not.mp hother
    cases e with
    | accept => cases hslot
    | disconnect i =>
        cases hslot
        refine ⟨(h j hin).sent, (h j hin).fresh, fun hstream => ?_⟩
        exact (he hstream).elim
    | turn i a =>
        cases hslot
        exact (h j hin).turn he hin hin'
  · -- only a new connection takes a free slot
    cases e with
    | accept =>
        cases accepts s with
        | refused _ hconns =>
            rw [Net.inUse, hconns] at hin'
            exact (hin hin').elim
        | accepted i hfree hstream hothers hgone hfailed hnoticed =>
            by_cases hji : j = i
            · rw [hji]
              refine ⟨?_, ?_, fun _ => ?_⟩
              · rw [hfailed, Function.update_self]
              · rw [hnoticed, Function.update_self]
              · rw [hgone, Function.update_self]
            · rw [Net.inUse, hothers j hji] at hin'
              exact (hin hin').elim
    | disconnect i => exact (hin hin').elim
    | turn i a =>
        by_cases hji : j = i
        · subst hji
          rw [turn_free (Bool.not_eq_true _ ▸ hin) a] at hin'
          cases hin'
        · rw [Net.inUse, turn_conns_ne s hji a] at hin'
          exact (hin hin').elim

-- ================================================================== slots

/-- A thread in the sending loop is there for ever. -/
theorem streaming_forever {s : Net F} {es : Nat → PeerEvent} {n m : Nat}
    (hle : n ≤ m) {i : Fin maxConnections}
    (h : ((stateAt Net.step s es n).journal.conns i).streaming = true) :
    ((stateAt Net.step s es m).journal.conns i).streaming = true := by
  refine stateAt_stays (P := fun s : Net F =>
    (s.journal.conns i).streaming = true) (fun s e h => ?_) hle h
  by_cases hother : e.slot ≠ some i
  · exact (sameAt_of_other (inUse_of_streaming h) hother).streaming.trans h
  cases e with
  | accept => exact (hother nofun).elim
  | disconnect k => exact h
  | turn k a =>
      cases not_not.mp hother
      exact turn_streams h a

/-- A thread outside the sending loop whose peer has left: so it stays,
until it returns. -/
def Net.leaving (s : Net F) (i : Fin maxConnections) : Prop :=
  s.inUse i = true ∧ (s.journal.conns i).streaming = false
    ∧ s.gone i = true

theorem leaving_step {s : Net F} {i : Fin maxConnections}
    (h : s.leaving i) (e : PeerEvent) :
    (s.step e).leaving i ∨ (s.step e).inUse i = false := by
  obtain ⟨hin, hstream, hgone⟩ := h
  by_cases hother : e.slot ≠ some i
  · have hsame := sameAt_of_other hin hother
    exact .inl ⟨hsame.inUse.trans hin, hsame.streaming.trans hstream,
      hsame.gone.trans hgone⟩
  cases e with
  | accept => exact (hother nofun).elim
  | disconnect k =>
      cases not_not.mp hother
      exact .inl ⟨hin, hstream, Function.update_self ..⟩
  | turn k a =>
      cases not_not.mp hother
      exact .inr (turn_returns hin hstream hgone a)

/-- With fair turns a thread outside the sending loop whose peer has left
returns. -/
theorem eventually_free {s : Net F} {es : Nat → PeerEvent} (hfair : Fair es)
    {n : Nat} {i : Fin maxConnections}
    (h : (stateAt Net.step s es n).leaving i) :
    ∃ m, n ≤ m ∧ (stateAt Net.step s es m).inUse i = false := by
  refine eventually_of_fair (P := fun s : Net F => s.leaving i)
    (Q := fun s => s.inUse i = false) (fun e => e.isTurnOf i) (hfair i)
    (fun _ e h => leaving_step h e) ?_ h
  rintro s e ⟨a, rfl⟩ ⟨hin, hstream, hgone⟩
  exact turn_returns hin hstream hgone a

/-- A connection in the sending loop whose peer has left, or on which a
send has failed, is never closed. -/
theorem not_givesBack {s : Net F} {es : Nat → PeerEvent} {n : Nat}
    {i : Fin maxConnections}
    (hstream : ((stateAt Net.step s es n).journal.conns i).streaming = true)
    (hleft : (stateAt Net.step s es n).gone i = true
      ∨ (stateAt Net.step s es n).failed i = true) : ¬ GivesBack s es := by
  intro hback
  obtain ⟨m, hle, hfree⟩ := hback n i (inUse_of_streaming hstream) hleft
  have hin := inUse_of_streaming (streaming_forever hle hstream)
  rw [Net.inUse, hin] at hfree
  cases hfree

/-- In a fair run from the start, a connection is turned away only while
16 others are open, and every connection whose peer has left or on which a
send has failed is closed, exactly when no peer leaves and no send fails
while the connection's thread is in the sending loop. -/
theorem slots_given_back_iff (pipelineId : List UInt8) (cfg : JournalConfig)
    (segmentFile : Option (List UInt8)) {es : Nat → PeerEvent}
    (hfair : Fair es) :
    let s := Net.start (F := F) pipelineId cfg segmentFile
    (RefusesOnlyFull s es ∧ GivesBack s es)
      ↔ ∀ n, ¬ (stateAt Net.step s es n).breaksStream (es n) := by
  intro s
  constructor
  · rintro ⟨-, hback⟩ n hbreaks
    cases he : es n with
    | accept =>
        rw [he] at hbreaks
        exact hbreaks
    | disconnect i =>
        rw [he] at hbreaks
        have hnext : stateAt Net.step s es (n + 1)
            = (stateAt Net.step s es n).step (.disconnect i) := he ▸ rfl
        refine not_givesBack (n := n + 1) (i := i) ?_ (.inl ?_) hback
        · rw [hnext]
          exact hbreaks
        · rw [hnext]
          exact Function.update_self ..
    | turn i a =>
        rw [he] at hbreaks
        obtain ⟨hsends, hfails⟩ := hbreaks
        have hnext : stateAt Net.step s es (n + 1)
            = (stateAt Net.step s es n).step (.turn i a) := he ▸ rfl
        refine not_givesBack (n := n + 1) (i := i) ?_ (.inr ?_) hback
        · rw [hnext]
          exact turn_streams (streaming_of_sendsNow hsends) a
        · rw [hnext, failed_turn, hsends, hfails]
          exact Bool.or_true _
  · intro hkeeps
    have hsane : ∀ n, (stateAt Net.step s es n).AllSane :=
      stateAt_inv (fun _ _ hs he => hs.step he)
        (allSane_start pipelineId cfg segmentFile) hkeeps
    constructor
    · intro n _ hslot i
      have hin : (stateAt Net.step s es n).inUse i = true := by
        have hfound := List.find?_eq_none.mp hslot i (List.mem_finRange i)
        rw [Bool.not_eq_true, Bool.not_eq_false'] at hfound
        exact hfound
      refine ⟨hin, fun hleft => ?_⟩
      rw [(hsane n i hin).fresh] at hleft
      cases hleft.2
    · intro n i hin hleft
      have hi := hsane n i hin
      have hgone : (stateAt Net.step s es n).gone i = true := by
        rcases hleft with hgone | hfailed
        · exact hgone
        · rw [hi.sent] at hfailed
          cases hfailed
      refine eventually_free hfair ⟨hin, ?_, hgone⟩
      by_contra hno
      have hstays := hi.stays (Bool.not_eq_false _ ▸ hno)
      rw [hgone] at hstays
      cases hstays

-- ======================================================= concrete runs

/-- Nothing comes and nothing goes out. -/
def PeerAnswer.nothing : PeerAnswer := ⟨none, none, false, 0, .all, false⟩

/-- Some events, and from then on turns in a circle. -/
def thenTurns (es : List PeerEvent) (n : Nat) : PeerEvent :=
  es.getD n (.turn (Fin.ofNat maxConnections n) .nothing)

theorem fair_thenTurns (es : List PeerEvent) : Fair (thenTurns es) := by
  intro i n
  have hlt := i.isLt
  have hlen : es.length ≤ maxConnections * (n + es.length) + i.val := by
    simp only [maxConnections]
    omega
  refine ⟨maxConnections * (n + es.length) + i.val, ?_, .nothing, ?_⟩
  · simp only [maxConnections]
    omega
  · have hturn : Fin.ofNat maxConnections
        (maxConnections * (n + es.length) + i.val) = i := by
      refine Fin.ext ?_
      rw [Fin.val_ofNat, Nat.mul_add_mod, Nat.mod_eq_of_lt hlt]
    rw [thenTurns, List.getD_eq_getElem?_getD, List.getElem?_eq_none hlen,
      Option.getD_none, hturn]

theorem thenTurns_of_le {es : List PeerEvent} {n : Nat}
    (h : es.length ≤ n) : ∃ i, thenTurns es n = .turn i .nothing := by
  refine ⟨Fin.ofNat maxConnections n, ?_⟩
  rw [thenTurns, List.getD_eq_getElem?_getD, List.getElem?_eq_none h]
  rfl

/-- Once no slot is in use, turns leave it so. -/
theorem free_of_turns (s : Net F) {es : List PeerEvent} {m n : Nat}
    (hes : es.length ≤ m) (hle : m ≤ n)
    (h : ∀ i, (stateAt Net.step s (thenTurns es) m).inUse i = false) :
    ∀ i, (stateAt Net.step s (thenTurns es) n).inUse i = false := by
  induction hle with
  | refl => exact h
  | @step k hle ih =>
      intro j
      obtain ⟨i, hi⟩ := thenTurns_of_le (hes.trans hle)
      show ((stateAt Net.step s (thenTurns es) k).step
        (thenTurns es k)).inUse j = false
      rw [hi]
      by_cases hji : j = i
      · subst hji
        exact turn_free (ih j) _
      · rw [Net.inUse, turn_conns_ne _ hji]
        exact ih j

/-- A run of some events and turns in which all slots are free at some
time after the events has broken no stream: a thread that had got into the
sending loop would still be there. -/
theorem no_break_of_free {s : Net F} {es : List PeerEvent} {m : Nat}
    (hes : es.length ≤ m)
    (h : ∀ i, (stateAt Net.step s (thenTurns es) m).inUse i = false)
    (n : Nat) :
    ¬ (stateAt Net.step s (thenTurns es) n).breaksStream
      (thenTurns es n) := by
  have hquiet : ∀ i, ((stateAt Net.step s (thenTurns es) n).journal.conns
      i).streaming ≠ true := by
    intro i hstream
    have hfree : (stateAt Net.step s (thenTurns es) (max m n)).inUse i
        = false := free_of_turns s hes (le_max_left m n) h i
    have hin := inUse_of_streaming
      (streaming_forever (le_max_right m n) hstream)
    rw [Net.inUse, hin] at hfree
    cases hfree
  intro hbreaks
  cases he : thenTurns es n with
  | accept =>
      rw [he] at hbreaks
      exact hbreaks
  | disconnect i =>
      rw [he] at hbreaks
      exact hquiet i hbreaks
  | turn i a =>
      rw [he] at hbreaks
      exact hquiet i (streaming_of_sendsNow hbreaks.1)

/-- Three peers connect and leave: one without a hello, a broker before it
asks for the replay, and a worker that has sent nothing. -/
def visits : List PeerEvent :=
  [.accept, .accept, .accept,
   .turn 1 { PeerAnswer.nothing with role := some roleBroker },
   .turn 2 { PeerAnswer.nothing with role := some roleWorker },
   .turn 2 .nothing,
   .disconnect 0, .disconnect 1, .disconnect 2]

/-- The threads wait in the hello, before the replay request and in the
worker's loop, and their peers have left; each slot is given back. -/
theorem slots_given_back_visits :
    let s := Net.start (F := Binary64) [112] defaultCfg none
    let left := stateAt Net.step s (thenTurns visits) 9
    ((left.journal.conns 0).at = some .hello
        ∧ (left.journal.conns 1).at = some .request
        ∧ (left.journal.conns 2).at = some .worker)
      ∧ (left.gone 0 = true ∧ left.gone 1 = true ∧ left.gone 2 = true)
      ∧ RefusesOnlyFull s (thenTurns visits)
      ∧ GivesBack s (thenTurns visits) := by
  intro s left
  have hat : (left.journal.conns 0).at = some .hello
      ∧ (left.journal.conns 1).at = some .request
      ∧ (left.journal.conns 2).at = some .worker := by
    decide +kernel
  have hgone : left.gone 0 = true ∧ left.gone 1 = true
      ∧ left.gone 2 = true := by
    decide +kernel
  -- by then each of the three threads has run once more
  have hfree : ∀ i, (stateAt Net.step s (thenTurns visits) 19).inUse i
      = false := by
    decide +kernel
  exact ⟨hat, hgone, (slots_given_back_iff [112] defaultCfg none
    (fair_thenTurns visits)).mpr (no_break_of_free (by decide) hfree)⟩

/-- A broker connects to slot `i`, asks for the replay and is killed; the
next send to it fails. -/
def brokerRestart (i : Fin maxConnections) : List PeerEvent :=
  [.accept,
   .turn i { PeerAnswer.nothing with role := some roleBroker },
   .turn i { PeerAnswer.nothing with
     frame := some (msgReplayRequest,
       MsgReplayRequest.bytes ⟨strncpy31 [112], 0⟩) },
   .disconnect i,
   .turn i .nothing]

/-- 16 of these, one after the other, and a connection. -/
def restarts : List PeerEvent :=
  (List.finRange maxConnections).flatMap brokerRestart ++ [.accept]

/-- After them no peer is left, each of the 16 threads has run since, and
the connection is turned away. None of the slots is ever free again. -/
theorem restarts_take_all_slots :
    let s := Net.start (F := Binary64) [112] defaultCfg none
    Fair (thenTurns restarts)
      ∧ (stateAt Net.step s (thenTurns restarts) 80).journal.freeSlot = none
      ∧ (∀ i, (stateAt Net.step s (thenTurns restarts) 80).gone i = true
        ∧ (stateAt Net.step s (thenTurns restarts) 80).noticed i = true)
      ∧ ¬ RefusesOnlyFull s (thenTurns restarts)
      ∧ ¬ GivesBack s (thenTurns restarts) := by
  intro s
  have hrun : (stateAt Net.step s (thenTurns restarts) 80).journal.freeSlot
        = none
      ∧ (∀ i, (stateAt Net.step s (thenTurns restarts) 80).gone i = true
        ∧ (stateAt Net.step s (thenTurns restarts) 80).noticed i = true)
      ∧ ((stateAt Net.step s (thenTurns restarts) 80).journal.conns
          0).streaming = true := by
    decide +kernel
  obtain ⟨hfull, hleft, hstream⟩ := hrun
  exact ⟨fair_thenTurns restarts, hfull, hleft,
    fun honly => (honly 80 rfl hfull 0).2 (hleft 0),
    not_givesBack hstream (.inl (hleft 0).1)⟩

end Obicall
