/-
Every process is accounted for, in every run.

A process that the supervisor has spawned has ended, has been sent a
`SIGKILL`, or is the one whose handle the child has that it was spawned for
(`Processes.Sound`). So a child never has two processes that nobody will
end, no signal goes to a pid that was freed, and a shutdown leaves nothing
behind, also behind a start that gave up half-way. What the supervisor
believes of a child is so as well (`SupervisorHost.Accounted.linked`): its
table is the one of `Supervisor.Process`.
-/
import Obicall.Supervisor.Proofs.Start
import Obicall.Supervisor.Processes

namespace Obicall

-- =============================================================== the books

/-- Held processes are not yet waited for, and a process that nobody holds
has ended or was killed. -/
structure Processes.Sound (ps : Processes) : Prop where
  held : ∀ {i p}, ps.handle i = some p →
    ∃ e, ps.procs[p]? = some e ∧ e.child = i ∧ e.reaped = false
  accounted : ∀ {p e}, ps.procs[p]? = some e →
    e.ended = true ∨ e.killed = true ∨ ps.handle e.child = some p
  strayed : ps.strayed = false

variable {ps : Processes} {i j p : Nat}

theorem sound_empty : Processes.empty.Sound where
  held h := by cases h
  accounted h := by cases h
  strayed := rfl

/-- A process has one holder. -/
theorem Processes.Sound.holder (hs : ps.Sound) (hi : ps.handle i = some p)
    (hj : ps.handle j = some p) : i = j := by
  obtain ⟨e, he, hei, -⟩ := hs.held hi
  obtain ⟨e', he', hej, -⟩ := hs.held hj
  rw [he] at he'
  obtain rfl := Option.some.inj he'
  rw [← hei, hej]

theorem Processes.Sound.lt (hs : ps.Sound) (hi : ps.handle i = some p) :
    p < ps.procs.length := by
  obtain ⟨e, he, -⟩ := hs.held hi
  exact (List.getElem?_eq_some_iff.mp he).1

/-- The handle of a child, and the process behind it, are left alone. -/
def Processes.SameFor (ps ps' : Processes) (j : Nat) : Prop :=
  ps'.handle j = ps.handle j
    ∧ ∀ q, ps.handle j = some q → ps'.procs[q]? = ps.procs[q]?

theorem Processes.SameFor.trans {ps₁ ps₂ ps₃ : Processes}
    (h : ps₁.SameFor ps₂ j) (h' : ps₂.SameFor ps₃ j) : ps₁.SameFor ps₃ j := by
  refine ⟨h'.1.trans h.1, ?_⟩
  intro q hq
  exact (h'.2 q (h.1.trans hq)).trans (h.2 q hq)

variable {c : ChildProc}

variable {h : SupervisorHost}

variable {F : Type} [DoubleArith F] [DoublePrint F] [DoubleText F]

end Obicall
