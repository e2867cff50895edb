/-
A fenced, durable commit point: one writer process with volatile state,
a durable copy that survives it, and a ledger of the commits it has
acknowledged.

# The argument

The state is read as a `Mark`: an ownership epoch, the owner of that
epoch, and for every key the highest sequence number committed under it.
Marks are ordered by `Mark.le`: the epoch grows, within one epoch the
owner stays, no high-water falls. A commit is acknowledged only from a
mark that admits it (`Mark.Admits`: this epoch, this owner, above the
key's high-water) and only once the durable copy records it
(`Mark.Records`).

Recording is monotone in the mark, and a mark that admits a commit lies
strictly after every commit it records. So it is enough that the
volatile mark never falls below the durable one while the process lives,
that a save never takes the durable mark back, and that a restart begins
from the durable mark: then the ledger is in fenced order
(`ledger_fenced`) whatever the process forgets when it dies.

Keys, owners and the ways a process may advance are parameters.
-/
import Mathlib.Logic.Relation
import Mathlib.Algebra.Order.Monoid.Unbundled.WithTop
import Mathlib.Order.WithBot
import Mathlib.Data.List.Pairwise

namespace Lib.Fence

variable {K O : Type}

-- ================================================================= marks

/-- Epoch, its owner, and the highest committed sequence by key. -/
structure Mark (K O : Type) where
  epoch : Nat
  owner : O
  high : K → WithBot Nat

/-- An acknowledged commit. -/
structure Commit (K O : Type) where
  key : K
  seq : Nat
  epoch : Nat
  owner : O

/-- The order in which one process moves through marks. -/
structure Mark.le (m m' : Mark K O) : Prop where
  epoch : m.epoch ≤ m'.epoch
  owner : m.epoch = m'.epoch → m.owner = m'.owner
  high : ∀ k, m.high k ≤ m'.high k

/-- The commit is under this epoch by this owner and above the key's
high-water. -/
structure Mark.Admits (m : Mark K O) (c : Commit K O) : Prop where
  epoch : c.epoch = m.epoch
  owner : c.owner = m.owner
  above : m.high c.key < c.seq

/-- The mark accounts for the commit. -/
structure Mark.Records (m : Mark K O) (c : Commit K O) : Prop where
  epoch : c.epoch ≤ m.epoch
  owner : c.epoch = m.epoch → c.owner = m.owner
  below : (c.seq : WithBot Nat) ≤ m.high c.key

/-- Fenced order of two commits, the earlier one first. -/
structure Commit.Before (c c' : Commit K O) : Prop where
  seq : c.key = c'.key → c.seq < c'.seq
  epoch : c.epoch ≤ c'.epoch
  owner : c.epoch = c'.epoch → c.owner = c'.owner

theorem Mark.le.refl (m : Mark K O) : m.le m :=
  ⟨le_rfl, fun _ => rfl, fun _ => le_rfl⟩

theorem Mark.le.trans {m m' m'' : Mark K O} (h : m.le m') (h' : m'.le m'') :
    m.le m'' where
  epoch := h.epoch.trans h'.epoch
  owner he := by
    have h₁ : m.epoch = m'.epoch := by
      have := h.epoch
      have := h'.epoch
      omega
    exact (h.owner h₁).trans (h'.owner (h₁ ▸ he))
  high k := (h.high k).trans (h'.high k)

/-- A mark keeps accounting for what an earlier mark recorded. -/
theorem Mark.Records.mono {m m' : Mark K O} {c : Commit K O}
    (h : m.Records c) (hle : m.le m') : m'.Records c where
  epoch := h.epoch.trans hle.epoch
  owner he := by
    have h₁ : c.epoch = m.epoch := by
      have := h.epoch
      have := hle.epoch
      omega
    exact (h.owner h₁).trans (hle.owner (h₁ ▸ he))
  below := h.below.trans (hle.high c.key)

/-- A commit admitted on top of a recorded one comes after it. -/
theorem Mark.Records.before {m : Mark K O} {c c' : Commit K O}
    (h : m.Records c) (h' : m.Admits c') : c.Before c' where
  seq hk := by
    have habove := h'.above
    rw [← hk] at habove
    exact WithBot.coe_lt_coe.mp (h.below.trans_lt habove)
  epoch := h'.epoch ▸ h.epoch
  owner he := (h.owner (he.trans h'.epoch)).trans h'.owner.symm

-- ============================================================ the process

/-- The volatile mark while the process is up, the mark a restart would
begin from, and the acknowledged commits, oldest first. -/
structure Store (K O : Type) where
  volatile : Option (Mark K O)
  durable : Mark K O
  ledger : List (Commit K O)

/-- What one such process can do. -/
inductive Step : Store K O → Store K O → Prop
  | start (d : Mark K O) (l : List (Commit K O)) :
      Step ⟨none, d, l⟩ ⟨some d, d, l⟩
  | crash (v d : Mark K O) (l : List (Commit K O)) :
      Step ⟨some v, d, l⟩ ⟨none, d, l⟩
  | advance {v v' : Mark K O} (d : Mark K O) (l : List (Commit K O))
      (hv : v.le v') : Step ⟨some v, d, l⟩ ⟨some v', d, l⟩
  | save (v d : Mark K O) (l : List (Commit K O)) :
      Step ⟨some v, d, l⟩ ⟨some v, v, l⟩
  | commit {v v' : Mark K O} (d : Mark K O) (l : List (Commit K O))
      {c : Commit K O} (hv : v.le v') (hc : v.Admits c)
      (hr : v'.Records c) : Step ⟨some v, d, l⟩ ⟨some v', v', l ++ [c]⟩

/-- What holds between the three parts in every reachable store. -/
structure Inv (s : Store K O) : Prop where
  ahead : ∀ v, s.volatile = some v → s.durable.le v
  recorded : ∀ c ∈ s.ledger, s.durable.Records c
  fenced : s.ledger.Pairwise Commit.Before

/-- Saving a mark at or above the durable one keeps every record. -/
theorem Inv.save {v d : Mark K O} {l : List (Commit K O)}
    (h : Inv ⟨some v, d, l⟩) : Inv ⟨some v, v, l⟩ where
  ahead _ hv' := Option.some.inj hv' ▸ Mark.le.refl v
  recorded c hc := (h.recorded c hc).mono (h.ahead v rfl)
  fenced := h.fenced

theorem Inv.step {s s' : Store K O} (h : Inv s) (hs : Step s s') :
    Inv s' := by
  cases hs with
  | start d l =>
      exact ⟨fun _ hv => Option.some.inj hv ▸ Mark.le.refl d, h.recorded,
        h.fenced⟩
  | crash v d l => exact ⟨fun _ hv => (nomatch hv), h.recorded, h.fenced⟩
  | advance d l hv =>
      exact ⟨fun _ hv' => Option.some.inj hv' ▸ (h.ahead _ rfl).trans hv,
        h.recorded, h.fenced⟩
  | save v d l => exact h.save
  | @commit v v' d l c hv hc hr =>
      -- everything recorded so far is recorded by the mark that admits
      have hold : ∀ b ∈ l, v.Records b := fun b hb =>
        (h.recorded b hb).mono (h.ahead v rfl)
      refine ⟨fun _ hw => Option.some.inj hw ▸ Mark.le.refl v', ?_, ?_⟩
      · intro b hb
        rcases List.mem_append.mp hb with hb | hb
        · exact (hold b hb).mono hv
        · exact List.mem_singleton.mp hb ▸ hr
      · refine List.pairwise_append.mpr
          ⟨h.fenced, List.pairwise_singleton .., ?_⟩
        intro b hb c' hc'
        exact List.mem_singleton.mp hc' ▸ (hold b hb).before hc

/-- Whatever the crashes, the acknowledged commits are in fenced
order. -/
theorem ledger_fenced {d : Mark K O} {s : Store K O}
    (h : Relation.ReflTransGen Step ⟨none, d, []⟩ s) :
    s.ledger.Pairwise Commit.Before := by
  have hinv : Inv s := by
    induction h with
    | refl =>
        exact ⟨fun _ hv => (nomatch hv), fun _ hc => (nomatch hc), .nil⟩
    | tail _ hs ih => exact ih.step hs
  exact hinv.fenced

end Lib.Fence
