/-
A ring of `n` slots written in sequence: the entry of position `p` goes
to slot `p % n`, over whatever the slot held. Positions count from 1, as
the length of the log does after each entry.

# What a slot holds

The last position up to the head in the slot's class (`latest`). Read at
a position that is still among the last `n`, that is the entry of that
very position; read at an older one it is a later entry, a whole number
of laps ahead. `Written` says so for a ring and the log of everything
ever put into it, and `Written.push` keeps it: nothing else about the
ring is ever needed.
-/
import Mathlib.Algebra.GroupWithZero.Nat
import Mathlib.Data.List.Basic
import Mathlib.Logic.Function.Basic
import Mathlib.Data.Fin.Basic

namespace Lib.Ring

variable {α : Type} {n : Nat} [NeZero n]

-- ============================================================= positions

/-- The slot of a position. -/
def slot (n : Nat) [NeZero n] (p : Nat) : Fin n := Fin.ofNat n p

/-- The last position up to `head` that shares the slot of `p`. -/
def latest (n p head : Nat) : Nat := p + n * ((head - p) / n)

theorem slot_eq_iff {p q : Nat} : slot n p = slot n q ↔ p % n = q % n := by
  rw [Fin.ext_iff]
  rfl

theorem le_latest (n p head : Nat) : p ≤ latest n p head :=
  Nat.le_add_right ..

theorem latest_le {n p head : Nat} (h : p ≤ head) :
    latest n p head ≤ head := by
  have := Nat.mul_div_le (head - p) n
  unfold latest
  omega

/-- Within one lap the position itself is the last of its class. -/
theorem latest_of_lt {n p head : Nat} (hp : p ≤ head)
    (h : head < p + n) : latest n p head = p := by
  unfold latest
  rw [Nat.div_eq_of_lt (by omega), Nat.mul_zero, Nat.add_zero]

/-- The slot of the new head now holds the new head. -/
theorem latest_succ_of_slot_eq {p head : Nat} (hp : p ≤ head + 1)
    (h : slot n p = slot n (head + 1)) :
    latest n p (head + 1) = head + 1 := by
  have hmod : (head + 1 - p) % n = 0 := by
    rw [slot_eq_iff] at h
    exact Nat.sub_mod_eq_zero_of_mod_eq h.symm
  have := Nat.div_add_mod (head + 1 - p) n
  unfold latest
  omega

/-- The others hold what they held. -/
theorem latest_succ_of_slot_ne {p head : Nat} (hp : p ≤ head)
    (h : slot n p ≠ slot n (head + 1)) :
    latest n p (head + 1) = latest n p head := by
  have hndvd : ¬ n ∣ head - p + 1 := by
    intro hdvd
    apply h
    obtain ⟨k, hk⟩ := hdvd
    have hhead : head + 1 = p + n * k := by omega
    rw [slot_eq_iff, hhead, Nat.add_mul_mod_self_left]
  have hsucc : (head + 1 - p) / n = (head - p) / n := by
    have hsub : head + 1 - p = head - p + 1 := by omega
    rw [hsub, Nat.succ_div, if_neg hndvd, Nat.add_zero]
  unfold latest
  rw [hsucc]

-- ============================================================== the ring

/-- Every slot reached so far holds the last entry of its class. -/
def Written (ring : Fin n → α) (log : List α) : Prop :=
  ∀ p, 1 ≤ p → p ≤ log.length →
    log[latest n p log.length - 1]? = some (ring (slot n p))

theorem Written.nil (ring : Fin n → α) : Written ring [] := by
  intro p hp hle
  rw [List.length_nil] at hle
  omega

/-- Writing the next entry. -/
theorem Written.push {ring : Fin n → α} {log : List α}
    (h : Written ring log) (x : α) :
    Written (Function.update ring (slot n (log.length + 1)) x)
      (log ++ [x]) := by
  intro p hp hle
  rw [List.length_append, List.length_singleton] at hle ⊢
  by_cases hslot : slot n p = slot n (log.length + 1)
  · rw [latest_succ_of_slot_eq hle hslot, hslot, Function.update_self,
      Nat.add_sub_cancel, List.getElem?_append_right le_rfl, Nat.sub_self]
    rfl
  · have hold : p ≤ log.length := by
      rcases Nat.lt_or_ge log.length p with hlt | hge
      · exact absurd (by rw [show p = log.length + 1 by omega]) hslot
      · exact hge
    have hlatest := latest_le (n := n) hold
    rw [latest_succ_of_slot_ne hold hslot, Function.update_of_ne hslot,
      List.getElem?_append_left (by omega)]
    exact h p hp hold

/-- Whatever is read was written. -/
theorem Written.mem {ring : Fin n → α} {log : List α}
    (h : Written ring log) {p : Nat} (hp : 1 ≤ p) (hle : p ≤ log.length) :
    ring (slot n p) ∈ log :=
  List.mem_of_getElem? (h p hp hle)

end Lib.Ring
