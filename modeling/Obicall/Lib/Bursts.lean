/-
Events in bursts: at most `n` in a burst, and every event of a burst more
than `w` later than those of the bursts before it. Any closed interval of
length `w` then meets one burst only, so it holds at most `n` events
(`InBursts.countP_le`).

A counter that is put back to zero only when the last event is more than
`w` ago keeps its events in such bursts. `Burst` is what it maintains:
the current burst, no longer than the counter says, on top of the ones
before it. An event joins the burst (`Burst.join`) or begins a new one
(`Burst.begin`).

Times are latest first. How many of them are no earlier than a given time
is then told by a single one (`lt_countP_iff`).
-/
import Mathlib.Data.List.Basic

namespace Lib.Bursts

variable {n k : Nat} {w x : Int} {l : List Int}

/-- A list of bursts. -/
inductive InBursts (n : Nat) (w : Int) : List Int → Prop where
  | nil : InBursts n w []
  | burst {b l : List Int} : b.length ≤ n → (∀ x ∈ b, ∀ y ∈ l, y + w < x) →
      InBursts n w l → InBursts n w (b ++ l)

/-- No interval of length `w` holds more than one burst. -/
theorem InBursts.countP_le (h : InBursts n w l) (t : Int) :
    l.countP (fun x => t ≤ x ∧ x ≤ t + w) ≤ n := by
  induction h with
  | nil => exact Nat.zero_le n
  | @burst b l hlen hapart _ ih =>
      rw [List.countP_append]
      by_cases hb : ∃ x ∈ b, t ≤ x ∧ x ≤ t + w
      · obtain ⟨x, hx, -, hxt⟩ := hb
        have hnone : l.countP (fun y => t ≤ y ∧ y ≤ t + w) = 0 := by
          rw [List.countP_eq_zero]
          intro y hy
          have := hapart x hx y hy
          simp only [decide_eq_true_eq]
          omega
        rw [hnone]
        exact Nat.le_trans List.countP_le_length hlen
      · have hnone : b.countP (fun y => t ≤ y ∧ y ≤ t + w) = 0 := by
          rw [List.countP_eq_zero]
          intro y hy hyt
          exact hb ⟨y, hy, of_decide_eq_true hyt⟩
        rw [hnone, Nat.zero_add]
        exact ih

/-- The current burst, of at most `k` events, is on top. -/
def Burst (n k : Nat) (w : Int) (l : List Int) : Prop :=
  ∃ b older, l = b ++ older ∧ b.length ≤ k ∧ (b = [] → older = [])
    ∧ (∀ x ∈ b, ∀ y ∈ older, y + w < x) ∧ InBursts n w older

theorem Burst.nil : Burst n k w [] :=
  ⟨[], [], rfl, Nat.zero_le k, fun _ => rfl,
    fun _ hx => (List.not_mem_nil hx).elim, .nil⟩

theorem Burst.bursts (h : Burst n k w l) (hk : k ≤ n) : InBursts n w l := by
  obtain ⟨b, older, rfl, hlen, -, hapart, holder⟩ := h
  exact .burst (Nat.le_trans hlen hk) hapart holder

/-- One more event of the same burst. -/
theorem Burst.join (h : Burst n k w l) (hlast : ∀ y ∈ l, y ≤ x) :
    Burst n (k + 1) w (x :: l) := by
  obtain ⟨b, older, rfl, hlen, hempty, hapart, holder⟩ := h
  refine ⟨x :: b, older, rfl, Nat.succ_le_succ hlen, nofun, ?_, holder⟩
  intro z hz y hy
  rcases List.mem_cons.mp hz with rfl | hz
  · cases b with
    | nil =>
        rw [hempty rfl] at hy
        cases hy
    | cons c b =>
        have hc := hapart c List.mem_cons_self y hy
        have hle := hlast c (List.mem_append_left _ List.mem_cons_self)
        omega
  · exact hapart z hz y hy

/-- The first event of a burst. -/
theorem Burst.begin (h : Burst n k w l) (hk : k ≤ n)
    (hlate : ∀ y ∈ l, y + w < x) : Burst n 1 w (x :: l) := by
  refine ⟨[x], l, rfl, Nat.le_refl 1, nofun, ?_, h.bursts hk⟩
  intro z hz y hy
  obtain rfl := List.mem_singleton.mp hz
  exact hlate y hy

-- ============================================================ latest first

/-- More than `k` events are no earlier than `lo` exactly when the one
with `k` later ones is. -/
theorem lt_countP_iff {lo : Int} (hl : l.Pairwise (· ≥ ·)) (k : Nat) :
    k < l.countP (fun x => lo ≤ x) ↔ ∃ x, l[k]? = some x ∧ lo ≤ x := by
  induction l generalizing k with
  | nil => simp
  | cons x l ih =>
      obtain ⟨hx, hl⟩ := List.pairwise_cons.mp hl
      by_cases hlo : lo ≤ x
      · rw [List.countP_cons_of_pos (by simpa using hlo)]
        cases k with
        | zero => simp [hlo]
        | succ k =>
            rw [Nat.add_lt_add_iff_right, ih hl]
            rfl
      · have hnone : l.countP (fun x => lo ≤ x) = 0 := by
          rw [List.countP_eq_zero]
          intro y hy
          have := hx y hy
          simp only [decide_eq_true_eq]
          omega
        rw [List.countP_cons_of_neg (by simpa using hlo), hnone]
        refine iff_of_false (Nat.not_lt_zero k) ?_
        rintro ⟨y, hy, hloy⟩
        rcases List.mem_cons.mp (List.mem_of_getElem? hy) with rfl | hy
        · exact hlo hloy
        · have := hx y hy
          omega

end Lib.Bursts
