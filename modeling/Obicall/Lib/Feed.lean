/-
Loops that feed a stateful consumer with some of the entries of a list.

A `Sink` takes a first item and then one item after the other. A loop
offers it an item for some entries and nothing for the rest. Whatever
the sink does with them, its state depends on the items offered alone;
and a sink that writes them down sees them all, so two loops leave every
sink alike exactly when they offer the same items (`fed_agree_iff`).
-/
import Mathlib.Data.List.Induction

namespace Lib.Feed

structure Sink (α S : Type) where
  first : α → S
  next : S → α → S

variable {α β S : Type}

/-- What becomes of a sink, not started before its first item. -/
def Sink.feed (k : Sink α S) (s : Option S) : Option α → Option S
  | none => s
  | some a => some (match s with
      | none => k.first a
      | some s => k.next s a)

/-- The loop over a list that offers `offer b` at the entry `b`. -/
def Sink.fed (k : Sink α S) (offer : β → Option α) (l : List β) : Option S :=
  l.foldl (fun s b => k.feed s (offer b)) none

variable {offer offer' : β → Option α}

theorem Sink.fed_concat (k : Sink α S) (l : List β) (b : β) :
    k.fed offer (l ++ [b]) = k.feed (k.fed offer l) (offer b) := by
  rw [Sink.fed, List.foldl_append]
  rfl

/-- Only what is offered counts. -/
theorem Sink.fed_filterMap (k : Sink α S) (l : List β) :
    k.fed some (l.filterMap offer) = k.fed offer l := by
  rw [Sink.fed, Sink.fed, List.foldl_filterMap]
  congr
  funext s b
  cases offer b with
  | none => rfl
  | some a => rfl

theorem Sink.feed_eq_none_iff (k : Sink α S) {s : Option S}
    {o : Option α} : k.feed s o = none ↔ s = none ∧ o = none := by
  cases o with
  | none => exact (and_iff_left rfl).symm
  | some a => exact iff_of_false (Option.some_ne_none _) fun h =>
      Option.some_ne_none a h.2

/-- A sink has not started as long as nothing is offered. -/
theorem Sink.fed_eq_none_iff (k : Sink α S) (l : List β) :
    k.fed offer l = none ↔ ∀ b ∈ l, offer b = none := by
  induction l using List.reverseRecOn with
  | nil => exact ⟨fun _ _ h => absurd h List.not_mem_nil, fun _ => rfl⟩
  | append_singleton l b ih =>
      rw [k.fed_concat, k.feed_eq_none_iff, ih, List.forall_mem_append,
        List.forall_mem_singleton]

/-- The sink that writes down what it gets. -/
def recorder (α : Type) : Sink α (List α) where
  first a := [a]
  next s a := s ++ [a]

theorem recorder_fed (l : List β) :
    ((recorder α).fed offer l).getD [] = l.filterMap offer := by
  induction l using List.reverseRecOn with
  | nil => rfl
  | append_singleton l b ih =>
      rw [Sink.fed_concat, List.filterMap_append, ← ih]
      cases hb : offer b with
      | none => simp [Sink.feed, hb]
      | some a =>
          cases (recorder α).fed offer l with
          | none => simp [Sink.feed, recorder, hb]
          | some s => simp [Sink.feed, recorder, hb]

/-- Two loops leave every sink alike exactly when they offer the same
items. -/
theorem fed_agree_iff {l l' : List β} :
    (∀ (S : Type) (k : Sink α S), k.fed offer l = k.fed offer' l')
      ↔ l.filterMap offer = l'.filterMap offer' := by
  constructor
  · intro h
    rw [← recorder_fed, ← recorder_fed, h]
  · intro h S k
    rw [← k.fed_filterMap l, h, k.fed_filterMap]

theorem length_filterMap_le_of_skips
    (h : ∀ b, offer' b = none ∨ offer' b = offer b) (l : List β) :
    (l.filterMap offer').length ≤ (l.filterMap offer).length := by
  induction l with
  | nil => exact Nat.le_refl _
  | cons b l ih =>
      rcases h b with hb | hb
      · rw [List.filterMap_cons_none hb]
        exact Nat.le_trans ih
          ((List.sublist_cons_self b l).filterMap offer).length_le
      · rw [List.filterMap_cons, List.filterMap_cons, hb]
        cases offer b with
        | none => exact ih
        | some a => exact Nat.succ_le_succ ih

/-- A loop that offers less, entry by entry, offers the same items only
if it offers the same at every entry. -/
theorem filterMap_eq_iff_of_skips
    (h : ∀ b, offer' b = none ∨ offer' b = offer b) (l : List β) :
    l.filterMap offer = l.filterMap offer'
      ↔ ∀ b ∈ l, offer' b = offer b := by
  induction l with
  | nil => exact iff_of_true rfl fun b hb => absurd hb List.not_mem_nil
  | cons b l ih =>
      rw [List.forall_mem_cons]
      refine Iff.trans ?_ (and_congr_right fun _ => ih)
      cases ho : offer b with
      | none =>
          have hb : offer' b = none := (h b).elim id fun hb => hb.trans ho
          rw [List.filterMap_cons_none ho, List.filterMap_cons_none hb]
          exact (and_iff_right hb).symm
      | some a =>
          rw [List.filterMap_cons_some ho]
          rcases h b with hb | hb
          · -- the item is missing for good: what follows offers no more
            rw [List.filterMap_cons_none hb, hb]
            refine iff_of_false (fun heq => ?_) fun hboth =>
              Option.some_ne_none a hboth.1.symm
            have hlen := congrArg List.length heq
            have hle := length_filterMap_le_of_skips h l
            rw [List.length_cons] at hlen
            omega
          · rw [List.filterMap_cons_some (hb.trans ho), hb, ho,
              List.cons.injEq]
            exact and_congr_left fun _ => iff_of_true rfl rfl

end Lib.Feed
