/-
Requests and replies over a connection that keeps its order both ways.

A request is numbered as it is sent, and a reply carries the number of
the request it answers; neither party can see the numbers. The server
answers the oldest request it has not answered yet, the client takes the
oldest reply it has not taken yet, and either may be late.

# The law

What is on its way, replies first, is numbered without a gap from the
count of replies taken (`InOrder`). So the reply taken next answers that
request (`InOrder.next_reply`), whatever the delays.

# The log

A server may keep what it answered to which request. `Logged` says that
the log accounts for every reply on its way, and knows of no request
that is not answered yet, so what it says of a request never changes
(`lookup_append_of_lt`).
-/
import Mathlib.Data.List.Basic
import Mathlib.Data.List.Range

namespace Lib.Pairing

/-- Both directions, oldest first, and how many requests were sent and
replies taken. -/
structure Exchange (α β : Type) where
  requests : List (Nat × α)
  replies : List (Nat × β)
  asked : Nat
  taken : Nat

variable {α β : Type}

def Exchange.start (α β : Type) : Exchange α β := ⟨[], [], 0, 0⟩

def Exchange.ask (x : Exchange α β) (a : α) : Exchange α β :=
  { x with requests := x.requests ++ [(x.asked, a)], asked := x.asked + 1 }

/-- The server's turn: what it replies to the oldest request. -/
def Exchange.answer (x : Exchange α β) (bs : List β) : Exchange α β :=
  match x.requests with
  | [] => x
  | (id, _) :: rest =>
      { x with requests := rest, replies := x.replies ++ bs.map (id, ·) }

def Exchange.take (x : Exchange α β) : Exchange α β :=
  { x with replies := x.replies.tail, taken := x.taken + 1 }

/-- What is on its way is numbered in order, from the replies taken. -/
structure InOrder (x : Exchange α β) : Prop where
  replies : x.replies.map Prod.fst = List.range' x.taken x.replies.length
  requests : x.requests.map Prod.fst
    = List.range' (x.taken + x.replies.length) x.requests.length
  asked : x.asked = x.taken + x.replies.length + x.requests.length

variable {x : Exchange α β}

theorem InOrder.start (α β : Type) : InOrder (Exchange.start α β) :=
  ⟨rfl, rfl, rfl⟩

theorem InOrder.ask (h : InOrder x) (a : α) : InOrder (x.ask a) := by
  have hlen : (x.requests ++ [(x.asked, a)]).length
      = x.requests.length + 1 := List.length_append
  refine ⟨h.replies, ?_, ?_⟩
  · show (x.requests ++ [(x.asked, a)]).map Prod.fst
      = List.range' (x.taken + x.replies.length)
        (x.requests ++ [(x.asked, a)]).length
    rw [hlen, List.range'_1_concat, List.map_append, h.requests, ← h.asked]
    rfl
  · show x.asked + 1
      = x.taken + x.replies.length + (x.requests ++ [(x.asked, a)]).length
    rw [hlen, h.asked, Nat.add_assoc]

/-- A request on its way comes after those that have their reply. -/
theorem InOrder.mem_requests (h : InOrder x) {p : Nat × α}
    (hp : p ∈ x.requests) :
    x.taken + x.replies.length ≤ p.1 ∧ p.1 < x.asked := by
  have hid := List.mem_map_of_mem (f := Prod.fst) hp
  rw [h.requests, List.mem_range'_1, ← h.asked] at hid
  exact hid

/-- The request answered next is the first one not answered. -/
theorem InOrder.next_request (h : InOrder x) {p : Nat × α}
    {rest : List (Nat × α)} (hreq : x.requests = p :: rest) :
    p.1 = x.taken + x.replies.length
      ∧ rest.map Prod.fst
        = List.range' (x.taken + x.replies.length + 1) rest.length := by
  have hids := h.requests
  rw [hreq, List.length_cons, List.range'_succ, List.map_cons] at hids
  exact List.cons.inj hids

theorem answer_cons {p : Nat × α} {rest : List (Nat × α)}
    (hreq : x.requests = p :: rest) (bs : List β) :
    x.answer bs
      = { x with
          requests := rest
          replies := x.replies ++ bs.map (p.1, ·) } := by
  rw [Exchange.answer, hreq]

/-- A server that gives each request one reply keeps the order. -/
theorem InOrder.answer (h : InOrder x) {p : Nat × α}
    {rest : List (Nat × α)} (hreq : x.requests = p :: rest) (b : β) :
    InOrder (x.answer [b]) := by
  obtain ⟨hid, hrest⟩ := h.next_request hreq
  have hlen : (x.replies ++ [(p.1, b)]).length = x.replies.length + 1 :=
    List.length_append
  rw [answer_cons hreq]
  refine ⟨?_, ?_, ?_⟩
  · show (x.replies ++ [(p.1, b)]).map Prod.fst
      = List.range' x.taken (x.replies ++ [(p.1, b)]).length
    rw [hlen, List.range'_1_concat, List.map_append, h.replies, hid]
    rfl
  · show rest.map Prod.fst
      = List.range' (x.taken + (x.replies ++ [(p.1, b)]).length) rest.length
    rw [hlen, hrest, Nat.add_assoc]
  · show x.asked
      = x.taken + (x.replies ++ [(p.1, b)]).length + rest.length
    rw [h.asked, hreq, hlen, List.length_cons]
    omega

/-- The reply taken next answers the first request whose reply was not
taken. -/
theorem InOrder.next_reply (h : InOrder x) {p : Nat × β}
    {rest : List (Nat × β)} (hrep : x.replies = p :: rest) :
    p.1 = x.taken
      ∧ rest.map Prod.fst = List.range' (x.taken + 1) rest.length := by
  have hids := h.replies
  rw [hrep, List.length_cons, List.range'_succ, List.map_cons] at hids
  exact List.cons.inj hids

theorem InOrder.take (h : InOrder x) {p : Nat × β} {rest : List (Nat × β)}
    (hrep : x.replies = p :: rest) : InOrder x.take := by
  have hlen : x.taken + x.replies.length
      = x.taken + 1 + x.replies.tail.length := by
    rw [hrep, List.tail_cons, List.length_cons]
    omega
  refine ⟨?_, ?_, ?_⟩
  · show x.replies.tail.map Prod.fst
      = List.range' (x.taken + 1) x.replies.tail.length
    rw [hrep]
    exact (h.next_reply hrep).2
  · show x.requests.map Prod.fst
      = List.range' (x.taken + 1 + x.replies.tail.length) x.requests.length
    rw [h.requests, hlen]
  · show x.asked
      = x.taken + 1 + x.replies.tail.length + x.requests.length
    rw [h.asked, hlen]

-- =================================================================== log

/-- The log of a server whose answer `a` travels as `b` when `R a b`. -/
structure Logged {γ : Type} (R : γ → β → Prop) (x : Exchange α β)
    (log : List (Nat × γ)) : Prop where
  below : ∀ p ∈ log, p.1 < x.taken + x.replies.length
  replies : ∀ p ∈ x.replies, ∃ a, log.lookup p.1 = some a ∧ R a p.2

variable {γ : Type} {R : γ → β → Prop} {log : List (Nat × γ)}

theorem logged_start (R : γ → β → Prop) :
    Logged R (Exchange.start α β) [] := ⟨nofun, nofun⟩

theorem lookup_singleton {n k : Nat} {a b : γ} :
    [(n, a)].lookup k = some b ↔ k = n ∧ a = b := by
  rw [List.lookup_cons]
  by_cases h : k = n
  · simp [h]
  · rw [beq_false_of_ne h]
    simp [h]

/-- Nothing is logged of a request that has no reply yet. -/
theorem Logged.lookup_eq_none (h : Logged R x log) {k : Nat}
    (hk : x.taken + x.replies.length ≤ k) : log.lookup k = none := by
  rw [List.lookup_eq_none_iff]
  intro p hp
  have hlt := h.below p hp
  exact bne_iff_ne.mpr (by omega)

/-- A later answer changes nothing about the requests answered before. -/
theorem lookup_append_of_lt (log : List (Nat × γ)) {p : Nat × γ} {k : Nat}
    (hk : k < p.1) : (log ++ [p]).lookup k = log.lookup k := by
  have hnone : [p].lookup k = none := by
    rw [List.lookup_eq_none_iff, List.forall_mem_singleton]
    exact bne_iff_ne.mpr (Nat.ne_of_lt hk)
  rw [List.lookup_append, hnone, Option.or_none]

theorem Logged.ask (h : Logged R x log) (a : α) : Logged R (x.ask a) log :=
  ⟨h.below, h.replies⟩

/-- The server logs what it answers. -/
theorem Logged.answer (h : Logged R x log) (hx : InOrder x) {p : Nat × α}
    {rest : List (Nat × α)} (hreq : x.requests = p :: rest) {a : γ} {b : β}
    (hab : R a b) : Logged R (x.answer [b]) (log ++ [(p.1, a)]) := by
  have hid := (hx.next_request hreq).1
  rw [answer_cons hreq]
  constructor
  · intro q hq
    show q.1 < x.taken + (x.replies ++ [(p.1, b)]).length
    rw [List.length_append, List.length_singleton]
    rcases List.mem_append.mp hq with hq | hq
    · exact Nat.lt_succ_of_lt (h.below q hq)
    · rw [List.mem_singleton.mp hq]
      exact Nat.lt_succ_of_le (Nat.le_of_eq hid)
  · intro q hq
    rw [List.lookup_append]
    rcases List.mem_append.mp hq with hq | hq
    · obtain ⟨a', ha', hR⟩ := h.replies q hq
      rw [ha']
      exact ⟨a', rfl, hR⟩
    · rw [List.mem_singleton.mp hq,
        h.lookup_eq_none (Nat.le_of_eq hid.symm)]
      exact ⟨a, List.lookup_cons_self, hab⟩

theorem Logged.take (h : Logged R x log) {p : Nat × β}
    {rest : List (Nat × β)} (hrep : x.replies = p :: rest) :
    Logged R x.take log := by
  refine ⟨fun q hq => ?_, fun q hq => h.replies q (List.mem_of_mem_tail hq)⟩
  show q.1 < x.taken + 1 + x.replies.tail.length
  have hlt := h.below q hq
  rw [hrep, List.length_cons] at hlt
  rw [hrep, List.tail_cons]
  omega

end Lib.Pairing
