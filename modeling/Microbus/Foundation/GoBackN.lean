import Mathlib.Data.List.Forall2
import Mathlib.Data.List.Pairwise
import Mathlib.Data.List.Infix
import Microbus.Foundation.Cyclic

/-! A retransmitting sender and a receiver that takes messages in order only, joined by two
lossy first-in-first-out channels. Messages are numbered from zero without wrapping; the
last section says when numbers modulo `m` on the wire are enough. -/
namespace GoBackN

variable {α : Type*}

/-- Both ends and what is in flight. A message on the data channel carries its number, an
acknowledgement the number of messages delivered when it was sent. -/
structure Conversation (α : Type*) where
  submitted : List α
  start : Nat
  next : Nat
  delivered : List α
  data : List (Nat × α)
  acks : List Nat

namespace Conversation

def initial : Conversation α := ⟨[], 0, 0, [], [], []⟩

def submit (c : Conversation α) (x : α) : Conversation α := { c with submitted := c.submitted ++ [x] }

def send (c : Conversation α) (x : α) : Conversation α :=
  { c with data := c.data ++ [(c.next, x)], next := c.next + 1 }

/-- A message that is not acknowledged goes out once more. -/
def resend (c : Conversation α) (a : Nat) (x : α) : Conversation α := { c with data := c.data ++ [(a, x)] }

def rewind (c : Conversation α) : Conversation α := { c with next := c.start }

/-- Any part of what is in flight may be lost. -/
def lose (c : Conversation α) (data : List (Nat × α)) (acks : List Nat) : Conversation α :=
  { c with data, acks }

/-- The message with number `a` reaches the receiver. -/
def deliver (c : Conversation α) (a : Nat) (x : α) : Conversation α :=
  if a = c.delivered.length then { c with delivered := c.delivered ++ [x] } else c

def sendAck (c : Conversation α) : Conversation α := { c with acks := c.acks ++ [c.delivered.length] }

/-- The sender learns that `r` messages were delivered. -/
def acknowledge (c : Conversation α) (r : Nat) : Conversation α :=
  { c with start := max c.start r, next := max c.next r }

/-- The sender keeps at most `cap` messages. -/
structure Inv (cap : Nat) (c : Conversation α) : Prop where
  start_le : c.start ≤ c.delivered.length
  start_le_next : c.start ≤ c.next
  next_le : c.next ≤ c.submitted.length
  submitted_le : c.submitted.length ≤ c.start + cap
  delivered_prefix : c.delivered <+: c.submitted
  content : ∀ p ∈ c.data, c.submitted[p.1]? = some p.2
  order : c.data.Pairwise fun p q => p.1 < q.1 + cap
  recent : ∀ p ∈ c.data, c.delivered.length ≤ p.1 + cap
  acks_sorted : c.acks.Pairwise (· ≤ ·)
  acks_range : ∀ r ∈ c.acks, c.start ≤ r ∧ r ≤ c.delivered.length

variable {cap : Nat} {c : Conversation α}

theorem inv_initial (cap : Nat) : Inv cap (initial : Conversation α) := by
  constructor <;> simp [initial]

namespace Inv

theorem delivered_le (h : Inv cap c) : c.delivered.length ≤ c.submitted.length :=
  h.delivered_prefix.length_le

theorem data_lt (h : Inv cap c) {p : Nat × α} (hp : p ∈ c.data) : p.1 < c.submitted.length :=
  (List.getElem?_eq_some_iff.mp (h.content p hp)).1

theorem submit (h : Inv cap c) (x : α) (hroom : c.submitted.length < c.start + cap) :
    Inv cap (c.submit x) where
  start_le := h.start_le
  start_le_next := h.start_le_next
  next_le := h.next_le.trans (by simp [Conversation.submit])
  submitted_le := by
    simp only [Conversation.submit, List.length_append, List.length_cons, List.length_nil]
    omega
  delivered_prefix := h.delivered_prefix.trans (List.prefix_append _ _)
  content := by
    intro p hp
    have hlt := h.data_lt hp
    have hc := h.content p hp
    simp only [Conversation.submit]
    rw [List.getElem?_append_left hlt, hc]
  order := h.order
  recent := h.recent
  acks_sorted := h.acks_sorted
  acks_range := h.acks_range

theorem send (h : Inv cap c) {x : α} (hx : c.submitted[c.next]? = some x) : Inv cap (c.send x) where
  start_le := h.start_le
  start_le_next := Nat.le_succ_of_le h.start_le_next
  next_le := (List.getElem?_eq_some_iff.mp hx).1
  submitted_le := h.submitted_le
  delivered_prefix := h.delivered_prefix
  content := by
    intro p hp
    rcases List.mem_append.mp hp with hp | hp
    · exact h.content p hp
    · rw [List.mem_singleton.mp hp]; exact hx
  order := by
    refine List.pairwise_append.mpr ⟨h.order, List.pairwise_singleton _ _, ?_⟩
    intro p hp q hq
    rw [List.mem_singleton.mp hq]
    have := h.data_lt hp
    have := h.submitted_le
    have := h.start_le_next
    simp only
    omega
  recent := by
    intro p hp
    rcases List.mem_append.mp hp with hp | hp
    · exact h.recent p hp
    · rw [List.mem_singleton.mp hp]
      have := h.delivered_le
      have := h.submitted_le
      have := h.start_le_next
      simp only [Conversation.send]
      omega
  acks_sorted := h.acks_sorted
  acks_range := h.acks_range

theorem resend (h : Inv cap c) {a : Nat} {x : α} (hx : c.submitted[a]? = some x) (ha : c.start ≤ a) :
    Inv cap (c.resend a x) :=
  { h with
    content := by
      intro p hp
      rcases List.mem_append.mp hp with hp | hp
      · exact h.content p hp
      · rw [List.mem_singleton.mp hp]
        exact hx
    order := by
      refine List.pairwise_append.mpr ⟨h.order, List.pairwise_singleton _ _, ?_⟩
      intro p hp q hq
      rw [List.mem_singleton.mp hq]
      have := h.data_lt hp
      have := h.submitted_le
      simp only
      omega
    recent := by
      intro p hp
      rcases List.mem_append.mp hp with hp | hp
      · exact h.recent p hp
      · rw [List.mem_singleton.mp hp]
        have := h.delivered_le
        have := h.submitted_le
        simp only [Conversation.resend]
        omega }

theorem rewind (h : Inv cap c) : Inv cap c.rewind :=
  { h with
    start_le_next := Nat.le_refl _
    next_le := h.start_le_next.trans h.next_le }

theorem lose (h : Inv cap c) {data : List (Nat × α)} {acks : List Nat} (hd : List.Sublist data c.data)
    (ha : List.Sublist acks c.acks) : Inv cap (c.lose data acks) :=
  { h with
    content := fun p hp => h.content p (hd.subset hp)
    order := h.order.sublist hd
    recent := fun p hp => h.recent p (hd.subset hp)
    acks_sorted := h.acks_sorted.sublist ha
    acks_range := fun r hr => h.acks_range r (ha.subset hr) }

theorem deliver (h : Inv cap c) {a : Nat} {x : α} {rest : List (Nat × α)} (hd : c.data = (a, x) :: rest) :
    Inv cap ((c.lose rest c.acks).deliver a x) := by
  have hsub : List.Sublist rest c.data := by rw [hd]; exact List.sublist_cons_self _ _
  have hl := h.lose hsub (List.Sublist.refl c.acks)
  unfold Conversation.deliver
  split
  · rename_i ha
    have hmem : (a, x) ∈ c.data := by rw [hd]; exact List.mem_cons_self
    have hx := h.content _ hmem
    have ha' : a = c.delivered.length := ha
    refine { hl with
      start_le := ?_
      delivered_prefix := ?_
      recent := ?_
      acks_range := ?_ }
    · have := h.start_le
      simp only [List.length_append, List.length_cons, List.length_nil]
      exact Nat.le_succ_of_le this
    · obtain ⟨t, ht⟩ := h.delivered_prefix
      have hlen : c.submitted[c.delivered.length]? = some x := by rw [← ha']; exact hx
      rw [← ht, List.getElem?_append_right (Nat.le_refl _), Nat.sub_self] at hlen
      cases t with
      | nil => simp at hlen
      | cons y t =>
          have hy : y = x := by simpa using hlen
          subst hy
          exact ⟨t, by simpa [Conversation.lose] using ht⟩
    · intro p hp
      have horder := h.order
      rw [hd] at horder
      have := (List.pairwise_cons.mp horder).1 p hp
      simp only [List.length_append, List.length_cons, List.length_nil]
      have hlen : (c.lose rest c.acks).delivered.length = a := ha.symm
      omega
    · intro r hr
      have := h.acks_range r hr
      refine ⟨this.1, ?_⟩
      simp only [List.length_append, List.length_cons, List.length_nil]
      exact Nat.le_succ_of_le this.2
  · exact hl

theorem sendAck (h : Inv cap c) : Inv cap c.sendAck :=
  { h with
    acks_sorted := by
      refine List.pairwise_append.mpr ⟨h.acks_sorted, List.pairwise_singleton _ _, ?_⟩
      intro r hr q hq
      rw [List.mem_singleton.mp hq]
      exact (h.acks_range r hr).2
    acks_range := by
      intro r hr
      rcases List.mem_append.mp hr with hr | hr
      · exact h.acks_range r hr
      · rw [List.mem_singleton.mp hr]; exact ⟨h.start_le, Nat.le_refl _⟩ }

theorem acknowledge (h : Inv cap c) {r : Nat} {rest : List Nat} (hr : c.acks = r :: rest) :
    Inv cap ((c.lose c.data rest).acknowledge r) := by
  have hsub : List.Sublist rest c.acks := by rw [hr]; exact List.sublist_cons_self _ _
  have hl := h.lose (List.Sublist.refl c.data) hsub
  have hmem : r ∈ c.acks := by rw [hr]; exact List.mem_cons_self
  obtain ⟨h1, h2⟩ := h.acks_range r hmem
  have hle := h.delivered_le
  refine { hl with
    start_le := ?_
    start_le_next := ?_
    next_le := ?_
    submitted_le := ?_
    acks_range := ?_ }
  · exact Nat.max_le.mpr ⟨h.start_le, h2⟩
  · exact max_le_max_right r h.start_le_next
  · exact Nat.max_le.mpr ⟨h.next_le, h2.trans hle⟩
  · have := h.submitted_le
    simp only [Conversation.acknowledge, Conversation.lose]
    omega
  · intro q hq
    have hsorted := h.acks_sorted
    rw [hr] at hsorted
    have hrq := (List.pairwise_cons.mp hsorted).1 q hq
    obtain ⟨h3, h4⟩ := hl.acks_range q hq
    exact ⟨Nat.max_le.mpr ⟨h3, hrq⟩, h4⟩

variable {m : Nat}

/-- The receiver recognises the message it waits for by its residue. -/
theorem data_residue (h : Inv cap c) (hm : cap < m) {p : Nat × α} (hp : p ∈ c.data) :
    p.1 % m = c.delivered.length % m ↔ p.1 = c.delivered.length := by
  refine ⟨fun he => Cyclic.eq_of_mod_eq he ?_ ?_, fun he => by rw [he]⟩
  · have := h.data_lt hp
    have := h.submitted_le
    have := h.start_le
    omega
  · have := h.recent p hp
    omega

/-- The sender reads back from its residue an acknowledgement that is not of the past. -/
theorem ack_residue (h : Inv cap c) (hm : cap < m) {r k : Nat} (hr : r ∈ c.acks) (hpos : 0 < r)
    (hsk : c.start ≤ k) (hke : k < c.submitted.length) (he : (r - 1) % m = k % m) : r = k + 1 := by
  obtain ⟨hsr, hrd⟩ := h.acks_range r hr
  have hcap := h.submitted_le
  have hle := h.delivered_le
  have := Cyclic.eq_of_mod_eq he (by omega) (by omega)
  omega

end Inv
end Conversation

variable {β : Type*} {enc : Nat → β} {cap m : Nat}

/-- The frames behind messages in flight: each carries the number of its message as a residue, and its content
as long as that is not acknowledged. -/
def Framed (enc : Nat → β) (start : Nat) : List (Nat × α) → List (β × α) → Prop :=
  List.Forall₂ fun p q => q.1 = enc p.1 ∧ (p.1 < start ∨ q.2 = p.2)

theorem Framed.mono {start start' : Nat} {data : List (Nat × α)} {frames : List (β × α)}
    (h : Framed enc start data frames) (hle : start ≤ start') : Framed enc start' data frames :=
  h.imp fun _ _ hframe => ⟨hframe.1, hframe.2.imp_left fun hlt => hlt.trans_le hle⟩

/-- A frame at the head that carries the number the receiver waits for carries the next message. -/
theorem Conversation.Inv.framed_next {c : Conversation α} (h : c.Inv cap) (hm : cap < m)
    (henc : ∀ a b, enc a = enc b ↔ a % m = b % m) {p : Nat × α} {rest : List (Nat × α)}
    (hd : c.data = p :: rest) {x : α} {q : β}
    (hframe : q = enc p.1 ∧ (p.1 < c.start ∨ x = p.2)) (hnext : q = enc c.delivered.length) :
    p = (c.delivered.length, x) := by
  have hmem : p ∈ c.data := hd ▸ List.mem_cons_self
  have hnumber : p.1 = c.delivered.length := (h.data_residue hm hmem).mp ((henc _ _).mp (hframe.1.symm.trans hnext))
  have hstart := h.start_le
  have hcontent : x = p.2 := hframe.2.resolve_left (by omega)
  exact Prod.ext hnumber hcontent.symm

end GoBackN
