import Fiber.Kernel.Channel.World

/-!
# Links between endpoints

`create` cross-links two new endpoints and no other operation changes a link.
`Linked` is the invariant of the store this gives: the peer relation is a
fixed-point-free symmetric matching of the existing endpoints.
-/

namespace Fiber.Kernel.Channel

open Fiber.Support

/-- The endpoints are matched in pairs, and no peer is marked closed. -/
structure Linked (w : World) : Prop where
  blank : ∀ r, ¬ w.Allocated r → w.get r = {}
  linked : ∀ r, w.Allocated r → ∃ q, (w.get r).peer = some q
  allocated : ∀ r q, (w.get r).peer = some q → w.Allocated q
  symm : ∀ r q, (w.get r).peer = some q → (w.get q).peer = some r
  ne : ∀ r q, (w.get r).peer = some q → q ≠ r
  opened : ∀ r, (w.get r).peerHasClosed = false

namespace Linked

theorem init : Linked World.init where
  blank := fun _ _ => rfl
  linked := fun r hr => absurd hr (Nat.not_lt_zero r)
  allocated := fun _ _ h => by cases h
  symm := fun _ _ h => by cases h
  ne := fun _ _ h => by cases h
  opened := fun _ => rfl

variable {w : World} (h : Linked w)

include h

theorem allocated_self {r q : ℕ} (hpeer : (w.get r).peer = some q) :
    w.Allocated r :=
  h.allocated q r (h.symm r q hpeer)

/-- An endpoint is the peer of at most one endpoint. -/
theorem peer_injective {r r' q : ℕ} (hr : (w.get r).peer = some q)
    (hr' : (w.get r').peer = some q) : r = r' := by
  have hq := (h.symm r q hr).symm.trans (h.symm r' q hr')
  exact Option.some.inj hq

/-- Replacing an endpoint by one with the same links keeps the matching. -/
theorem set {r : ℕ} (hr : w.Allocated r) {x : ChannelDispatcher}
    (hpeer : x.peer = (w.get r).peer)
    (hclosed : x.peerHasClosed = (w.get r).peerHasClosed) :
    Linked (w.set r x) := by
  have hkeep : ∀ q, ((w.set r x).get q).peer = (w.get q).peer ∧
      ((w.set r x).get q).peerHasClosed = (w.get q).peerHasClosed :=
    w.get_set_rel
      (R := fun x y => y.peer = x.peer ∧ y.peerHasClosed = x.peerHasClosed)
      (fun _ => ⟨rfl, rfl⟩) ⟨hpeer, hclosed⟩
  constructor
  · intro q hq
    have hne : q ≠ r := by
      rintro rfl
      exact hq hr
    rw [w.get_set_of_ne hne]
    exact h.blank q hq
  · intro q hq
    rw [(hkeep q).1]
    exact h.linked q hq
  · intro q q' hq
    rw [(hkeep q).1] at hq
    exact h.allocated q q' hq
  · intro q q' hq
    rw [(hkeep q).1] at hq
    rw [(hkeep q').1]
    exact h.symm q q' hq
  · intro q q' hq
    rw [(hkeep q).1] at hq
    exact h.ne q q' hq
  · intro q
    rw [(hkeep q).2]
    exact h.opened q

end Linked

/-! ## The new channel -/

@[simp] theorem create_next (w : World) : (create w).1.next = w.next + 2 :=
  rfl

theorem create_get (w : World) (q : ℕ) :
    (create w).1.get q =
      if q = w.next then { peer := some (w.next + 1) }
      else if q = w.next + 1 then { peer := some w.next }
      else w.get q := by
  by_cases h0 : q = w.next
  · subst q
    simp [create, Store.get_set, Store.alloc,
      ChannelDispatcher.initPeer]
  · by_cases h1 : q = w.next + 1
    · subst q
      simp [create, Store.get_set, Store.alloc,
        ChannelDispatcher.initPeer]
    · simp [create, Store.get_set, Store.alloc, h0, h1]

theorem create_get_of_allocated {w : World} {q : ℕ} (hq : w.Allocated q) :
    (create w).1.get q = w.get q := by
  have hlt : q < w.next := hq
  rw [create_get, if_neg (by omega), if_neg (by omega)]

/-- Creating a channel sets two peers and changes nothing else. -/
theorem Linked.create_get_eq {w : World} (h : Linked w) (r : ℕ) :
    ∃ peer, (create w).1.get r = { w.get r with peer := peer } := by
  by_cases hr : w.Allocated r
  · exact ⟨(w.get r).peer, create_get_of_allocated hr⟩
  · rw [h.blank r hr, create_get]
    split
    · exact ⟨some (w.next + 1), rfl⟩
    · split
      · exact ⟨some w.next, rfl⟩
      · exact ⟨none, h.blank r hr⟩

theorem create_allocated (w : World) (q : ℕ) :
    (create w).1.Allocated q ↔
      w.Allocated q ∨ q = w.next ∨ q = w.next + 1 := by
  simp only [Store.Allocated, create_next]
  omega

theorem Linked.create {w : World} (h : Linked w) :
    Linked (create w).1 := by
  -- A link of the new store is one of the two new ones or an old one.
  have hcases : ∀ r q, ((Channel.create w).1.get r).peer = some q →
      (r = w.next ∧ q = w.next + 1) ∨ (r = w.next + 1 ∧ q = w.next) ∨
        (w.Allocated r ∧ (w.get r).peer = some q) := by
    intro r q hq
    rw [create_get] at hq
    split at hq
    next hr => exact Or.inl ⟨hr, (Option.some.inj hq).symm⟩
    next =>
      split at hq
      next hr => exact Or.inr (Or.inl ⟨hr, (Option.some.inj hq).symm⟩)
      next => exact Or.inr (Or.inr ⟨h.allocated_self hq, hq⟩)
  constructor
  · intro r hr
    rw [create_allocated] at hr
    obtain ⟨hold, hnew⟩ := not_or.mp hr
    obtain ⟨h0, h1⟩ := not_or.mp hnew
    rw [create_get, if_neg h0, if_neg h1]
    exact h.blank r hold
  · intro r hr
    rcases (create_allocated w r).mp hr with hold | rfl | rfl
    · rw [create_get_of_allocated hold]
      exact h.linked r hold
    · exact ⟨w.next + 1, by simp [create_get]⟩
    · exact ⟨w.next, by simp [create_get]⟩
  · intro r q hq
    rw [create_allocated]
    rcases hcases r q hq with ⟨-, rfl⟩ | ⟨-, rfl⟩ | ⟨-, hold⟩
    · exact Or.inr (Or.inr rfl)
    · exact Or.inr (Or.inl rfl)
    · exact Or.inl (h.allocated r q hold)
  · intro r q hq
    rcases hcases r q hq with ⟨rfl, rfl⟩ | ⟨rfl, rfl⟩ | ⟨-, hold⟩
    · simp [create_get]
    · simp [create_get]
    · rw [create_get_of_allocated (h.allocated r q hold)]
      exact h.symm r q hold
  · intro r q hq
    rcases hcases r q hq with ⟨rfl, rfl⟩ | ⟨rfl, rfl⟩ | ⟨-, hold⟩
    · omega
    · omega
    · exact h.ne r q hold
  · intro r
    rw [create_get]
    split
    · rfl
    · split
      · rfl
      · exact h.opened r

/-! ## Links along a run -/

variable {hooks : Placeholders} {w w' : World} {op : Op} {answer : Answer}

theorem Transition.linked (ht : Transition hooks w op w' answer)
    (h : Linked w) : Linked w' := by
  cases ht with
  | noObject | writeBadHandle | writePeerClosed | readBadHandle | readEmpty
  | readKept => exact h
  | create => exact h.create
  | writeDelivered _ _ hpeer _ => exact h.set (h.allocated _ _ hpeer) rfl rfl
  | writeQueued _ _ hpeer _ =>
      apply h.set (h.allocated _ _ hpeer) <;>
        rw [ChannelDispatcher.writeSelf_self]
  | readTaken halloc =>
      apply h.set halloc <;> rw [ChannelDispatcher.shifted_eq]
  | setOwner halloc =>
      apply h.set halloc <;> rw [ChannelDispatcher.setOwner_eq]
  | onHandleCountZero halloc => exact h.set halloc rfl rfl
  | incrementHandleCount halloc => exact h.set halloc rfl rfl
  | decrementHandleCount halloc => exact h.set halloc rfl rfl

theorem linked_preserved (hooks : Placeholders) :
    (machine hooks).Preserves Linked :=
  fun w op h => (step_transition hooks w op).linked h

/-- The link of an existing endpoint never changes. -/
theorem Transition.peer_eq (ht : Transition hooks w op w' answer)
    {r : ℕ} (hr : w.Allocated r) : (w'.get r).peer = (w.get r).peer := by
  have hset : ∀ (q : ℕ) (x : ChannelDispatcher),
      x.peer = (w.get q).peer → ((w.set q x).get r).peer = (w.get r).peer :=
    fun _ _ hx => w.get_set_rel (R := fun x y => y.peer = x.peer)
      (fun _ => rfl) hx r
  cases ht with
  | noObject | writeBadHandle | writePeerClosed | readBadHandle | readEmpty
  | readKept => rfl
  | create => rw [create_get_of_allocated hr]
  | writeDelivered => exact hset _ _ rfl
  | writeQueued => exact hset _ _ (by rw [ChannelDispatcher.writeSelf_self])
  | readTaken => exact hset _ _ (by rw [ChannelDispatcher.shifted_eq])
  | setOwner => exact hset _ _ (by rw [ChannelDispatcher.setOwner_eq])
  | onHandleCountZero => exact hset _ _ rfl
  | incrementHandleCount => exact hset _ _ rfl
  | decrementHandleCount => exact hset _ _ rfl

theorem exec_peer_eq (hooks : Placeholders) {w : World} (h : Linked w)
    {r q : ℕ} (hpeer : (w.get r).peer = some q) (ops : List Op) :
    (((machine hooks).exec w ops).get r).peer = some q := by
  have hrel := (linked_preserved hooks).exec_rel
    (R := fun v v' => (v.get r).peer = some q → (v'.get r).peer = some q)
    (fun _ hv => hv) (fun _ _ _ hvt htr hv => htr (hvt hv))
    (fun v op hv hr => by
      have hkeep := (step_transition hooks v op).peer_eq (hv.allocated_self hr)
      exact hkeep.trans hr)
    h ops
  exact hrel hpeer

theorem Transition.allocated (ht : Transition hooks w op w' answer)
    {r : ℕ} (hr : w.Allocated r) : w'.Allocated r := by
  cases ht with
  | create => exact (create_allocated w r).mpr (Or.inl hr)
  | _ => exact hr

/-- An endpoint that exists keeps existing. -/
theorem exec_allocated (hooks : Placeholders) {w : World} {r : ℕ}
    (hr : w.Allocated r) (ops : List Op) :
    ((machine hooks).exec w ops).Allocated r := by
  have hpreserved :
      (machine hooks).Preserves fun v => v.Allocated r :=
    fun v op hv => (step_transition hooks v op).allocated hv
  exact hpreserved.exec hr ops

end Fiber.Kernel.Channel
