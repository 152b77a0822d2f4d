import Fiber.Kernel.Channel.Links
import Fiber.Support.Unwinding

/-!
# Isolation of channels

`create` makes two endpoints at a time, so channel number `i` has the endpoints
`2 * i` and `2 * i + 1`, and they stay each other's peers.  What happens on one
channel has no influence on another one: all operations on the other channels
can be deleted from a run, and every answer on the channel, and its two
endpoints, stay what they were.
-/

namespace Fiber.Kernel.Channel

open Fiber.Support

/-- The channel that an endpoint belongs to. -/
def channelOf (r : ℕ) : ℕ := r / 2

/-- The operation is called on an endpoint of another channel.  A creation is
not. -/
def Elsewhere (i : ℕ) (op : Op) : Prop :=
  ∃ this ∈ op.this?, channelOf this ≠ i

instance (i : ℕ) : DecidablePred (Elsewhere i) := fun op =>
  inferInstanceAs (Decidable (∃ this ∈ op.this?, channelOf this ≠ i))

/-- Endpoints come in pairs, and a peer belongs to the same channel. -/
structure Paired (w : World) : Prop where
  linked : Linked w
  even : w.next % 2 = 0
  peer : ∀ {r q}, (w.get r).peer = some q → channelOf q = channelOf r

/-- The two stores show the same endpoints of the channel. -/
structure SameChannel (i : ℕ) (v w : World) : Prop where
  left : Paired v
  right : Paired w
  next : v.next = w.next
  get : ∀ r, channelOf r = i → v.get r = w.get r

variable {hooks : Placeholders} {v w w' : World} {op : Op} {answer : Answer}
  {i : ℕ}

theorem paired_init : Paired World.init where
  linked := .init
  even := rfl
  peer h := by cases h

theorem Transition.paired (ht : Transition hooks w op w' answer)
    (hw : Paired w) : Paired w' := by
  have hlinked := ht.linked hw.linked
  have hold : ∀ {r q}, w.Allocated r → (w'.get r).peer = some q →
      channelOf q = channelOf r := by
    intro r q hr hq
    rw [ht.peer_eq hr] at hq
    exact hw.peer hq
  cases ht with
  | create =>
      refine ⟨hlinked, ?_, ?_⟩
      · rw [create_next, Nat.add_mod_right]
        exact hw.even
      · intro r q hq
        have heven := hw.even
        rcases (create_allocated w r).mp (hlinked.allocated_self hq) with
          hr | rfl | rfl
        · exact hold hr hq
        · rw [create_get, if_pos rfl] at hq
          rw [← Option.some.inj hq, channelOf, channelOf]
          omega
        · rw [create_get, if_neg (Nat.succ_ne_self _), if_pos rfl] at hq
          rw [← Option.some.inj hq, channelOf, channelOf]
          omega
  | _ => exact ⟨hlinked, hw.even, fun hq => hold (hlinked.allocated_self hq) hq⟩

/-- An operation on another channel leaves the endpoints of this one alone. -/
theorem Transition.get_of_elsewhere (ht : Transition hooks w op w' answer)
    (hw : Paired w) (h : Elsewhere i op) :
    w'.next = w.next ∧ ∀ r, channelOf r = i → w'.get r = w.get r := by
  obtain ⟨this, hthis, hne⟩ := h
  have hset : ∀ (q : ℕ) (x : ChannelDispatcher), channelOf q ≠ i →
      (w.set q x).next = w.next ∧
        ∀ r, channelOf r = i → (w.set q x).get r = w.get r := by
    intro q x hq
    refine ⟨rfl, fun r hr => w.get_set_of_ne ?_ x⟩
    rintro rfl
    exact hq hr
  cases ht with
  | create => cases hthis
  | noObject | writeBadHandle | writePeerClosed | readBadHandle | readEmpty
  | readKept => exact ⟨rfl, fun _ _ => rfl⟩
  | writeDelivered _ _ hpeer _ | writeQueued _ _ hpeer _ =>
      obtain rfl := Option.some.inj hthis
      exact hset _ _ (by rw [hw.peer hpeer]; exact hne)
  | readTaken | setOwner | onHandleCountZero | incrementHandleCount
  | decrementHandleCount =>
      obtain rfl := Option.some.inj hthis
      exact hset _ _ hne

/-! ## The operations of one channel -/

theorem set_get_congr {p r : ℕ} (x : ChannelDispatcher)
    (h : v.get r = w.get r) : (v.set p x).get r = (w.set p x).get r := by
  rw [Store.get_set, Store.get_set, h]

/-- A write is decided by the endpoints of its channel. -/
theorem write_congr (hooks : Placeholders) (h : SameChannel i v w) {this : ℕ}
    (hthis : channelOf this = i) (tlScopes : List ProcessContext)
    (owner : FxKoid) (msg : MessagePacket) :
    (write hooks v tlScopes this owner msg).2 =
        (write hooks w tlScopes this owner msg).2 ∧
      ∀ r, channelOf r = i →
        (write hooks v tlScopes this owner msg).1.get r =
          (write hooks w tlScopes this owner msg).1.get r := by
  have hself := h.get this hthis
  by_cases howner : owner = (w.get this).owner
  · have howner' : owner = (v.get this).owner := by rwa [hself]
    rcases hpeer : (w.get this).peer with _ | peer
    · have hpeer' := hpeer
      rw [← hself] at hpeer'
      rw [write_of_no_peer howner hpeer, write_of_no_peer howner' hpeer']
      exact ⟨rfl, h.get⟩
    · have hpeer' := hpeer
      rw [← hself] at hpeer'
      have hsame := h.get peer (by rw [h.right.peer hpeer, hthis])
      rcases hmatch : (w.get peer).matchingWaiter hooks msg with _ | waiter
      · have hmatch' := hmatch
        rw [← hsame] at hmatch'
        rw [write_of_no_waiter howner hpeer hmatch,
          write_of_no_waiter howner' hpeer' hmatch', hsame]
        exact ⟨rfl, fun r hr => set_get_congr _ (h.get r hr)⟩
      · have hmatch' := hmatch
        rw [← hsame] at hmatch'
        rw [write_of_waiter howner hpeer hmatch,
          write_of_waiter howner' hpeer' hmatch', hsame]
        exact ⟨rfl, fun r hr => set_get_congr _ (h.get r hr)⟩
  · have howner' := howner
    rw [← hself] at howner'
    rw [write_of_owner_ne howner, write_of_owner_ne howner']
    exact ⟨rfl, h.get⟩

theorem perform_congr (h : SameChannel i v w) {this : ℕ}
    (hop : op.this? = some this) (hthis : channelOf this = i) :
    (perform hooks v op).2 = (perform hooks w op).2 ∧
      ∀ r, channelOf r = i →
        (perform hooks v op).1.get r = (perform hooks w op).1.get r := by
  have hself := h.get this hthis
  cases op with
  | create => cases hop
  | write tlScopes this' owner msg =>
      obtain rfl := Option.some.inj hop
      obtain ⟨hanswer, hget⟩ := write_congr hooks h hthis tlScopes owner msg
      refine ⟨?_, hget⟩
      simp only [perform, hanswer]
  | read this' | setOwner this' | onHandleCountZero this'
  | incrementHandleCount this' | decrementHandleCount this' =>
      obtain rfl := Option.some.inj hop
      simp only [perform, hself]
      exact ⟨trivial, fun r hr => set_get_congr _ (h.get r hr)⟩

theorem create_congr (h : SameChannel i v w) :
    (create v).2 = (create w).2 ∧ ∀ r, channelOf r = i →
      (create v).1.get r = (create w).1.get r := by
  constructor
  · simp only [create, Store.alloc, h.next]
  · intro r hr
    rw [create_get, create_get, h.next, h.get r hr]

/-- An operation on the channel, or a creation, is answered alike in both
stores, and leaves the same endpoints of the channel. -/
theorem step_congr (h : SameChannel i v w) (hop : ¬ Elsewhere i op) :
    (step hooks v op).2 = (step hooks w op).2 ∧
      ∀ r, channelOf r = i →
        (step hooks v op).1.get r = (step hooks w op).1.get r := by
  have hallocated : (∀ this, op.this? = some this → v.Allocated this) ↔
      ∀ this, op.this? = some this → w.Allocated this := by
    simp only [Store.Allocated, h.next]
  by_cases hfree : ∀ this, op.this? = some this → w.Allocated this
  · rw [step, step, if_pos hfree, if_pos (hallocated.mpr hfree)]
    rcases hthis : op.this? with _ | this
    · cases op with
      | create =>
          obtain ⟨hreply, hget⟩ := create_congr h
          refine ⟨?_, hget⟩
          simp only [perform, hreply]
      | _ => cases hthis
    · refine perform_congr h hthis (of_not_not fun hne => hop ?_)
      exact ⟨this, hthis, hne⟩
  · rw [step, step, if_neg hfree, if_neg (mt hallocated.mp hfree)]
    exact ⟨rfl, h.get⟩

theorem Transition.next_eq (ht : Transition hooks w op w' answer) :
    w'.next = if op = .create then w.next + 2 else w.next := by
  cases ht with
  | noObject hop =>
      rw [if_neg]
      rintro rfl
      cases hop
  | _ => rfl

/-- Operations on other channels are hidden from this one. -/
theorem unwinding (hooks : Placeholders) (i : ℕ) :
    Unwinding (machine hooks) (Elsewhere i) (SameChannel i) where
  hidden_step := by
    intro v w op hop h
    have ht := step_transition hooks v op
    obtain ⟨hnext, hget⟩ := ht.get_of_elsewhere h.left hop
    exact {
      left := ht.paired h.left
      right := h.right
      next := hnext.trans h.next
      get := fun r hr => (hget r hr).trans (h.get r hr)
    }
  state := by
    intro v w op hop h
    exact {
      left := (step_transition hooks v op).paired h.left
      right := (step_transition hooks w op).paired h.right
      next := by
        have hnext := (step_transition hooks v op).next_eq
        rw [h.next] at hnext
        exact hnext.trans (step_transition hooks w op).next_eq.symm
      get := (step_congr h hop).2
    }
  reply op hop h := (step_congr h hop).1

/-- Channels are isolated.  Deleting all operations on the other channels from
a run leaves every other event as it was, creations included, with its reply
and its effects, and it leaves the endpoints of the channel as they were. -/
theorem channel_isolation (hooks : Placeholders) (i : ℕ) (ops : List Op) :
    let kept := Unwinding.purge (Elsewhere i) ops
    Unwinding.seen (machine hooks) (Elsewhere i) World.init ops =
        ((machine hooks).trace World.init kept).map
          (fun e => (e.action, e.reply)) ∧
      ∀ r, channelOf r = i →
        ((machine hooks).exec World.init ops).get r =
          ((machine hooks).exec World.init kept).get r := by
  intro kept
  have hinit : SameChannel i World.init World.init :=
    ⟨paired_init, paired_init, rfl, fun _ _ => rfl⟩
  have hunwinding := unwinding hooks i
  refine ⟨?_, (hunwinding.exec_purge hinit ops).get⟩
  rw [hunwinding.seen_purge hinit ops, Unwinding.seen_purged]

end Fiber.Kernel.Channel
