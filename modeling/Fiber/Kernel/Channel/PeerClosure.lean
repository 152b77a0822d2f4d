import Fiber.Kernel.Channel.History
import Fiber.Kernel.Channel.Waiters

/-!
# What an endpoint sees of its peer's closure

`read` and `write` have a result for a closed peer, and nothing ever marks a
peer closed: `on_handle_count_zero` only cancels waiters, `peer_` is never
cleared, `peer_has_closed_` is never set, and `decrement_handle_count` does not
call `on_handle_count_zero`.  This module records the runs of
`on_handle_count_zero`, states what observing a closure means and determines
the runs in which the code meets it.
-/

namespace Fiber.Kernel.Channel

open Fiber.Support

/-! ## Runs of `on_handle_count_zero` -/

/-- The endpoints whose `on_handle_count_zero` an operation runs.  No method
calls it on an endpoint: `decrement_handle_count` subtracts one and returns,
also when the count is then zero. -/
def handleCountZeroRuns (w : World) : Op → List ℕ
  | .onHandleCountZero this => if w.Allocated this then [this] else []
  | .decrementHandleCount _ | .incrementHandleCount _ => []
  | .create | .write .. | .read .. | .setOwner .. => []

/-- The event takes the last handle of `a` away. -/
def DecrementsToZero (a : ℕ) (e : ChannelEvent) : Prop :=
  e.action = .decrementHandleCount a ∧ e.before.Allocated a ∧
    (e.after.get a).currentHandleCount = 0

instance (a : ℕ) (e : ChannelEvent) : Decidable (DecrementsToZero a e) :=
  inferInstanceAs (Decidable (_ ∧ _ < _ ∧ _ = _))

theorem mem_handleCountZeroRuns {w : World} {op : Op} {a : ℕ} :
    a ∈ handleCountZeroRuns w op ↔
      op = .onHandleCountZero a ∧ w.Allocated a := by
  cases op with
  | onHandleCountZero this =>
      simp only [handleCountZeroRuns, List.mem_ite_nil_right,
        List.mem_singleton, Op.onHandleCountZero.injEq]
      constructor
      · rintro ⟨halloc, rfl⟩
        exact ⟨rfl, halloc⟩
      · rintro ⟨rfl, halloc⟩
        exact ⟨halloc, rfl⟩
  | _ => simp [handleCountZeroRuns]

/-- Taking a handle away runs nothing. -/
theorem DecrementsToZero.not_mem_runs {a : ℕ} {e : ChannelEvent}
    (h : DecrementsToZero a e) :
    a ∉ handleCountZeroRuns e.before e.action := by
  rw [mem_handleCountZeroRuns, h.1]
  rintro ⟨⟨⟩, -⟩

/-- In every store: an endpoint with waiters cancels some exactly if its
`on_handle_count_zero` is run. -/
theorem Transition.cancels_iff {hooks : Placeholders} {w w' : World} {op : Op}
    {answer : Answer} (ht : Transition hooks w op w' answer) {a : ℕ}
    (hwaiting : (w.get a).waiters ≠ []) :
    (∃ waiter status, (a, .cancel waiter status) ∈ answer.effects) ↔
      a ∈ handleCountZeroRuns w op := by
  rw [mem_handleCountZeroRuns]
  constructor
  · rintro ⟨waiter, status, hcancel⟩
    cases ht with
    | onHandleCountZero halloc =>
        obtain ⟨_, _, heq⟩ := List.mem_map.mp hcancel
        cases heq
        exact ⟨rfl, halloc⟩
    | writeQueued =>
        obtain ⟨effect, heffect, heq⟩ := List.mem_map.mp hcancel
        have hnone := writeSelf_completed _ _ _ _ effect heffect
        rw [(Prod.mk.inj heq).2] at hnone
        cases hnone
    | writeDelivered => simp at hcancel
    | _ => cases hcancel
  · rintro ⟨hop, halloc⟩
    obtain ⟨waiter, hwaiter⟩ := List.exists_mem_of_ne_nil _ hwaiting
    cases ht with
    | noObject hthis hfree =>
        subst hop
        obtain rfl := Option.some.inj hthis
        exact absurd halloc hfree
    | onHandleCountZero =>
        cases hop
        exact ⟨waiter, _, List.mem_map.mpr ⟨waiter, hwaiter, rfl⟩⟩
    | _ => cases hop

/-! ## Observing the closure -/

/-- The run of `ops` from `w`, in which the peer of `b` is already closed,
shows the closure to the owner of `b`: writes report it and enqueue nothing,
the messages queued at `b` in `w` are the first ones taken out and come out
one by one, and an empty queue reports the closure. -/
structure ShowsClosure (hooks : Placeholders) (b : ℕ) (w : World)
    (ops : List Op) : Prop where
  writes : ∀ e ∈ (machine hooks).trace w ops, ∀ tlScopes msg,
    e.action = .write tlScopes b (e.before.get b).owner msg →
      e.reply.reply = .write (.ok .errPeerClosed) ∧ e.after = e.before
  drains : (w.get b).messages <+:
    removedMessages b ((machine hooks).trace w ops) ++
      (((machine hooks).exec w ops).get b).messages
  heads : ∀ e ∈ (machine hooks).trace w ops,
    ∀ msgSize msgHandleCount mayDiscard msg rest,
      e.action = .read b (e.before.get b).owner msgSize msgHandleCount
        mayDiscard →
      (e.before.get b).messages = msg :: rest →
      ChannelDispatcher.Fits msg msgSize msgHandleCount ∨
        mayDiscard = true →
      (∃ status, e.reply.reply = .read status (some msg)) ∧
        (e.after.get b).messages = rest
  empties : ∀ e ∈ (machine hooks).trace w ops,
    ∀ msgSize msgHandleCount mayDiscard,
      e.action = .read b (e.before.get b).owner msgSize msgHandleCount
        mayDiscard →
      (e.before.get b).messages = [] →
      e.reply.reply = .read .errPeerClosed none

/-- The run of `ops` closes `a` when it should, and shows every closure of `a`
to the owner of its peer `b`: taking the last handle of `a` away runs the
`on_handle_count_zero` of `a`, and what follows such a run shows it. -/
structure PeerClosureObserved (hooks : Placeholders) (a b : ℕ)
    (ops : List Op) : Prop where
  runs : ∀ e ∈ (machine hooks).trace World.init ops, DecrementsToZero a e →
    a ∈ handleCountZeroRuns e.before e.action
  shows : ∀ front close rest, ops = front ++ close :: rest →
    a ∈ handleCountZeroRuns ((machine hooks).exec World.init front) close →
    ShowsClosure hooks b
      ((machine hooks).exec World.init (front ++ [close])) rest

/-- The event is neither a write by the owner of `b` nor a read by its owner
that meets an empty queue. -/
def AvoidsClosedPeer (b : ℕ) (e : ChannelEvent) : Prop :=
  (∀ tlScopes msg,
    e.action ≠ .write tlScopes b (e.before.get b).owner msg) ∧
  ∀ msgSize msgHandleCount mayDiscard,
    e.action = .read b (e.before.get b).owner msgSize msgHandleCount
      mayDiscard →
    (e.before.get b).messages ≠ []

variable {hooks : Placeholders} {w w' : World} {op : Op} {answer : Answer}

/-- A write by the owner never reports a closed peer. -/
theorem Transition.write_ne_peerClosed
    (ht : Transition hooks w op w' answer) (hplain : Plain w) {b : ℕ}
    (hb : w.Allocated b) {tlScopes : List ProcessContext}
    {msg : MessagePacket}
    (hop : op = .write tlScopes b (w.get b).owner msg) :
    answer.reply ≠ .write (.ok .errPeerClosed) := by
  cases ht with
  | noObject hthis hfree =>
      subst hop
      obtain rfl := Option.some.inj hthis
      exact absurd hb hfree
  | writePeerClosed halloc howner hpeer =>
      cases hop
      obtain ⟨q, hq⟩ := hplain.1.linked b hb
      rw [hpeer] at hq
      cases hq
  | @writeQueued _ _ peer _ msg' =>
      cases (w.get peer).writeSelf hooks _ msg' with
      | mk self effects result => cases result <;> simp [Except.map]
  | writeBadHandle _ howner =>
      cases hop
      exact absurd rfl howner
  | writeDelivered => simp
  | _ => cases hop

/-- A read of an empty queue by the owner asks to wait. -/
theorem Transition.read_empty_eq (ht : Transition hooks w op w' answer)
    (hplain : Plain w) {b : ℕ} (hb : w.Allocated b)
    {msgSize msgHandleCount : ℕ} {mayDiscard : Bool}
    (hop : op = .read b (w.get b).owner msgSize msgHandleCount mayDiscard)
    (hempty : (w.get b).messages = []) :
    answer.reply = .read .errShouldWait none := by
  cases ht with
  | noObject hthis hfree =>
      subst hop
      obtain rfl := Option.some.inj hthis
      exact absurd hb hfree
  | readBadHandle _ howner =>
      cases hop
      exact absurd rfl howner
  | readEmpty =>
      cases hop
      simp [hplain.1.opened b]
  | readKept _ _ hqueue =>
      cases hop
      rw [hempty] at hqueue
      cases hqueue
  | readTaken _ _ hqueue =>
      cases hop
      rw [hempty] at hqueue
      cases hqueue
  | _ => cases hop

/-- A read by the owner that fits the head, or discards, takes the head. -/
theorem Transition.read_head (ht : Transition hooks w op w' answer)
    {b : ℕ} (hb : w.Allocated b) {msgSize msgHandleCount : ℕ}
    {mayDiscard : Bool} {msg : MessagePacket} {rest : List MessagePacket}
    (hop : op = .read b (w.get b).owner msgSize msgHandleCount mayDiscard)
    (hqueue : (w.get b).messages = msg :: rest)
    (htake : ChannelDispatcher.Fits msg msgSize msgHandleCount ∨
      mayDiscard = true) :
    (∃ status, answer.reply = .read status (some msg)) ∧
      (w'.get b).messages = rest := by
  cases ht with
  | noObject hthis hfree =>
      subst hop
      obtain rfl := Option.some.inj hthis
      exact absurd hb hfree
  | readBadHandle _ howner =>
      cases hop
      exact absurd rfl howner
  | readEmpty _ _ hempty =>
      cases hop
      rw [hqueue] at hempty
      cases hempty
  | readKept _ _ hhead hfits =>
      cases hop
      obtain ⟨rfl, -⟩ := List.cons.inj (hqueue.symm.trans hhead)
      simp [hfits] at htake
  | readTaken _ _ hhead =>
      cases hop
      obtain ⟨rfl, rfl⟩ := List.cons.inj (hqueue.symm.trans hhead)
      exact ⟨⟨_, rfl⟩, by simp⟩
  | _ => cases hop

/-- After a closure the owner of `b` observes it exactly if it makes no further
write through `b` and never reads `b` while its queue is empty. -/
theorem showsClosure_iff (hooks : Placeholders) {w : World} {b : ℕ}
    (hplain : Plain w) (hb : w.Allocated b) (ops : List Op) :
    ShowsClosure hooks b w ops ↔
      ∀ e ∈ (machine hooks).trace w ops, AvoidsClosedPeer b e := by
  -- Every event is a transition from a reachable store in which `b` exists.
  have hevent : ∀ e ∈ (machine hooks).trace w ops, Plain e.before ∧
      e.before.Allocated b ∧
      Transition hooks e.before e.action e.after e.reply := by
    intro e he
    obtain ⟨front, op, _, rfl, rfl⟩ := (machine hooks).mem_trace_iff.mp he
    exact ⟨(plain_preserved hooks).exec hplain front,
      exec_allocated hooks hb front, step_transition hooks _ op⟩
  constructor
  · intro hshows e he
    obtain ⟨hplain, hballoc, ht⟩ := hevent e he
    constructor
    · intro tlScopes msg haction
      exact ht.write_ne_peerClosed hplain hballoc haction
        (hshows.writes e he tlScopes msg haction).1
    · intro msgSize msgHandleCount mayDiscard haction hempty
      have hclosed := hshows.empties e he _ _ _ haction hempty
      rw [ht.read_empty_eq hplain hballoc haction hempty] at hclosed
      cases hclosed
  · intro havoid
    constructor
    · intro e he tlScopes msg haction
      exact absurd haction ((havoid e he).1 tlScopes msg)
    · rw [removed_append_messages hooks hplain.1]
      exact List.prefix_append _ _
    · intro e he msgSize msgHandleCount mayDiscard msg tail haction hqueue
        htake
      obtain ⟨-, hballoc, ht⟩ := hevent e he
      exact ht.read_head hballoc haction hqueue htake
    · intro e he msgSize msgHandleCount mayDiscard haction hempty
      exact absurd hempty ((havoid e he).2 _ _ _ haction)

/-- The peer of an endpoint exists as long as the endpoint does. -/
theorem exec_peer_allocated (hooks : Placeholders) {front rest : List Op}
    {a b : ℕ} (ha : ((machine hooks).exec World.init front).Allocated a)
    (hpeer : (((machine hooks).exec World.init
      (front ++ rest)).get a).peer = some b) :
    ((machine hooks).exec World.init front).Allocated b := by
  have hlinked : Linked ((machine hooks).exec World.init front) :=
    (linked_preserved hooks).exec Linked.init front
  obtain ⟨q, hq⟩ := hlinked.linked a ha
  have hkept := exec_peer_eq hooks hlinked hq rest
  rw [← (machine hooks).exec_append] at hkept
  obtain rfl : q = b := Option.some.inj (hkept.symm.trans hpeer)
  exact hlinked.allocated a q hq

/-- In every run the closure of `a` is observed by the owner of its peer `b`
exactly if `a` is not closed by taking its last handle away, and, whenever its
`on_handle_count_zero` has run, the owner of `b` makes no further write through
`b` and never reads `b` while its queue is empty. -/
theorem peer_closure_observed_iff (hooks : Placeholders) (ops : List Op)
    {a b : ℕ}
    (hpeer : (((machine hooks).exec World.init ops).get a).peer = some b) :
    PeerClosureObserved hooks a b ops ↔
      (∀ e ∈ (machine hooks).trace World.init ops, ¬ DecrementsToZero a e) ∧
      ∀ front close rest, ops = front ++ close :: rest →
        a ∈ handleCountZeroRuns ((machine hooks).exec World.init front)
          close →
        ∀ e ∈ (machine hooks).trace
          ((machine hooks).exec World.init (front ++ [close])) rest,
          AvoidsClosedPeer b e := by
  have hshows : ∀ front close rest, ops = front ++ close :: rest →
      a ∈ handleCountZeroRuns ((machine hooks).exec World.init front) close →
      (ShowsClosure hooks b
        ((machine hooks).exec World.init (front ++ [close])) rest ↔
        ∀ e ∈ (machine hooks).trace
          ((machine hooks).exec World.init (front ++ [close])) rest,
          AvoidsClosedPeer b e) := by
    rintro front close rest rfl hrun
    apply showsClosure_iff hooks ((plain_preserved hooks).exec Plain.init _)
    have hb := exec_peer_allocated hooks (mem_handleCountZeroRuns.mp hrun).2
      hpeer
    rw [(machine hooks).exec_append]
    exact exec_allocated hooks hb [close]
  constructor
  · rintro ⟨hruns, hobserved⟩
    refine ⟨fun e he hzero => hzero.not_mem_runs (hruns e he hzero), ?_⟩
    intro front close rest hsplit hrun
    exact (hshows front close rest hsplit hrun).mp
      (hobserved front close rest hsplit hrun)
  · rintro ⟨hdecrements, havoid⟩
    refine ⟨fun e he hzero => absurd hzero (hdecrements e he), ?_⟩
    intro front close rest hsplit hrun
    exact (hshows front close rest hsplit hrun).mpr
      (havoid front close rest hsplit hrun)

/-- One of two handles goes away, two messages are written, and the endpoint
is closed; its peer reads the first message and discards the second one. -/
theorem peer_closure_observed_sample :
    PeerClosureObserved .source 0 1
      [.create, .setOwner 0 7, .setOwner 1 9, .incrementHandleCount 0,
        .incrementHandleCount 0, .decrementHandleCount 0,
        .write [] 0 7 ⟨0, 0, 4, 0⟩, .write [] 0 7 ⟨1, 0, 6, 2⟩,
        .onHandleCountZero 0, .read 1 9 8 0 false, .read 1 9 8 0 true] := by
  let front : List Op :=
    [.create, .setOwner 0 7, .setOwner 1 9, .incrementHandleCount 0,
      .incrementHandleCount 0, .decrementHandleCount 0,
      .write [] 0 7 ⟨0, 0, 4, 0⟩, .write [] 0 7 ⟨1, 0, 6, 2⟩]
  let rest : List Op := [.read 1 9 8 0 false, .read 1 9 8 0 true]
  apply (peer_closure_observed_iff .source
    (front ++ .onHandleCountZero 0 :: rest) (a := 0) rfl).mpr
  refine ⟨by decide, ?_⟩
  intro front' close rest' hsplit hrun
  obtain ⟨rfl, -⟩ := mem_handleCountZeroRuns.mp hrun
  have hfront : Op.onHandleCountZero 0 ∉ front := by decide
  have hrest : Op.onHandleCountZero 0 ∉ rest := by decide
  obtain ⟨rfl, -, rfl⟩ :=
    (List.append_cons_inj_of_notMem hfront hrest).mp hsplit
  intro e he
  rcases List.mem_cons.mp he with rfl | he
  · refine ⟨nofun, ?_⟩
    rintro _ _ _ - hempty
    cases hempty
  · obtain rfl := List.mem_singleton.mp he
    refine ⟨nofun, ?_⟩
    rintro _ _ _ - hempty
    cases hempty

/-- The owner of the peer writes to a closed endpoint, and the write succeeds;
and a last handle goes away without closing its endpoint. -/
theorem peer_closure_unobserved :
    let write : List Op :=
      [.create, .setOwner 0 7, .setOwner 1 9, .onHandleCountZero 0,
        .write [] 1 9 ⟨0, 0, 4, 0⟩]
    let decrement : List Op :=
      [.create, .incrementHandleCount 0, .decrementHandleCount 0]
    ((((machine .source).exec World.init write).get 0).peer = some 1 ∧
      ¬ PeerClosureObserved .source 0 1 write) ∧
    (((machine .source).exec World.init decrement).get 0).peer = some 1 ∧
      ¬ PeerClosureObserved .source 0 1 decrement := by
  intro write decrement
  refine ⟨⟨rfl, ?_⟩, rfl, ?_⟩
  · intro hobserved
    have hshows := hobserved.shows [.create, .setOwner 0 7, .setOwner 1 9]
      (.onHandleCountZero 0) [.write [] 1 9 ⟨0, 0, 4, 0⟩] rfl (by decide)
    have hclosed := (hshows.writes _ List.mem_cons_self [] ⟨0, 0, 4, 0⟩ rfl).1
    cases hclosed
  · intro hobserved
    have hlast : (machine .source).event
        ((machine .source).exec World.init (decrement.take 2))
        (.decrementHandleCount 0) ∈
          (machine .source).trace World.init decrement :=
      (machine .source).mem_trace_iff.mpr
        ⟨decrement.take 2, _, [], rfl, rfl⟩
    have hzero : DecrementsToZero 0 ((machine .source).event
        ((machine .source).exec World.init (decrement.take 2))
        (.decrementHandleCount 0)) := by decide
    exact hzero.not_mem_runs (hobserved.runs _ hlast hzero)

end Fiber.Kernel.Channel
