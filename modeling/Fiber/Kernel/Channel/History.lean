import Fiber.Kernel.Channel.Links
import Fiber.Support.Fifo

/-!
# The history of a link

The queue of an endpoint is one link: its peer's writes send into it and its
own reads receive from it.  Every run of the machine is simulated, endpoint by
endpoint, by a run of the abstract link; that no message is lost, duplicated
or reordered is then the balance of the link.
-/

namespace Fiber.Kernel.Channel

open Fiber.Support

abbrev ChannelEvent := Event World Op Answer

/-- The message that a read removed from the queue of `b`: one returned with
OK, or one returned together with ERR_BUFFER_TOO_SMALL. -/
def removedFrom (b : ℕ) (op : Op) (answer : Answer) : Option MessagePacket :=
  match op, answer.reply with
  | .read this _ _ _ _, .read status (some msg) =>
      if this = b ∧ (status = .ok ∨ status = .errBufferTooSmall) then some msg
      else none
  | _, _ => none

/-- The message of a write on `a` that returned OK. -/
def acceptedOn (a : ℕ) (op : Op) (answer : Answer) : Option MessagePacket :=
  match op, answer.reply with
  | .write _ this _ msg, .write (.ok .ok) =>
      if this = a then some msg else none
  | _, _ => none

/-- The message that a write enqueues at `b` when it is performed in `w`: the
owner is right, `b` is the peer and no waiter there takes the message. -/
def queuedAt (hooks : Placeholders) (b : ℕ) (w : World) :
    Op → Option MessagePacket
  | .write _ this owner msg =>
      if w.Allocated this ∧ owner = (w.get this).owner ∧
          (w.get this).peer = some b ∧
          (w.get b).matchingWaiter hooks msg = none then some msg
      else none
  | _ => none

/-- The step of the abstract link into `b` that an event amounts to. -/
def linkStep (hooks : Placeholders) (b : ℕ) (e : ChannelEvent) :
    FifoStep MessagePacket :=
  match removedFrom b e.action e.reply, queuedAt hooks b e.before e.action with
  | some _, _ => .receive
  | none, some msg => .send msg
  | none, none => .idle

def removedMessages (b : ℕ) (events : List ChannelEvent) :
    List MessagePacket :=
  events.filterMap fun e => removedFrom b e.action e.reply

def acceptedMessages (a : ℕ) (events : List ChannelEvent) :
    List MessagePacket :=
  events.filterMap fun e => acceptedOn a e.action e.reply

def queuedMessages (hooks : Placeholders) (b : ℕ)
    (events : List ChannelEvent) : List MessagePacket :=
  events.filterMap fun e => queuedAt hooks b e.before e.action

/-! ## One step of a link -/

/-- How one operation changes the queue of `b`. -/
inductive QueueChange (b : ℕ) (w w' : World) :
    Option MessagePacket → Option MessagePacket → Prop
  | same (h : (w'.get b).messages = (w.get b).messages) :
      QueueChange b w w' none none
  | queued (msg : MessagePacket)
      (h : (w'.get b).messages = (w.get b).messages ++ [msg]) :
      QueueChange b w w' none (some msg)
  | removed (msg : MessagePacket)
      (h : (w.get b).messages = msg :: (w'.get b).messages) :
      QueueChange b w w' (some msg) none

variable {hooks : Placeholders} {w w' : World} {op : Op} {answer : Answer}

theorem Transition.queueChange (ht : Transition hooks w op w' answer)
    (hlinked : Linked w) (b : ℕ) :
    QueueChange b w w' (removedFrom b op answer) (queuedAt hooks b w op) := by
  have hset : ∀ (r : ℕ) (x : ChannelDispatcher),
      x.messages = (w.get r).messages →
      ((w.set r x).get b).messages = (w.get b).messages :=
    fun _ _ hx => w.get_set_rel (R := fun x y => y.messages = x.messages)
      (fun _ => rfl) hx b
  cases ht with
  | noObject hop hfree =>
      cases op with
      | write tlScopes this owner msg =>
          obtain rfl := Option.some.inj hop
          simpa [queuedAt, hfree, removedFrom] using QueueChange.same rfl
      | _ => exact .same rfl
  | create =>
      obtain ⟨peer, hget⟩ := hlinked.create_get_eq b
      exact .same (by rw [hget])
  | writeBadHandle halloc howner =>
      simpa [queuedAt, removedFrom, howner] using QueueChange.same rfl
  | writePeerClosed halloc howner hpeer =>
      simpa [queuedAt, removedFrom, hpeer] using QueueChange.same rfl
  | @writeDelivered tlScopes this peer owner msg _ halloc howner hpeer
      hmatch =>
      have hnone : queuedAt hooks b w (.write tlScopes this owner msg) =
          none := by
        simp only [queuedAt, ite_eq_right_iff, reduceCtorEq, imp_false]
        rintro ⟨-, -, hb, hwaiter⟩
        obtain rfl := Option.some.inj (hpeer.symm.trans hb)
        rw [hmatch] at hwaiter
        cases hwaiter
      rw [hnone]
      exact .same (hset _ _ rfl)
  | @writeQueued tlScopes this peer owner msg halloc howner hpeer hmatch =>
      by_cases hb : peer = b
      · subst peer
        have hsome : queuedAt hooks b w (.write tlScopes this owner msg) =
            some msg := by
          simp [queuedAt, halloc, howner, hpeer, hmatch]
        rw [hsome]
        apply QueueChange.queued
        rw [Store.get_set_self, ChannelDispatcher.writeSelf_self]
      · have hnone : queuedAt hooks b w (.write tlScopes this owner msg) =
            none := by
          simp [queuedAt, hpeer, hb]
        rw [hnone]
        apply QueueChange.same
        rw [w.get_set_of_ne (Ne.symm hb)]
  | readBadHandle | readEmpty | readKept => exact .same rfl
  | @readTaken this owner msgSize msgHandleCount mayDiscard msg rest halloc
      howner hqueue htake =>
      have hstatus : ∀ p : Prop, [Decidable p] →
          (if p then Status.ok else .errBufferTooSmall) = .ok ∨
            (if p then Status.ok else .errBufferTooSmall) =
              .errBufferTooSmall := by
        intro p _
        by_cases hp : p <;> simp [hp]
      by_cases hb : this = b
      · subst this
        have hsome : removedFrom b
            (.read b owner msgSize msgHandleCount mayDiscard)
            ⟨.read (if ChannelDispatcher.Fits msg msgSize msgHandleCount
              then .ok else .errBufferTooSmall) (some msg), []⟩ =
            some msg := by
          simp only [removedFrom, hstatus, and_self, if_true]
        rw [hsome]
        apply QueueChange.removed
        rw [Store.get_set_self, ChannelDispatcher.shifted_messages, hqueue]
      · simp only [removedFrom, hb, false_and, if_false]
        apply QueueChange.same
        rw [w.get_set_of_ne (Ne.symm hb)]
  | setOwner =>
      exact .same (hset _ _ (by rw [ChannelDispatcher.setOwner_eq]))
  | onHandleCountZero => exact .same (hset _ _ rfl)
  | incrementHandleCount => exact .same (hset _ _ rfl)
  | decrementHandleCount => exact .same (hset _ _ rfl)

/-- One operation on the channels is one step of every link. -/
theorem Transition.linkStep_apply (ht : Transition hooks w op w' answer)
    (hlinked : Linked w) {b : ℕ} {f : Fifo MessagePacket}
    (hpending : f.pending = (w.get b).messages) :
    let f' := f.apply (linkStep hooks b ⟨w, op, answer, w'⟩)
    f'.pending = (w'.get b).messages ∧
      f'.taken = f.taken ++ (removedFrom b op answer).toList ∧
      f'.sent = f.sent ++ (queuedAt hooks b w op).toList := by
  simp only [linkStep]
  have hchange := ht.queueChange hlinked b
  generalize removedFrom b op answer = removed at hchange ⊢
  generalize queuedAt hooks b w op = queued at hchange ⊢
  cases hchange with
  | same h => simp [Fifo.apply, hpending, h]
  | queued msg h => simp [Fifo.apply, hpending, h]
  | removed msg h => simp [Fifo.apply, hpending, h]

/-! ## Runs of a link -/

/-- The abstract link simulates the queue of `b` along every run: its pending
values are the queue, its taken values the messages read, and its sent values
the initial queue followed by the messages enqueued. -/
theorem link_simulation (hooks : Placeholders) (b : ℕ) (ops : List Op) :
    ∀ (w : World) (f : Fifo MessagePacket), Linked w →
      f.pending = (w.get b).messages →
      let events := (machine hooks).trace w ops
      let f' := f.run (events.map (linkStep hooks b))
      f'.pending = (((machine hooks).exec w ops).get b).messages ∧
        f'.taken = f.taken ++ removedMessages b events ∧
        f'.sent = f.sent ++ queuedMessages hooks b events := by
  induction ops with
  | nil =>
      intro w f _ hpending
      simp [removedMessages, queuedMessages, hpending]
  | cons op ops ih =>
      intro w f hlinked hpending
      have ht := step_transition hooks w op
      obtain ⟨hpending', htaken, hsent⟩ :=
        ht.linkStep_apply hlinked hpending
      obtain ⟨hq, hr, hs⟩ := ih _ _ (ht.linked hlinked) hpending'
      refine ⟨hq, ?_, ?_⟩
      · refine hr.trans ?_
        rw [htaken, List.append_assoc]
        cases h : removedFrom b op (step hooks w op).2 <;>
          simp [removedMessages, machine, h]
      · refine hs.trans ?_
        rw [hsent, List.append_assoc]
        cases h : queuedAt hooks b w op <;>
          simp [queuedMessages, machine, h]

/-- From any linked store: what is read from `b`, followed by what is still
queued there, is what was queued at the start followed by what was enqueued. -/
theorem removed_append_messages (hooks : Placeholders) {w : World}
    (hlinked : Linked w) (b : ℕ) (ops : List Op) :
    removedMessages b ((machine hooks).trace w ops) ++
        (((machine hooks).exec w ops).get b).messages =
      (w.get b).messages ++
        queuedMessages hooks b ((machine hooks).trace w ops) := by
  let f : Fifo MessagePacket := Fifo.start (w.get b).messages
  obtain ⟨hpending, htaken, hsent⟩ :=
    link_simulation hooks b ops w f hlinked rfl
  have hbalanced := (f.run
    (((machine hooks).trace w ops).map (linkStep hooks b))).balanced
  rw [hpending, htaken, hsent] at hbalanced
  exact hbalanced

/-! ## Channels without waiting calls -/

/-- No endpoint has a waiter; no operation adds one. -/
def NoWaiters (w : World) : Prop := ∀ r, (w.get r).waiters = []

theorem NoWaiters.init : NoWaiters World.init := fun _ => rfl

theorem NoWaiters.matchingWaiter (h : NoWaiters w) (hooks : Placeholders)
    (r : ℕ) (msg : MessagePacket) :
    (w.get r).matchingWaiter hooks msg = none := by
  simp [ChannelDispatcher.matchingWaiter, h r]

theorem Transition.noWaiters (ht : Transition hooks w op w' answer)
    (hlinked : Linked w) (h : NoWaiters w) : NoWaiters w' := by
  have hset : ∀ (r : ℕ) (x : ChannelDispatcher), x.waiters = [] →
      NoWaiters (w.set r x) := by
    intro r x hx q
    rw [Store.get_set]
    split
    · exact hx
    · exact h q
  cases ht with
  | noObject | writeBadHandle | writePeerClosed | readBadHandle | readEmpty
  | readKept => exact h
  | create =>
      intro r
      obtain ⟨peer, hget⟩ := hlinked.create_get_eq r
      rw [hget]
      exact h r
  | writeDelivered => exact hset _ _ (by simp [h _])
  | writeQueued =>
      exact hset _ _ (by rw [ChannelDispatcher.writeSelf_self]; exact h _)
  | readTaken =>
      exact hset _ _ (by rw [ChannelDispatcher.shifted_eq]; exact h _)
  | setOwner =>
      exact hset _ _ (by rw [ChannelDispatcher.setOwner_eq]; exact h _)
  | onHandleCountZero => exact hset _ _ rfl
  | incrementHandleCount => exact hset _ _ (h _)
  | decrementHandleCount => exact hset _ _ (h _)

/-- The stores that runs from `create` calls stay in. -/
def Plain (w : World) : Prop := Linked w ∧ NoWaiters w

theorem Plain.init : Plain World.init := ⟨Linked.init, NoWaiters.init⟩

theorem plain_preserved (hooks : Placeholders) :
    (machine hooks).Preserves Plain :=
  fun w op h =>
    ⟨(step_transition hooks w op).linked h.1,
      (step_transition hooks w op).noWaiters h.1 h.2⟩

/-- Where no endpoint has a waiter and the logging does not throw, the messages
enqueued at `b` are those whose write on its peer returned OK. -/
theorem Transition.queuedAt_eq_acceptedOn
    (ht : Transition hooks w op w' answer) (hplain : NoWaiters w) {a b : ℕ}
    (hlink : ∀ r q, (w.get r).peer = some q → (r = a ↔ q = b))
    (hcurrent : ∀ tlScopes this owner msg,
      op = .write tlScopes this owner msg →
        ∃ process, ProcessDispatcher.getCurrent tlScopes = .ok process) :
    queuedAt hooks b w op = acceptedOn a op answer := by
  cases ht with
  | noObject hop hfree =>
      cases op with
      | write tlScopes this owner msg =>
          obtain rfl := Option.some.inj hop
          simp [queuedAt, acceptedOn, hfree]
      | _ => rfl
  | writeBadHandle halloc howner => simp [queuedAt, acceptedOn, howner]
  | writePeerClosed halloc howner hpeer =>
      simp [queuedAt, acceptedOn, hpeer]
  | writeDelivered halloc howner hpeer hmatch =>
      rw [hplain.matchingWaiter] at hmatch
      cases hmatch
  | @writeQueued tlScopes this peer owner msg halloc howner hpeer hmatch =>
      obtain ⟨process, hprocess⟩ := hcurrent _ _ _ _ rfl
      obtain ⟨logged, hlogged⟩ :=
        (w.get peer).logPending_of_getCurrent hprocess
          ((w.get peer).messages.length + 1)
      by_cases hb : peer = b
      · have ha : this = a := (hlink this peer hpeer).mpr hb
        subst ha hb
        simp [queuedAt, acceptedOn, halloc, howner, hpeer, hmatch, hlogged,
          ChannelDispatcher.writeSelf_result, Except.map]
      · have ha : this ≠ a := fun h => hb ((hlink this peer hpeer).mp h)
        simp [queuedAt, acceptedOn, hpeer, ha, hb, hlogged,
          ChannelDispatcher.writeSelf_result, Except.map]
  | create | readBadHandle | readEmpty | readKept | readTaken | setOwner
  | onHandleCountZero | incrementHandleCount | decrementHandleCount => rfl

/-- First in, first out, for all channels at once.  In every run of creations
and endpoint operations whose logging does not throw, every endpoint `a` has
exactly one peer `b`, which is another endpoint and is fed by `a` only, and the
messages read from `b` followed by those still queued there are the messages
whose write on `a` returned OK, in the order of the writes. -/
theorem channel_messages_fifo (hooks : Placeholders) (ops : List Op)
    (hcurrent : ∀ tlScopes this owner msg,
      Op.write tlScopes this owner msg ∈ ops →
        ∃ process, ProcessDispatcher.getCurrent tlScopes = .ok process) :
    let events := (machine hooks).trace World.init ops
    let w := (machine hooks).exec World.init ops
    ∀ a, w.Allocated a → ∃ b, (w.get a).peer = some b ∧ b ≠ a ∧
      (w.get b).peer = some a ∧ (∀ a', (w.get a').peer = some b → a' = a) ∧
      removedMessages b events ++ (w.get b).messages =
        acceptedMessages a events := by
  intro events w a ha
  have hplain : Plain w := (plain_preserved hooks).exec Plain.init ops
  obtain ⟨b, hpeer⟩ := hplain.1.linked a ha
  refine ⟨b, hpeer, hplain.1.ne a b hpeer, hplain.1.symm a b hpeer,
    fun a' ha' => hplain.1.peer_injective ha' hpeer, ?_⟩
  have hqueued : queuedMessages hooks b events = acceptedMessages a events := by
    apply List.filterMap_congr
    intro e he
    obtain ⟨front, op, rest, rfl, rfl⟩ := (machine hooks).mem_trace_iff.mp he
    let v := (machine hooks).exec World.init front
    have hv : Plain v := (plain_preserved hooks).exec Plain.init front
    apply (step_transition hooks v op).queuedAt_eq_acceptedOn hv.2
    · -- The links at the time of the event are those at the end of the run.
      intro r q hrq
      have hlater : (w.get r).peer = some q := by
        have hkeep := exec_peer_eq hooks hv.1 hrq (op :: rest)
        rwa [← Machine.exec_append] at hkeep
      constructor
      · rintro rfl
        exact Option.some.inj (hlater.symm.trans hpeer)
      · rintro rfl
        exact hplain.1.peer_injective hlater hpeer
    · rintro tlScopes this owner msg rfl
      exact hcurrent tlScopes this owner msg (by simp)
  rw [← hqueued]
  exact removed_append_messages hooks Linked.init b ops

/-- Two channels.  On the first one, a message is read, the next one is thrown
away by a read that has no room for it, and a third one stays queued. -/
theorem channel_messages_fifo_sample :
    let tlScopes : List ProcessContext := [⟨⟨0, "userboot"⟩⟩, ⟨⟨1, "test0"⟩⟩]
    let ops : List Op :=
      [.create, .setOwner 0 7, .setOwner 1 9, .create, .setOwner 2 8,
        .write tlScopes 0 7 ⟨0, 0, 4, 0⟩, .write tlScopes 2 8 ⟨1, 0, 4, 0⟩,
        .write tlScopes 0 7 ⟨2, 0, 9, 0⟩, .write tlScopes 1 9 ⟨3, 0, 1, 0⟩,
        .read 1 9 8 0 false, .read 1 9 8 0 true,
        .write tlScopes 0 7 ⟨4, 0, 2, 0⟩]
    let events := (machine .source).trace World.init ops
    let w := (machine .source).exec World.init ops
    acceptedMessages 0 events = [⟨0, 0, 4, 0⟩, ⟨2, 0, 9, 0⟩, ⟨4, 0, 2, 0⟩] ∧
      removedMessages 1 events = [⟨0, 0, 4, 0⟩, ⟨2, 0, 9, 0⟩] ∧
      (∃ b, (w.get 0).peer = some b ∧
        removedMessages b events ++ (w.get b).messages =
          acceptedMessages 0 events) ∧
      acceptedMessages 2 events = [⟨1, 0, 4, 0⟩] ∧
      ∃ b, (w.get 2).peer = some b ∧
        removedMessages b events ++ (w.get b).messages =
          acceptedMessages 2 events := by
  intro tlScopes ops
  have hcurrent : ∀ tlScopes this owner msg,
      Op.write tlScopes this owner msg ∈ ops →
        ∃ process, ProcessDispatcher.getCurrent tlScopes = .ok process := by
    intro tlScopes this owner msg hmem
    simp only [ops, List.mem_cons, reduceCtorEq, Op.write.injEq,
      List.not_mem_nil, or_false, false_or] at hmem
    obtain ⟨rfl, -⟩ | ⟨rfl, -⟩ | ⟨rfl, -⟩ | ⟨rfl, -⟩ | ⟨rfl, -⟩ := hmem <;>
    exact ⟨⟨1, "test0"⟩, rfl⟩
  have hallocated : ((machine .source).exec World.init ops).Allocated 0 ∧
      ((machine .source).exec World.init ops).Allocated 2 := by decide +kernel
  obtain ⟨b, hpeer, -, -, -, hfifo⟩ :=
    channel_messages_fifo .source ops hcurrent 0 hallocated.1
  obtain ⟨b', hpeer', -, -, -, hfifo'⟩ :=
    channel_messages_fifo .source ops hcurrent 2 hallocated.2
  exact ⟨by decide +kernel, by decide +kernel, ⟨b, hpeer, hfifo⟩,
    by decide +kernel, b', hpeer', hfifo'⟩

end Fiber.Kernel.Channel
