import Fiber.Kernel.Channel.History
import Fiber.Kernel.Channel.Isolation
import Fiber.Kernel.Channel.Waiters
import Fiber.Support.Simulation

/-!
# Channels are pairs of mailboxes

Most fields of an endpoint have no influence on what a caller can see: nobody
ever waits at an endpoint, no peer is ever marked closed, and the counts and
signals are not read back.  What is left of an endpoint is a mailbox, which has
an owner and holds messages, and its peer is its neighbour.  All callers of
`read`, `write` and the other methods get the replies that the mailboxes give.
-/

namespace Fiber.Kernel.Channel

open Fiber.Support

open ChannelDispatcher (Fits)

/-! ## Mailboxes -/

/-- Who may use it, and the messages that wait in it. -/
structure Mailbox where
  owner : FxKoid
  messages : List MessagePacket
  deriving DecidableEq

namespace Mailbox

/-- Nobody uses it, and it is empty. -/
def blank : Mailbox := ⟨fxKoidInvalid, []⟩

def put (box : Mailbox) (msg : MessagePacket) : Mailbox :=
  { box with messages := box.messages ++ [msg] }

end Mailbox

/-- The mailboxes of all channels, two for each. -/
abbrev Mailboxes := Store Mailbox

/-- The other mailbox of the same channel. -/
def neighbour (r : ℕ) : ℕ :=
  if r % 2 = 0 then r + 1 else r - 1

/-- How a write is answered that leaves a mailbox of this size: it has to name
the running process when there are many messages. -/
def accepted (tlScopes : List ProcessContext) (size : ℕ) :
    Except JsError Status :=
  if size = kWarnPendingMessageCount ∨ kMaxPendingMessageCount < size then
    (ProcessDispatcher.getCurrent tlScopes).map fun _ => .ok
  else .ok .ok

namespace Mailboxes

def perform (m : Mailboxes) : Op → Mailboxes × Reply
  | .create =>
      ((m.alloc .blank).alloc .blank,
        .created .ok m.next (m.next + 1) fxRightNone)
  | .write tlScopes this owner msg =>
      if owner ≠ (m.get this).owner then (m, .write (.ok .errBadHandle))
      else
        let box := (m.get (neighbour this)).put msg
        (m.set (neighbour this) box,
          .write (accepted tlScopes box.messages.length))
  | .read this owner msgSize msgHandleCount mayDiscard =>
      if owner ≠ (m.get this).owner then (m, .read .errBadHandle none)
      else
        match (m.get this).messages with
        | [] => (m, .read .errShouldWait none)
        | msg :: rest =>
            let status : Status :=
              if Fits msg msgSize msgHandleCount then .ok
              else .errBufferTooSmall
            if Fits msg msgSize msgHandleCount ∨ mayDiscard = true then
              (m.set this { m.get this with messages := rest },
                .read status (some msg))
            else (m, .read status none)
  | .setOwner this newOwner =>
      if newOwner = fxKoidInvalid then (m, .void)
      else (m.set this { m.get this with owner := newOwner }, .void)
  | .onHandleCountZero _ | .incrementHandleCount _
  | .decrementHandleCount _ => (m, .void)

def step (m : Mailboxes) (op : Op) : Mailboxes × Reply :=
  if ∀ this, op.this? = some this → m.Allocated this then m.perform op
  else (m, .noObject)

/-- Before any channel is created. -/
def init : Mailboxes := Store.empty .blank

end Mailboxes

def mailboxes : Machine Mailboxes Op Reply where
  step := Mailboxes.step

/-- What is left of an endpoint. -/
def mailboxOf (self : ChannelDispatcher) : Mailbox :=
  ⟨self.owner, self.messages⟩

/-- What is left of all endpoints. -/
def boxes (w : World) : Mailboxes :=
  w.map mailboxOf

/-! ## What the other fields are -/

/-- Channels in pairs at which nobody waits. -/
structure Unattended (w : World) : Prop where
  paired : Paired w
  waiters : NoWaiters w

variable {hooks : Placeholders} {w w' : World} {op : Op} {answer : Answer}

theorem unattended_init : Unattended World.init where
  paired := paired_init
  waiters := .init

/-- The peer is the other endpoint of the channel. -/
theorem Paired.peer_eq (hw : Paired w) {r : ℕ} (hr : w.Allocated r) :
    (w.get r).peer = some (neighbour r) := by
  obtain ⟨q, hq⟩ := hw.linked.linked r hr
  have hne := hw.linked.ne r q hq
  have hsame := hw.peer hq
  rw [channelOf, channelOf] at hsame
  rw [hq, neighbour]
  split <;>
  · congr 1
    omega

theorem Transition.unattended (ht : Transition hooks w op w' answer)
    (hw : Unattended w) : Unattended w' where
  paired := ht.paired hw.paired
  waiters := ht.noWaiters hw.paired.linked hw.waiters

theorem NoWaiters.distinct (h : NoWaiters w) : DistinctWaiters w where
  nodup r := h r ▸ List.nodup_nil
  place_unique := by
    intro r _ waiter hwaiter
    rw [h r] at hwaiter
    nomatch hwaiter

/-- Nobody is served where nobody waits. -/
theorem Transition.completedBy_eq_nil
    (ht : Transition hooks w op w' answer) (hw : Unattended w) :
    completedBy answer = [] := by
  have hchange := ht.waiterChange hw.paired.linked hw.waiters.distinct
  refine List.eq_nil_iff_forall_not_mem.mpr fun waiter hwaiter => ?_
  obtain ⟨r, hwaits⟩ := hchange.waiting waiter hwaiter
  rw [hw.waiters r] at hwaits
  nomatch hwaits

/-! ## One step -/

/-- The queue warnings throw for want of a running process only. -/
theorem map_logPending (self : ChannelDispatcher)
    (tlScopes : List ProcessContext) (size : ℕ) :
    (self.logPending tlScopes size).map (fun _ => Status.ok) =
      accepted tlScopes size := by
  by_cases hlogs : size = kWarnPendingMessageCount ∨
      kMaxPendingMessageCount < size
  · have hmany : size ≥ kWarnPendingMessageCount := by
      simp only [kWarnPendingMessageCount, kMaxPendingMessageCount] at hlogs ⊢
      omega
    rw [accepted, if_pos hlogs, ChannelDispatcher.logPending, if_pos hmany]
    by_cases hwarn : size = kWarnPendingMessageCount
    · rw [if_pos hwarn]
      cases ProcessDispatcher.getCurrent tlScopes <;> rfl
    · rw [if_neg hwarn, if_pos (hlogs.resolve_left hwarn)]
      cases ProcessDispatcher.getCurrent tlScopes <;> rfl
  · obtain ⟨hwarn, hmax⟩ := not_or.mp hlogs
    rw [accepted, if_neg hlogs, ChannelDispatcher.logPending, if_neg hwarn,
      if_neg hmax, ite_self]
    rfl

theorem map_writeSelf (self : ChannelDispatcher)
    (tlScopes : List ProcessContext) (msg : MessagePacket) :
    (self.writeSelf hooks tlScopes msg).result.map (fun _ => Status.ok) =
      accepted tlScopes (self.messages.length + 1) := by
  rw [ChannelDispatcher.writeSelf_result, ← map_logPending self]
  cases self.logPending tlScopes (self.messages.length + 1) <;> rfl

theorem boxes_get (w : World) (r : ℕ) :
    (boxes w).get r = mailboxOf (w.get r) := rfl

theorem boxes_set (w : World) (r : ℕ) (self : ChannelDispatcher) :
    boxes (w.set r self) = (boxes w).set r (mailboxOf self) :=
  Store.map_set ..

theorem boxes_set_of_eq {w : World} {r : ℕ} {self : ChannelDispatcher}
    (h : mailboxOf self = mailboxOf (w.get r)) :
    boxes (w.set r self) = boxes w :=
  Store.map_set_of_eq h

theorem boxes_create (w : World) :
    boxes (create w).1 = ((boxes w).alloc .blank).alloc .blank := by
  have hlinks : boxes (create w).1 = boxes ((w.alloc {}).alloc {}) := by
    rw [create]
    exact Eq.trans (boxes_set_of_eq rfl) (boxes_set_of_eq rfl)
  rw [hlinks, boxes, Store.map_alloc, Store.map_alloc]
  rfl

theorem Mailboxes.step_of_allocated {m : Mailboxes} {this : ℕ}
    (hop : op.this? = some this) (halloc : m.Allocated this) :
    m.step op = m.perform op := by
  refine if_pos fun this' hthis => ?_
  rw [hop] at hthis
  obtain rfl := Option.some.inj hthis
  exact halloc

/-- What is left of the endpoints makes the step that the endpoints make, and
gives the same reply. -/
theorem Transition.step_boxes (ht : Transition hooks w op w' answer)
    (hw : Unattended w) : (boxes w).step op = (boxes w', answer.reply) := by
  cases ht with
  | noObject hop hfree => exact if_neg fun h => hfree (h _ hop)
  | create =>
      rw [boxes_create]
      exact if_pos nofun
  | writeBadHandle halloc howner =>
      rw [Mailboxes.step_of_allocated rfl halloc]
      exact if_pos howner
  | writePeerClosed halloc howner hpeer =>
      rw [hw.paired.peer_eq halloc] at hpeer
      nomatch hpeer
  | writeDelivered halloc howner hpeer hmatch =>
      rw [hw.waiters.matchingWaiter] at hmatch
      nomatch hmatch
  | writeQueued halloc howner hpeer hmatch =>
      rw [hw.paired.peer_eq halloc] at hpeer
      obtain rfl := Option.some.inj hpeer
      rw [Mailboxes.step_of_allocated rfl halloc, Mailboxes.perform,
        boxes_get, mailboxOf, if_neg (not_not.mpr howner), boxes_set,
        ChannelDispatcher.writeSelf_self, map_writeSelf]
      simp only [boxes_get, mailboxOf, Mailbox.put, List.length_append,
        List.length_singleton]
  | readBadHandle halloc howner =>
      rw [Mailboxes.step_of_allocated rfl halloc]
      exact if_pos howner
  | readEmpty halloc howner hempty =>
      rw [Mailboxes.step_of_allocated rfl halloc, Mailboxes.perform,
        boxes_get, mailboxOf, if_neg (not_not.mpr howner), hempty,
        hw.paired.linked.opened]
      rfl
  | readKept halloc howner hqueue hfits =>
      rw [Mailboxes.step_of_allocated rfl halloc, Mailboxes.perform,
        boxes_get, mailboxOf, if_neg (not_not.mpr howner), hqueue]
      simp only [hfits, Bool.false_eq_true, or_self, if_false]
  | readTaken halloc howner hqueue htake =>
      rw [Mailboxes.step_of_allocated rfl halloc, Mailboxes.perform,
        boxes_get, mailboxOf, if_neg (not_not.mpr howner), hqueue,
        boxes_set, ChannelDispatcher.shifted_eq]
      exact if_pos htake
  | setOwner halloc =>
      rw [Mailboxes.step_of_allocated rfl halloc, Mailboxes.perform,
        boxes_set, ChannelDispatcher.setOwner]
      split
      next => exact congrArg (·, Reply.void) ((boxes w).set_get_self _).symm
      next => rfl
  | onHandleCountZero halloc | incrementHandleCount halloc
  | decrementHandleCount halloc =>
      rw [Mailboxes.step_of_allocated rfl halloc]
      exact congrArg (·, Reply.void) (Eq.symm (boxes_set_of_eq rfl))

/-! ## Runs -/

/-- The endpoints are `m` and nothing else that matters. -/
structure Shows (w : World) (m : Mailboxes) : Prop where
  unattended : Unattended w
  boxes : boxes w = m

theorem simulates (hooks : Placeholders) :
    Simulates ((machine hooks).mapReply Answer.reply) mailboxes id Shows where
  state := by
    rintro w m op ⟨hw, rfl⟩
    have ht := step_transition hooks w op
    exact ⟨ht.unattended hw, congrArg Prod.fst (ht.step_boxes hw).symm⟩
  reply := by
    rintro w m op ⟨hw, rfl⟩
    have ht := step_transition hooks w op
    exact congrArg Prod.snd (ht.step_boxes hw).symm

theorem preserves_unattended (hooks : Placeholders) :
    (machine hooks).Preserves Unattended :=
  fun w op hw => (step_transition hooks w op).unattended hw

/-- Whatever is done on any number of channels in whatever order, every reply
is that of the mailboxes, in which the messages and the owners are those of the
endpoints; and no waiter is ever served or canceled. -/
theorem channels_are_mailboxes (hooks : Placeholders) (ops : List Op) :
    let events := (machine hooks).trace World.init ops
    events.map (fun e => e.reply.reply) =
        (mailboxes.trace .init ops).map Event.reply ∧
      boxes ((machine hooks).exec World.init ops) =
        mailboxes.exec .init ops ∧
      completedWaiters events = [] := by
  intro events
  have hinit : Shows World.init .init := ⟨unattended_init, rfl⟩
  have hreplies := (simulates hooks).replies hinit ops
  have hexec := (simulates hooks).exec hinit ops
  rw [Machine.replies_mapReply, List.map_id] at hreplies
  rw [Machine.exec_mapReply, List.map_id] at hexec
  refine ⟨hreplies, hexec.boxes, ?_⟩
  refine List.flatMap_eq_nil_iff.mpr fun e he => ?_
  obtain ⟨w, op, -, hw, rfl⟩ :=
    (preserves_unattended hooks).event_of_mem unattended_init he
  exact (step_transition hooks w op).completedBy_eq_nil hw

end Fiber.Kernel.Channel
