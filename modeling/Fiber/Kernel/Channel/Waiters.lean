import Fiber.Kernel.Channel.Links
import Mathlib.Data.List.Nodup

/-!
# Waiting calls

A waiter is completed by a delivery or by a cancellation.  Both remove it from
the list it waits in, and no operation puts a waiter into a list, so that a
waiter which is in one place at the start is completed at most once.  The
predicate for kernel generated ids is arbitrary here, and so are the ids of
messages and waiters.
-/

namespace Fiber.Kernel.Channel

open Fiber.Support

/-- The waiter that a call completes. -/
def completed? : Effect → Option MessageWaiter
  | .deliver waiter _ => some waiter
  | .cancel waiter _ => some waiter
  | .notifyObservers _ => none
  | .consoleLog _ _ _ _ => none

/-- The waiters that an operation completes, in order. -/
def completedBy (answer : Answer) : List MessageWaiter :=
  answer.effects.filterMap fun effect => completed? effect.2

/-- The waiters completed over a run, in order. -/
def completedWaiters (events : List (Event World Op Answer)) :
    List MessageWaiter :=
  events.flatMap fun e => completedBy e.reply

/-- A waiter waits in at most one place. -/
structure DistinctWaiters (w : World) : Prop where
  nodup : ∀ r, (w.get r).waiters.Nodup
  place_unique : ∀ r r' waiter, waiter ∈ (w.get r).waiters →
    waiter ∈ (w.get r').waiters → r = r'

/-- What one operation does to the waiters: those it completes were waiting,
and every list keeps the others in their order. -/
structure WaiterChange (w w' : World) (answer : Answer) : Prop where
  nodup : (completedBy answer).Nodup
  waiting : ∀ waiter ∈ completedBy answer, ∃ r, waiter ∈ (w.get r).waiters
  kept : ∀ r, (w'.get r).waiters =
    (w.get r).waiters.filter fun waiter => waiter ∉ completedBy answer

namespace WaiterChange

variable {w w' : World} {answer : Answer}

/-- An operation that completes nobody and keeps all lists. -/
theorem of_same (hnone : completedBy answer = [])
    (hsame : ∀ r, (w'.get r).waiters = (w.get r).waiters) :
    WaiterChange w w' answer where
  nodup := by simp [hnone]
  waiting := by simp [hnone]
  kept := by
    intro r
    rw [hsame r, hnone]
    simp

/-- An operation that completes some waiters of one list. -/
theorem of_completed (hdistinct : DistinctWaiters w) {q : ℕ}
    {x : ChannelDispatcher} (hnodup : (completedBy answer).Nodup)
    (hsub : ∀ waiter ∈ completedBy answer, waiter ∈ (w.get q).waiters)
    (hkept : x.waiters =
      (w.get q).waiters.filter fun waiter => waiter ∉ completedBy answer) :
    WaiterChange w (w.set q x) answer where
  nodup := hnodup
  waiting := fun waiter hwaiter => ⟨q, hsub waiter hwaiter⟩
  kept := by
    intro r
    by_cases hr : r = q
    · subst r
      rw [Store.get_set_self, hkept]
    · rw [w.get_set_of_ne hr]
      symm
      apply List.filter_eq_self.mpr
      intro waiter hwaiter
      simp only [decide_eq_true_eq]
      intro hcompleted
      exact hr (hdistinct.place_unique r q waiter hwaiter
        (hsub waiter hcompleted))

theorem mem_of_mem (h : WaiterChange w w' answer) {r : ℕ}
    {waiter : MessageWaiter} (hmem : waiter ∈ (w'.get r).waiters) :
    waiter ∈ (w.get r).waiters := by
  rw [h.kept r] at hmem
  exact List.mem_of_mem_filter hmem

/-- A completed waiter waits nowhere any more. -/
theorem not_mem_of_completed (h : WaiterChange w w' answer)
    {waiter : MessageWaiter} (hcompleted : waiter ∈ completedBy answer)
    (r : ℕ) : waiter ∉ (w'.get r).waiters := by
  rw [h.kept r]
  simp [hcompleted]

theorem distinct (h : WaiterChange w w' answer)
    (hdistinct : DistinctWaiters w) : DistinctWaiters w' where
  nodup := by
    intro r
    rw [h.kept r]
    exact (hdistinct.nodup r).filter _
  place_unique := fun r r' waiter hr hr' =>
    hdistinct.place_unique r r' waiter (h.mem_of_mem hr) (h.mem_of_mem hr')

end WaiterChange

variable {hooks : Placeholders} {w w' : World} {op : Op} {answer : Answer}

theorem writeSelf_completed (hooks : Placeholders)
    (self : ChannelDispatcher) (tlScopes : List ProcessContext)
    (msg : MessagePacket) :
    ∀ effect ∈ (self.writeSelf hooks tlScopes msg).effects,
      completed? effect = none := by
  intro effect heffect
  rw [ChannelDispatcher.writeSelf_effects] at heffect
  split at heffect
  next => cases heffect
  next logged hlogged =>
    have hlog : ∀ line ∈ logged, completed? line = none := by
      intro line hline
      obtain ⟨format, koid, pname, rfl⟩ :=
        self.logPending_consoleLog hlogged line hline
      rfl
    simp only at heffect
    split at heffect
    next =>
      rcases List.mem_append.mp heffect with h | h
      · exact hlog effect h
      · obtain rfl := List.mem_singleton.mp h
        rfl
    next => exact hlog effect heffect

theorem Transition.waiterChange (ht : Transition hooks w op w' answer)
    (hlinked : Linked w) (hdistinct : DistinctWaiters w) :
    WaiterChange w w' answer := by
  have hset : ∀ (q : ℕ) (x : ChannelDispatcher),
      x.waiters = (w.get q).waiters →
      ∀ r, ((w.set q x).get r).waiters = (w.get r).waiters :=
    fun _ _ hx => w.get_set_rel (R := fun x y => y.waiters = x.waiters)
      (fun _ => rfl) hx
  cases ht with
  | noObject | writeBadHandle | writePeerClosed | readBadHandle | readEmpty
  | readKept => exact .of_same rfl fun _ => rfl
  | create =>
      refine .of_same rfl fun r => ?_
      obtain ⟨peer, hget⟩ := hlinked.create_get_eq r
      rw [hget]
  | @writeDelivered _ _ peer _ msg waiter _ _ _ hmatch =>
      have hmem : waiter ∈ (w.get peer).waiters :=
        (w.get peer).mem_of_matchingWaiter hooks hmatch
      apply WaiterChange.of_completed hdistinct
      · simp [completedBy, completed?]
      · simpa [completedBy, completed?] using hmem
      · rw [(hdistinct.nodup peer).erase_eq_filter]
        apply List.filter_congr
        intro other _
        by_cases h : other = waiter <;> simp [completedBy, completed?, h]
  | @writeQueued tlScopes _ peer _ msg =>
      apply WaiterChange.of_same
      · simp only [completedBy, List.filterMap_map]
        apply List.filterMap_eq_nil_iff.mpr
        exact writeSelf_completed hooks (w.get peer) tlScopes msg
      · exact hset _ _ (by rw [ChannelDispatcher.writeSelf_self])
  | readTaken =>
      exact .of_same rfl (hset _ _ (by rw [ChannelDispatcher.shifted_eq]))
  | setOwner =>
      exact .of_same rfl (hset _ _ (by rw [ChannelDispatcher.setOwner_eq]))
  | @onHandleCountZero this =>
      have hall : completedBy ⟨.void, (w.get this).waiters.map
          fun waiter => (this, .cancel waiter .errCanceled)⟩ =
          (w.get this).waiters := by
        simp [completedBy, completed?, List.filterMap_map]
      apply WaiterChange.of_completed hdistinct
      · rw [hall]
        exact hdistinct.nodup this
      · rw [hall]
        exact fun _ hwaiter => hwaiter
      · rw [hall]
        symm
        apply List.filter_eq_nil_iff.mpr
        intro waiter hwaiter
        simpa using hwaiter
  | incrementHandleCount => exact .of_same rfl (hset _ _ rfl)
  | decrementHandleCount => exact .of_same rfl (hset _ _ rfl)

/-! ## Runs -/

/-- The stores in which waiting calls are accounted for. -/
def Waiting (w : World) : Prop := Linked w ∧ DistinctWaiters w

theorem waiting_preserved (hooks : Placeholders) :
    (machine hooks).Preserves Waiting := by
  intro w op h
  have ht := step_transition hooks w op
  exact ⟨ht.linked h.1, (ht.waiterChange h.1 h.2).distinct h.2⟩

/-- Over a run no waiter is completed twice, and only waiters that wait at the
start are completed. -/
theorem completedWaiters_nodup (hooks : Placeholders) (ops : List Op) :
    ∀ w, Waiting w →
      (completedWaiters ((machine hooks).trace w ops)).Nodup ∧
        ∀ waiter ∈ completedWaiters ((machine hooks).trace w ops),
          ∃ r, waiter ∈ (w.get r).waiters := by
  induction ops with
  | nil =>
      intro w _
      exact ⟨List.nodup_nil, fun _ hwaiter => by cases hwaiter⟩
  | cons op ops ih =>
      intro w hw
      have hchange :=
        (step_transition hooks w op).waiterChange hw.1 hw.2
      obtain ⟨hnodup, hwaiting⟩ := ih _ (waiting_preserved hooks w op hw)
      have hcons : completedWaiters ((machine hooks).trace w (op :: ops)) =
          completedBy (step hooks w op).2 ++
            completedWaiters
              ((machine hooks).trace (step hooks w op).1 ops) := by
        simp [completedWaiters, machine]
      rw [hcons]
      constructor
      · apply hchange.nodup.append hnodup
        intro waiter hnow hlater
        obtain ⟨r, hr⟩ := hwaiting waiter hlater
        exact hchange.not_mem_of_completed hnow r hr
      · intro waiter hwaiter
        rcases List.mem_append.mp hwaiter with hnow | hlater
        · exact hchange.waiting waiter hnow
        · obtain ⟨r, hr⟩ := hwaiting waiter hlater
          exact ⟨r, hchange.mem_of_mem hr⟩

/-- What an event does to messages and waiters. -/
structure WaiterEvent (hooks : Placeholders)
    (e : Event World Op Answer) : Prop where
  /-- A completed waiter leaves the list it waits in. -/
  leaves : ∀ waiter ∈ completedBy e.reply,
    (∃ r, waiter ∈ (e.before.get r).waiters) ∧
      ∀ r, waiter ∉ (e.after.get r).waiters
  /-- A cancelled waiter is told ERR_CANCELED. -/
  cancels : ∀ r waiter status,
    (r, Effect.cancel waiter status) ∈ e.reply.effects →
      status = .errCanceled
  /-- All other waiters keep their relative order. -/
  keeps : ∀ r, (e.after.get r).waiters =
    (e.before.get r).waiters.filter
      fun waiter => waiter ∉ completedBy e.reply
  /-- An accepted message goes to the first matching waiter of the peer if
  there is one, and to the tail of the peer's queue otherwise. -/
  writes : ∀ tlScopes this owner msg,
    e.action = .write tlScopes this owner msg →
    e.reply.reply = .write (.ok .ok) →
    ∃ peer, (e.before.get this).peer = some peer ∧
      (∀ r, r ≠ peer → e.after.get r = e.before.get r) ∧
      match (e.before.get peer).matchingWaiter hooks msg with
      | some waiter =>
          e.reply.effects = [(peer, .deliver waiter msg)] ∧
            (e.after.get peer).messages = (e.before.get peer).messages
      | none =>
          completedBy e.reply = [] ∧
            (e.after.get peer).messages =
              (e.before.get peer).messages ++ [msg]
  /-- `on_handle_count_zero` cancels the remaining waiters in list order and
  changes nothing else. -/
  closes : ∀ r, e.action = .onHandleCountZero r → e.before.Allocated r →
    e.reply.effects = (e.before.get r).waiters.map
        (fun waiter => (r, .cancel waiter .errCanceled)) ∧
      e.after = e.before.set r { e.before.get r with waiters := [] }

theorem Transition.waiterEvent (ht : Transition hooks w op w' answer)
    (hw : Waiting w) : WaiterEvent hooks ⟨w, op, answer, w'⟩ := by
  have hchange := ht.waiterChange hw.1 hw.2
  constructor
  · intro waiter hwaiter
    exact ⟨hchange.waiting waiter hwaiter,
      hchange.not_mem_of_completed hwaiter⟩
  · intro r waiter status hcancel
    cases ht with
    | writeQueued =>
        obtain ⟨effect, heffect, heq⟩ := List.mem_map.mp hcancel
        have hnone := writeSelf_completed _ _ _ _ effect heffect
        rw [(Prod.mk.inj heq).2] at hnone
        cases hnone
    | onHandleCountZero =>
        obtain ⟨_, _, heq⟩ := List.mem_map.mp hcancel
        cases heq
        rfl
    | writeDelivered => simp at hcancel
    | _ => cases hcancel
  · exact hchange.kept
  · intro tlScopes this owner msg hop hok
    cases ht with
    | @writeDelivered _ _ peer _ _ waiter _ _ hpeer hmatch =>
        cases hop
        refine ⟨peer, hpeer, fun r hr => w.get_set_of_ne hr _, ?_⟩
        simp [hmatch]
    | @writeQueued _ _ peer _ _ _ _ hpeer hmatch =>
        cases hop
        refine ⟨peer, hpeer, fun r hr => w.get_set_of_ne hr _, ?_⟩
        have hnone : completedBy ⟨.write
            (((w.get peer).writeSelf hooks tlScopes msg).result.map
              fun _ => .ok),
            ((w.get peer).writeSelf hooks tlScopes msg).effects.map
              (peer, ·)⟩ = [] := by
          simp only [completedBy, List.filterMap_map]
          exact List.filterMap_eq_nil_iff.mpr
            (writeSelf_completed hooks (w.get peer) tlScopes msg)
        simp only [hmatch, hnone, Store.get_set_self,
          ChannelDispatcher.writeSelf_self, and_self]
    | noObject => cases hok
    | writeBadHandle => cases hok
    | writePeerClosed => cases hok
    | _ => cases hop
  · intro r hop halloc
    cases ht with
    | noObject hthis hfree =>
        subst hop
        obtain rfl := Option.some.inj hthis
        exact absurd halloc hfree
    | onHandleCountZero =>
        cases hop
        exact ⟨rfl, rfl⟩
    | _ => cases hop

/-- One channel made by `create`, whose endpoints 0 and 1 start with the given
waiters. -/
def channelWith (waiters0 waiters1 : List MessageWaiter) : World :=
  let w := (create World.init).1
  let w := w.set 0 { w.get 0 with waiters := waiters0 }
  w.set 1 { w.get 1 with waiters := waiters1 }

theorem channelWith_waiters (waiters0 waiters1 : List MessageWaiter)
    (r : ℕ) :
    ((channelWith waiters0 waiters1).get r).waiters =
      if r = 0 then waiters0 else if r = 1 then waiters1 else [] := by
  by_cases h1 : r = 1
  · subst r
    simp [channelWith]
  · by_cases h0 : r = 0
    · subst r
      simp [channelWith, Store.get_set]
    · simp [channelWith, Store.get_set, h0, h1, create_get, World.init]

theorem channelWith_waiting {waiters0 waiters1 : List MessageWaiter}
    (hdistinct : (waiters0 ++ waiters1).Nodup) :
    Waiting (channelWith waiters0 waiters1) := by
  obtain ⟨h0, h1, hdisjoint⟩ := List.nodup_append'.mp hdistinct
  constructor
  · have hcreated : Linked (create World.init).1 := Linked.init.create
    have hend0 : Linked ((create World.init).1.set 0
        { (create World.init).1.get 0 with waiters := waiters0 }) :=
      hcreated.set (by decide) rfl rfl
    have halloc : ((create World.init).1.set 0
        { (create World.init).1.get 0 with
          waiters := waiters0 }).Allocated 1 :=
      show 1 < 2 by omega
    exact hend0.set halloc rfl rfl
  · constructor
    · intro r
      rw [channelWith_waiters]
      split
      · exact h0
      · split
        · exact h1
        · exact List.nodup_nil
    · intro r r' waiter hr hr'
      rw [channelWith_waiters] at hr hr'
      split at hr <;> split at hr' <;> try omega
      · split at hr'
        · exact (hdisjoint hr hr').elim
        · cases hr'
      · split at hr
        · exact (hdisjoint hr' hr).elim
        · cases hr
      · split at hr <;> split at hr'
        · omega
        · cases hr'
        · cases hr
        · cases hr

/-- Waiting calls complete at most once and each message goes to one place.
Start a channel with any distinct waiters at its two ends: over every run no
waiter is completed twice, and every event of the run treats messages and
waiters as `WaiterEvent` says. -/
theorem waiters_complete_once (hooks : Placeholders)
    (waiters0 waiters1 : List MessageWaiter)
    (hdistinct : (waiters0 ++ waiters1).Nodup) (ops : List Op) :
    let events := (machine hooks).trace (channelWith waiters0 waiters1) ops
    (completedWaiters events).Nodup ∧
      ∀ e ∈ events, WaiterEvent hooks e := by
  intro events
  have hstart := channelWith_waiting hdistinct
  refine ⟨(completedWaiters_nodup hooks ops _ hstart).1, ?_⟩
  intro e he
  obtain ⟨w, op, -, hw, rfl⟩ :=
    (waiting_preserved hooks).event_of_mem hstart he
  exact (step_transition hooks w op).waiterEvent hw

/-- Three waiters for one id: the first is delivered to, the second is
cancelled when its endpoint closes, the third keeps waiting. -/
theorem waiters_complete_once_sample :
    let hooks : Placeholders :=
      { Placeholders.source with isKernelGeneratedTxid := fun _ => true }
    let events := (machine hooks).trace
      (channelWith [⟨1, 5⟩, ⟨2, 5⟩] [⟨3, 5⟩])
      [.write [] 1 fxKoidInvalid ⟨0, 5, 4, 0⟩, .onHandleCountZero 0]
    completedWaiters events = [⟨1, 5⟩, ⟨2, 5⟩] ∧
      (completedWaiters events).Nodup ∧ ∀ e ∈ events, WaiterEvent hooks e :=
  ⟨rfl, waiters_complete_once _ _ _ (by decide) _⟩

end Fiber.Kernel.Channel
