import Fiber.Kernel.Channel.World

/-!
# Writes that fail

A write that does not return OK should leave both endpoints as they are.  The
queue warnings look the running process up after the message was pushed, and
the lookup throws when fewer than two scopes are open.  Then the write ends
with an exception although the message is queued.
-/

namespace Fiber.Kernel.Channel

open Fiber.Support

/-- The deliveries among the calls of an operation. -/
def deliveries (effects : List (ℕ × Effect)) :
    List (ℕ × MessageWaiter × MessagePacket) :=
  effects.filterMap fun effect =>
    match effect with
    | (peer, .deliver waiter msg) => some (peer, waiter, msg)
    | _ => none

/-- The message went to one waiter of the peer, or to the tail of the peer's
queue, and nowhere else. -/
inductive HandedOver (w w' : World) (effects : List (ℕ × Effect))
    (peer : ℕ) (msg : MessagePacket) : Prop
  | delivered (waiter : MessageWaiter)
      (hwaiter : waiter ∈ (w.get peer).waiters)
      (hdeliveries : deliveries effects = [(peer, waiter, msg)])
      (hqueues : ∀ r, (w'.get r).messages = (w.get r).messages)
  | queued (hdeliveries : deliveries effects = [])
      (hqueue : (w'.get peer).messages = (w.get peer).messages ++ [msg])
      (hothers : ∀ r, r ≠ peer → w'.get r = w.get r)

/-- What a failing write has to leave as it is. -/
structure Untouched (x y : ChannelDispatcher) : Prop where
  messages : y.messages = x.messages
  waiters : y.waiters = x.waiters
  owner : y.owner = x.owner
  maxMessageCount : y.maxMessageCount = x.maxMessageCount

/-- The write returns OK and hands the message over once, or it does not
return OK and touches no endpoint. -/
structure AllOrNothing (hooks : Placeholders) (w : World)
    (tlScopes : List ProcessContext) (this : ℕ) (owner : FxKoid)
    (msg : MessagePacket) : Prop where
  all : (write hooks w tlScopes this owner msg).2.2 = .ok .ok →
    ∃ peer, (w.get this).peer = some peer ∧
      HandedOver w (write hooks w tlScopes this owner msg).1
        (write hooks w tlScopes this owner msg).2.1 peer msg
  nothing : (write hooks w tlScopes this owner msg).2.2 ≠ .ok .ok →
    ∀ r, Untouched (w.get r)
      ((write hooks w tlScopes this owner msg).1.get r)

/-- The queue warnings look the running process up at this length. -/
def Warns (size : ℕ) : Prop :=
  size = kWarnPendingMessageCount ∨ size > kMaxPendingMessageCount

section

variable (self : ChannelDispatcher)

theorem logPending_of_not_warns {size : ℕ} (h : ¬ Warns size)
    (tlScopes : List ProcessContext) :
    self.logPending tlScopes size = .ok [] := by
  obtain ⟨hwarn, hmax⟩ := not_or.mp h
  simp [ChannelDispatcher.logPending, hwarn, hmax, pure, Except.pure]

/-- With fewer than two scopes there is no current process. -/
theorem logPending_of_warns {size : ℕ} (h : Warns size)
    {tlScopes : List ProcessContext} (hscopes : tlScopes.length < 2) :
    self.logPending tlScopes size = .error .typeError := by
  have hnone : ProcessDispatcher.getCurrent tlScopes = .error .typeError := by
    rw [ProcessDispatcher.getCurrent,
      List.getElem?_eq_none (by simp [scopeLength]; omega)]
  rcases h with rfl | hmax
  · simp [ChannelDispatcher.logPending, hnone, bind, Except.bind]
  · have hge : size ≥ kWarnPendingMessageCount := by
      simp only [kWarnPendingMessageCount, kMaxPendingMessageCount] at hmax ⊢
      omega
    have hne : size ≠ kWarnPendingMessageCount := by
      simp only [kWarnPendingMessageCount, kMaxPendingMessageCount] at hmax ⊢
      omega
    simp [ChannelDispatcher.logPending, hnone, hge, hne, hmax, bind,
      Except.bind]

theorem exists_logPending {size : ℕ} {tlScopes : List ProcessContext}
    (h : Warns size → 2 ≤ tlScopes.length) :
    ∃ logged, self.logPending tlScopes size = .ok logged := by
  by_cases hwarns : Warns size
  · obtain ⟨context, hcontext⟩ :
        ∃ context, tlScopes[1]? = some context :=
      ⟨_, List.getElem?_eq_getElem (h hwarns)⟩
    exact self.logPending_of_getCurrent
      (ProcessDispatcher.getCurrent_eq_ok_iff.mpr ⟨context, hcontext, rfl⟩)
      size
  · exact ⟨_, logPending_of_not_warns self hwarns tlScopes⟩

/-- Queueing a message delivers it to no waiter. -/
theorem deliveries_writeSelf (hooks : Placeholders)
    (tlScopes : List ProcessContext) (msg : MessagePacket) (peer : ℕ) :
    deliveries
      ((self.writeSelf hooks tlScopes msg).effects.map (peer, ·)) = [] := by
  rw [deliveries, List.filterMap_eq_nil_iff]
  rintro effect heffect
  obtain ⟨call, hcall, rfl⟩ := List.mem_map.mp heffect
  rw [ChannelDispatcher.writeSelf_effects] at hcall
  rcases hlog : self.logPending tlScopes (self.messages.length + 1) with
    e | logged
  · simp [hlog] at hcall
  · rw [hlog] at hcall
    simp only at hcall
    have hlogged := self.logPending_consoleLog hlog
    split at hcall
    · rcases List.mem_append.mp hcall with hcall | hcall
      · obtain ⟨format, koid, pname, rfl⟩ := hlogged call hcall
        rfl
      · rw [List.mem_singleton.mp hcall]
    · obtain ⟨format, koid, pname, rfl⟩ := hlogged call hcall
      rfl

end

/-! ## The ways a write ends -/

variable {hooks : Placeholders} {w : World} {this peer : ℕ} {owner : FxKoid}
  {msg : MessagePacket} {tlScopes : List ProcessContext}

/-- A write that is refused before the peer is reached. -/
theorem allOrNothing_of_refused {status : Status}
    (hwrite : write hooks w tlScopes this owner msg = (w, [], .ok status))
    (hstatus : status ≠ .ok) :
    AllOrNothing hooks w tlScopes this owner msg where
  all := by
    intro hok
    rw [hwrite] at hok
    exact absurd (Except.ok.inj hok) hstatus
  nothing := by
    intro _ r
    rw [hwrite]
    exact ⟨rfl, rfl, rfl, rfl⟩

theorem allOrNothing_of_waiter {waiter : MessageWaiter}
    (howner : owner = (w.get this).owner)
    (hpeer : (w.get this).peer = some peer)
    (hmatch : (w.get peer).matchingWaiter hooks msg = some waiter) :
    AllOrNothing hooks w tlScopes this owner msg where
  all := by
    intro _
    rw [write_of_waiter howner hpeer hmatch]
    refine ⟨peer, hpeer, .delivered waiter
      (ChannelDispatcher.mem_of_matchingWaiter _ _ hmatch) rfl fun r => ?_⟩
    exact w.get_set_rel (R := fun x y => y.messages = x.messages)
      (fun _ => rfl) (by rfl) r
  nothing := by
    intro hne
    rw [write_of_waiter howner hpeer hmatch] at hne
    exact absurd rfl hne

/-- A write that queues its message is all or nothing exactly if its logging
does not throw. -/
theorem allOrNothing_iff_of_no_waiter (howner : owner = (w.get this).owner)
    (hpeer : (w.get this).peer = some peer)
    (hmatch : (w.get peer).matchingWaiter hooks msg = none) :
    AllOrNothing hooks w tlScopes this owner msg ↔
      (Warns ((w.get peer).messages.length + 1) →
        2 ≤ tlScopes.length) := by
  have hwrite := write_of_no_waiter howner hpeer hmatch tlScopes
  have hself := ChannelDispatcher.writeSelf_self hooks (w.get peer) tlScopes
    msg
  have hresult := ChannelDispatcher.writeSelf_result hooks (w.get peer)
    tlScopes msg
  constructor
  · intro h hwarns
    by_contra hscopes
    rw [logPending_of_warns _ hwarns (by omega)] at hresult
    have hkept := (h.nothing (by
      rw [hwrite, hresult]
      simp [Except.map]) peer).messages
    rw [hwrite] at hkept
    simp only [Store.get_set_self, hself] at hkept
    simp at hkept
  · intro hscopes
    obtain ⟨logged, hlogged⟩ := exists_logPending (w.get peer) hscopes
    rw [hlogged] at hresult
    constructor
    · intro _
      rw [hwrite]
      refine ⟨peer, hpeer, .queued (deliveries_writeSelf _ _ _ _ _) ?_
        fun r hr => w.get_set_of_ne hr _⟩
      rw [Store.get_set_self, hself]
    · intro hne
      rw [hwrite, hresult] at hne
      exact absurd rfl hne

/-- A write is all or nothing in exactly these states: whenever its message
would be queued as the 80th, or beyond the 100th, at least two scopes are
open. -/
theorem write_all_or_nothing_iff (hooks : Placeholders) (w : World)
    (tlScopes : List ProcessContext) (this : ℕ) (owner : FxKoid)
    (msg : MessagePacket) :
    AllOrNothing hooks w tlScopes this owner msg ↔
      ∀ peer, owner = (w.get this).owner →
        (w.get this).peer = some peer →
        (w.get peer).matchingWaiter hooks msg = none →
        Warns ((w.get peer).messages.length + 1) →
          2 ≤ tlScopes.length := by
  by_cases howner : owner = (w.get this).owner
  · rcases hpeer : (w.get this).peer with _ | peer
    · exact iff_of_true
        (allOrNothing_of_refused (write_of_no_peer howner hpeer _ _)
          (by decide : Status.errPeerClosed ≠ .ok)) nofun
    · rcases hmatch : (w.get peer).matchingWaiter hooks msg with _ | waiter
      · rw [allOrNothing_iff_of_no_waiter howner hpeer hmatch]
        constructor
        · rintro h q - hq -
          obtain rfl := Option.some.inj hq
          exact h
        · exact fun h => h peer howner rfl hmatch
      · refine iff_of_true (allOrNothing_of_waiter howner hpeer hmatch) ?_
        rintro q - hq hnone
        obtain rfl := Option.some.inj hq
        rw [hmatch] at hnone
        simp at hnone
  · exact iff_of_true
      (allOrNothing_of_refused (write_of_owner_ne howner _ _)
        (by decide : Status.errBadHandle ≠ .ok))
      fun _ h => absurd h howner

/-- With one open scope the 80th message is queued and the write throws. -/
theorem not_allOrNothing_warning :
    let w := (create World.init).1.set 1
      { peer := some 0, messages := List.replicate 79 ⟨0, 0, 0, 0⟩ }
    ¬ AllOrNothing .source w [⟨⟨0, "userboot"⟩⟩] 0 fxKoidInvalid
      ⟨1, 0, 0, 0⟩ := by
  intro w h
  have howner : fxKoidInvalid = (w.get 0).owner := rfl
  have hpeer : (w.get 0).peer = some 1 := rfl
  have hmatch : (w.get 1).matchingWaiter .source ⟨1, 0, 0, 0⟩ = none := rfl
  have hlen := (allOrNothing_iff_of_no_waiter howner hpeer hmatch).mp h
    (Or.inl (by simp [w, Store.get_set_self, kWarnPendingMessageCount]))
  simp at hlen

end Fiber.Kernel.Channel
