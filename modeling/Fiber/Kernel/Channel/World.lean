import Fiber.Kernel.Channel.Dispatcher
import Fiber.Support.Machine
import Fiber.Support.Store

/-!
# Channels as a state machine

The endpoints of all channels live in one store, and `peer` fields link them
in pairs.  An operation names the endpoint it is called on by reference; a
write also carries the scope stack it is performed under, because its logging
looks up the current process.

`Transition` says once everything that one operation can do.  Every invariant
is derived from it.
-/

namespace Fiber.Kernel.Channel

open Fiber.Support

/-- The endpoints of all channels. -/
abbrev World := Store ChannelDispatcher

/-- No channel has been created. -/
def World.init : World := Store.empty {}

inductive Op
  | create
  | write (tlScopes : List ProcessContext) (this : ℕ) (owner : FxKoid)
      (msg : MessagePacket)
  | read (this : ℕ) (owner : FxKoid) (msgSize msgHandleCount : ℕ)
      (mayDiscard : Bool)
  | setOwner (this : ℕ) (newOwner : FxKoid)
  | onHandleCountZero (this : ℕ)
  | incrementHandleCount (this : ℕ)
  | decrementHandleCount (this : ℕ)
  deriving DecidableEq

/-- The endpoint an operation is called on. -/
def Op.this? : Op → Option ℕ
  | .create => none
  | .write _ this _ _ => some this
  | .read this _ _ _ _ => some this
  | .setOwner this _ => some this
  | .onHandleCountZero this => some this
  | .incrementHandleCount this => some this
  | .decrementHandleCount this => some this

/-- What the caller gets back.  `noObject` stands for a reference that no
object has, so that no method was called. -/
inductive Reply
  | created (status : Status) (endpoint0 endpoint1 : ℕ) (rights : FxRights)
  | write (result : Except JsError Status)
  | read (status : Status) (msg : Option MessagePacket)
  | void
  | noObject

/-- The answer to an operation: the reply, and the calls that endpoints made on
their collaborators. -/
structure Answer where
  reply : Reply
  effects : List (ℕ × Effect)

/-- `ChannelDispatcher.create`. -/
def create (w : World) : World × Reply :=
  let endpoint0 := w.next
  let w := w.alloc {}
  let endpoint1 := w.next
  let w := w.alloc {}
  let w := w.set endpoint0 ((w.get endpoint0).initPeer endpoint1)
  let w := w.set endpoint1 ((w.get endpoint1).initPeer endpoint0)
  (w, .created .ok endpoint0 endpoint1 fxRightNone)

/-- `ChannelDispatcher.write`, which changes the peer of the endpoint it is
called on. -/
def write (hooks : Placeholders) (w : World)
    (tlScopes : List ProcessContext) (this : ℕ) (owner : FxKoid)
    (msg : MessagePacket) :
    World × List (ℕ × Effect) × Except JsError Status :=
  if owner ≠ (w.get this).owner then
    (w, [], .ok .errBadHandle)
  else
    match (w.get this).peer with
    | none => (w, [], .ok .errPeerClosed)
    | some peer =>
        let tried := (w.get peer).tryWriteToMessageWaiter hooks msg
        let w := w.set peer tried.self
        if tried.result then
          (w, tried.effects.map (peer, ·), .ok .ok)
        else
          let wrote := (w.get peer).writeSelf hooks tlScopes msg
          (w.set peer wrote.self,
            (tried.effects ++ wrote.effects).map (peer, ·),
            wrote.result.map fun _ => .ok)

/-- One operation on an existing endpoint, or the creation of a channel. -/
def perform (hooks : Placeholders) (w : World) : Op → World × Answer
  | .create => ((create w).1, ⟨(create w).2, []⟩)
  | .write tlScopes this owner msg =>
      let wrote := write hooks w tlScopes this owner msg
      (wrote.1, ⟨.write wrote.2.2, wrote.2.1⟩)
  | .read this owner msgSize msgHandleCount mayDiscard =>
      let got :=
        (w.get this).read hooks owner msgSize msgHandleCount mayDiscard
      (w.set this got.self,
        ⟨.read got.result.1 got.result.2, got.effects.map (this, ·)⟩)
  | .setOwner this newOwner =>
      (w.set this ((w.get this).setOwner newOwner), ⟨.void, []⟩)
  | .onHandleCountZero this =>
      let aborted := (w.get this).onHandleCountZero
      (w.set this aborted.self, ⟨.void, aborted.effects.map (this, ·)⟩)
  | .incrementHandleCount this =>
      (w.set this (w.get this).incrementHandleCount, ⟨.void, []⟩)
  | .decrementHandleCount this =>
      (w.set this (w.get this).decrementHandleCount, ⟨.void, []⟩)

def step (hooks : Placeholders) (w : World) (op : Op) : World × Answer :=
  if ∀ this, op.this? = some this → w.Allocated this then perform hooks w op
  else (w, ⟨.noObject, []⟩)

/-- All channels of the kernel, as a machine over operations. -/
def machine (hooks : Placeholders) : Machine World Op Answer where
  step := step hooks

/-! ## Everything one operation can do -/

/-- `Transition hooks w op w' answer`: performing `op` in `w` can lead to `w'`
and be answered by `answer`.  There is one case for each way an operation can
end. -/
inductive Transition (hooks : Placeholders) (w : World) :
    Op → World → Answer → Prop
  | noObject {op : Op} {this : ℕ} (hop : op.this? = some this)
      (hfree : ¬ w.Allocated this) :
      Transition hooks w op w ⟨.noObject, []⟩
  | create :
      Transition hooks w .create (create w).1 ⟨(create w).2, []⟩
  | writeBadHandle {tlScopes : List ProcessContext} {this : ℕ}
      {owner : FxKoid} {msg : MessagePacket} (halloc : w.Allocated this)
      (howner : owner ≠ (w.get this).owner) :
      Transition hooks w (.write tlScopes this owner msg) w
        ⟨.write (.ok .errBadHandle), []⟩
  | writePeerClosed {tlScopes : List ProcessContext} {this : ℕ}
      {owner : FxKoid} {msg : MessagePacket} (halloc : w.Allocated this)
      (howner : owner = (w.get this).owner)
      (hpeer : (w.get this).peer = none) :
      Transition hooks w (.write tlScopes this owner msg) w
        ⟨.write (.ok .errPeerClosed), []⟩
  | writeDelivered {tlScopes : List ProcessContext} {this peer : ℕ}
      {owner : FxKoid} {msg : MessagePacket} {waiter : MessageWaiter}
      (halloc : w.Allocated this) (howner : owner = (w.get this).owner)
      (hpeer : (w.get this).peer = some peer)
      (hmatch : (w.get peer).matchingWaiter hooks msg = some waiter) :
      Transition hooks w (.write tlScopes this owner msg)
        (w.set peer
          { w.get peer with waiters := (w.get peer).waiters.erase waiter })
        ⟨.write (.ok .ok), [(peer, .deliver waiter msg)]⟩
  | writeQueued {tlScopes : List ProcessContext} {this peer : ℕ}
      {owner : FxKoid} {msg : MessagePacket}
      (halloc : w.Allocated this) (howner : owner = (w.get this).owner)
      (hpeer : (w.get this).peer = some peer)
      (hmatch : (w.get peer).matchingWaiter hooks msg = none) :
      Transition hooks w (.write tlScopes this owner msg)
        (w.set peer ((w.get peer).writeSelf hooks tlScopes msg).self)
        ⟨.write (((w.get peer).writeSelf hooks tlScopes msg).result.map
            fun _ => .ok),
          ((w.get peer).writeSelf hooks tlScopes msg).effects.map (peer, ·)⟩
  | readBadHandle {this : ℕ} {owner : FxKoid} {msgSize msgHandleCount : ℕ}
      {mayDiscard : Bool} (halloc : w.Allocated this)
      (howner : owner ≠ (w.get this).owner) :
      Transition hooks w
        (.read this owner msgSize msgHandleCount mayDiscard) w
        ⟨.read .errBadHandle none, []⟩
  | readEmpty {this : ℕ} {owner : FxKoid} {msgSize msgHandleCount : ℕ}
      {mayDiscard : Bool} (halloc : w.Allocated this)
      (howner : owner = (w.get this).owner)
      (hempty : (w.get this).messages = []) :
      Transition hooks w
        (.read this owner msgSize msgHandleCount mayDiscard) w
        ⟨.read (if (w.get this).peerHasClosed then .errPeerClosed
          else .errShouldWait) none, []⟩
  | readKept {this : ℕ} {owner : FxKoid} {msgSize msgHandleCount : ℕ}
      {msg : MessagePacket} {rest : List MessagePacket}
      (halloc : w.Allocated this) (howner : owner = (w.get this).owner)
      (hqueue : (w.get this).messages = msg :: rest)
      (hfits : ¬ ChannelDispatcher.Fits msg msgSize msgHandleCount) :
      Transition hooks w (.read this owner msgSize msgHandleCount false) w
        ⟨.read .errBufferTooSmall none, []⟩
  | readTaken {this : ℕ} {owner : FxKoid} {msgSize msgHandleCount : ℕ}
      {mayDiscard : Bool} {msg : MessagePacket} {rest : List MessagePacket}
      (halloc : w.Allocated this) (howner : owner = (w.get this).owner)
      (hqueue : (w.get this).messages = msg :: rest)
      (htake : ChannelDispatcher.Fits msg msgSize msgHandleCount ∨
        mayDiscard = true) :
      Transition hooks w
        (.read this owner msgSize msgHandleCount mayDiscard)
        (w.set this ((w.get this).shifted hooks rest))
        ⟨.read (if ChannelDispatcher.Fits msg msgSize msgHandleCount
          then .ok else .errBufferTooSmall) (some msg), []⟩
  | setOwner {this : ℕ} {newOwner : FxKoid} (halloc : w.Allocated this) :
      Transition hooks w (.setOwner this newOwner)
        (w.set this ((w.get this).setOwner newOwner)) ⟨.void, []⟩
  | onHandleCountZero {this : ℕ} (halloc : w.Allocated this) :
      Transition hooks w (.onHandleCountZero this)
        (w.set this { w.get this with waiters := [] })
        ⟨.void, (w.get this).waiters.map
          fun waiter => (this, .cancel waiter .errCanceled)⟩
  | incrementHandleCount {this : ℕ} (halloc : w.Allocated this) :
      Transition hooks w (.incrementHandleCount this)
        (w.set this (w.get this).incrementHandleCount) ⟨.void, []⟩
  | decrementHandleCount {this : ℕ} (halloc : w.Allocated this) :
      Transition hooks w (.decrementHandleCount this)
        (w.set this (w.get this).decrementHandleCount) ⟨.void, []⟩

section

variable {hooks : Placeholders} {w : World} {this peer : ℕ} {owner : FxKoid}
  {msg : MessagePacket}

theorem write_of_owner_ne (howner : owner ≠ (w.get this).owner)
    (tlScopes : List ProcessContext) (msg : MessagePacket) :
    write hooks w tlScopes this owner msg = (w, [], .ok .errBadHandle) :=
  if_pos howner

theorem write_of_no_peer (howner : owner = (w.get this).owner)
    (hpeer : (w.get this).peer = none) (tlScopes : List ProcessContext)
    (msg : MessagePacket) :
    write hooks w tlScopes this owner msg = (w, [], .ok .errPeerClosed) := by
  simp [write, howner, hpeer]

theorem write_of_waiter {waiter : MessageWaiter}
    (howner : owner = (w.get this).owner)
    (hpeer : (w.get this).peer = some peer)
    (hmatch : (w.get peer).matchingWaiter hooks msg = some waiter)
    (tlScopes : List ProcessContext) :
    write hooks w tlScopes this owner msg =
      (w.set peer
        { w.get peer with waiters := (w.get peer).waiters.erase waiter },
        [(peer, .deliver waiter msg)], .ok .ok) := by
  simp [write, howner, hpeer, hmatch,
    ChannelDispatcher.tryWriteToMessageWaiter_eq]

theorem write_of_no_waiter (howner : owner = (w.get this).owner)
    (hpeer : (w.get this).peer = some peer)
    (hmatch : (w.get peer).matchingWaiter hooks msg = none)
    (tlScopes : List ProcessContext) :
    write hooks w tlScopes this owner msg =
      (w.set peer ((w.get peer).writeSelf hooks tlScopes msg).self,
        ((w.get peer).writeSelf hooks tlScopes msg).effects.map (peer, ·),
        ((w.get peer).writeSelf hooks tlScopes msg).result.map
          fun _ => .ok) := by
  simp [write, howner, hpeer, hmatch,
    ChannelDispatcher.tryWriteToMessageWaiter_eq]

end

theorem write_transition {hooks : Placeholders} {w : World} {this : ℕ}
    (halloc : w.Allocated this) (tlScopes : List ProcessContext)
    (owner : FxKoid) (msg : MessagePacket) :
    Transition hooks w (.write tlScopes this owner msg)
      (write hooks w tlScopes this owner msg).1
      ⟨.write (write hooks w tlScopes this owner msg).2.2,
        (write hooks w tlScopes this owner msg).2.1⟩ := by
  by_cases howner : owner = (w.get this).owner
  · cases hpeer : (w.get this).peer with
    | none =>
        rw [write_of_no_peer howner hpeer]
        exact .writePeerClosed halloc howner hpeer
    | some peer =>
        cases hmatch : (w.get peer).matchingWaiter hooks msg with
        | none =>
            rw [write_of_no_waiter howner hpeer hmatch]
            exact .writeQueued halloc howner hpeer hmatch
        | some waiter =>
            rw [write_of_waiter howner hpeer hmatch]
            exact .writeDelivered halloc howner hpeer hmatch
  · rw [write_of_owner_ne howner]
    exact .writeBadHandle halloc howner

theorem read_transition {hooks : Placeholders} {w : World} {this : ℕ}
    (halloc : w.Allocated this) (owner : FxKoid)
    (msgSize msgHandleCount : ℕ) (mayDiscard : Bool) :
    Transition hooks w (.read this owner msgSize msgHandleCount mayDiscard)
      (perform hooks w
        (.read this owner msgSize msgHandleCount mayDiscard)).1
      (perform hooks w
        (.read this owner msgSize msgHandleCount mayDiscard)).2 := by
  by_cases howner : owner = (w.get this).owner
  · subst howner
    cases hqueue : (w.get this).messages with
    | nil =>
        have h := @Transition.readEmpty hooks w this _ msgSize
          msgHandleCount mayDiscard halloc rfl hqueue
        simpa [perform, ChannelDispatcher.read_of_empty _ _ hqueue] using h
    | cons msg rest =>
        by_cases htake :
            ChannelDispatcher.Fits msg msgSize msgHandleCount ∨
              mayDiscard = true
        · have h := @Transition.readTaken hooks w this _ msgSize
            msgHandleCount mayDiscard msg rest halloc rfl hqueue htake
          simpa [perform,
            ChannelDispatcher.read_of_taken _ _ hqueue htake] using h
        · obtain ⟨hfits, hdiscard⟩ := not_or.mp htake
          obtain rfl : mayDiscard = false := by simpa using hdiscard
          have h := @Transition.readKept hooks w this _ msgSize
            msgHandleCount msg rest halloc rfl hqueue hfits
          simpa [perform,
            ChannelDispatcher.read_of_kept _ _ hqueue hfits] using h
  · have h := @Transition.readBadHandle hooks w this owner msgSize
      msgHandleCount mayDiscard halloc howner
    simpa [perform, ChannelDispatcher.read_of_owner_ne _ _ howner] using h

theorem step_transition (hooks : Placeholders) (w : World) (op : Op) :
    Transition hooks w op (step hooks w op).1 (step hooks w op).2 := by
  unfold step
  split
  next halloc =>
    cases op with
    | create => exact .create
    | write tlScopes this owner msg =>
        exact write_transition (halloc this rfl) tlScopes owner msg
    | read this owner msgSize msgHandleCount mayDiscard =>
        exact read_transition (halloc this rfl) owner msgSize
          msgHandleCount mayDiscard
    | setOwner this newOwner => exact .setOwner (halloc this rfl)
    | onHandleCountZero this =>
        have h := @Transition.onHandleCountZero hooks w this
          (halloc this rfl)
        simpa [perform, ChannelDispatcher.onHandleCountZero_eq,
          Function.comp_def] using h
    | incrementHandleCount this =>
        exact .incrementHandleCount (halloc this rfl)
    | decrementHandleCount this =>
        exact .decrementHandleCount (halloc this rfl)
  next hfree =>
    obtain ⟨this, hthis⟩ := not_forall.mp hfree
    obtain ⟨hop, hthis⟩ := Classical.not_imp.mp hthis
    exact .noObject hop hthis

end Fiber.Kernel.Channel
