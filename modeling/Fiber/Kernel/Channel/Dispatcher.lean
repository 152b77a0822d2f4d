import Fiber.Kernel.Process.Scope
import Mathlib.Data.List.Basic

/-!
# Channel endpoints

The methods of `ChannelDispatcher`, each as a function of the endpoint it is
called on.  A method that can throw returns the endpoint as the exception
leaves it.  The bodies that the source leaves as placeholders are parameters,
collected in `Placeholders`; the source's own bodies are
`Placeholders.source`.
-/

namespace Fiber.Kernel

def kWarnPendingMessageCount : ℕ := 80
def kMaxPendingMessageCount : ℕ := 100

/-- A message.  `ref` is the identity of the object; the other fields are what
the kernel asks a message for. -/
structure MessagePacket where
  ref : ℕ
  txid : FxTxid
  dataSize : ℕ
  numHandles : ℕ
  deriving DecidableEq, Repr

/-- A pending call: the identity of the waiter and the id it waits for. -/
structure MessageWaiter where
  ref : ℕ
  txid : FxTxid
  deriving DecidableEq, Repr

/-- The calls an endpoint makes on its collaborators. -/
inductive Effect
  | deliver (waiter : MessageWaiter) (msg : MessagePacket)
  | cancel (waiter : MessageWaiter) (status : Status)
  | notifyObservers (signals : FxSignals)
  | consoleLog (format : String) (koid : FxKoid) (size : ℕ) (pname : String)
  deriving DecidableEq, Repr

/-- The helpers without a real body.  The signal helpers receive the stored
signals first; `raiseSignals` gives back the signals stored afterwards and the
value it returns. -/
structure Placeholders where
  isKernelGeneratedTxid : FxTxid → Bool
  raiseSignals : FxSignals → FxSignals → FxSignals × FxSignals
  clearSignals : FxSignals → FxSignals → FxSignals

/-- The bodies that stand in the source. -/
def Placeholders.source : Placeholders where
  isKernelGeneratedTxid := fun _ => false
  raiseSignals := fun stored _ => (stored, 0)
  clearSignals := fun stored _ => stored

/-- The fields of `Dispatcher`, `PeerDispatcher` and `ChannelDispatcher`, with
their initial values, and the signals kept for the signal helpers.  `peer` is
the reference of the opposite endpoint. -/
structure ChannelDispatcher where
  count : ℤ := 0
  peerHasClosed : Bool := false
  peer : Option ℕ := none
  waiters : List MessageWaiter := []
  messages : List MessagePacket := []
  owner : FxKoid := fxKoidInvalid
  maxMessageCount : ℕ := 0
  signals : FxSignals := 0
  deriving DecidableEq, Repr

/-- How a method call ended: the endpoint it leaves, the calls it made and its
result. -/
structure Outcome (α : Type) where
  self : ChannelDispatcher
  effects : List Effect
  result : α

namespace ChannelDispatcher

variable (hooks : Placeholders) (self : ChannelDispatcher)

def incrementHandleCount : ChannelDispatcher :=
  { self with count := self.count + 1 }

def decrementHandleCount : ChannelDispatcher :=
  { self with count := self.count - 1 }

def currentHandleCount : ℤ := self.count

def getKoid (_self : ChannelDispatcher) : FxKoid := fxKoidInvalid

def initPeer (peer : ℕ) : ChannelDispatcher :=
  { self with peer := some peer }

/-- The loop of `on_handle_count_zero`, on an endpoint whose waiters are the
given list: shift a waiter, cancel it, repeat. -/
def cancelWaiters (self : ChannelDispatcher) :
    List MessageWaiter → Outcome Unit
  | [] => ⟨self, [], ()⟩
  | waiter :: rest =>
      let left := cancelWaiters { self with waiters := rest } rest
      { left with effects := .cancel waiter .errCanceled :: left.effects }

def onHandleCountZero : Outcome Unit :=
  self.cancelWaiters self.waiters

def setOwner (newOwner : FxKoid) : ChannelDispatcher :=
  if newOwner = fxKoidInvalid then self
  else { self with owner := newOwner }

def clearSignals (signals : FxSignals) : ChannelDispatcher :=
  { self with signals := hooks.clearSignals self.signals signals }

def read (owner : FxKoid) (msgSize msgHandleCount : ℕ) (mayDiscard : Bool) :
    Outcome (Status × Option MessagePacket) :=
  if owner ≠ self.owner then
    ⟨self, [], .errBadHandle, none⟩
  else
    match self.messages with
    | [] =>
        ⟨self, [],
          if self.peerHasClosed then .errPeerClosed else .errShouldWait,
          none⟩
    | msg :: rest =>
        let tooSmall :=
          decide (msg.dataSize > msgSize ∨ msg.numHandles > msgHandleCount)
        if tooSmall && !mayDiscard then
          ⟨self, [], .errBufferTooSmall, none⟩
        else
          let status : Status := if tooSmall then .errBufferTooSmall else .ok
          let shifted := { self with messages := rest }
          let left :=
            if shifted.messages.isEmpty then
              shifted.clearSignals hooks channelReadable
            else shifted
          ⟨left, [], status, some msg⟩

/-- The iteration of `tryWriteToMessageWaiter`: the first waiter that waits
for `txid`, and `all` with that waiter spliced out at its index. -/
def spliceWaiter (txid : FxTxid) (all : List MessageWaiter) :
    List MessageWaiter → Option (MessageWaiter × List MessageWaiter)
  | [] => none
  | waiter :: rest =>
      if waiter.txid = txid then
        some (waiter, all.eraseIdx (all.idxOf waiter))
      else spliceWaiter txid all rest

def tryWriteToMessageWaiter (msg : MessagePacket) : Outcome Bool :=
  if self.waiters.length = 0 then
    ⟨self, [], false⟩
  else if !hooks.isKernelGeneratedTxid msg.txid then
    ⟨self, [], false⟩
  else
    match spliceWaiter msg.txid self.waiters self.waiters with
    | some (waiter, waiters) =>
        ⟨{ self with waiters := waiters }, [.deliver waiter msg], true⟩
    | none => ⟨self, [], false⟩

/-- The block of `writeSelf` that warns about long queues. -/
def logPending (tlScopes : List ProcessContext) (size : ℕ) :
    Except JsError (List Effect) :=
  if size ≥ kWarnPendingMessageCount then
    if size = kWarnPendingMessageCount then do
      let process ← ProcessDispatcher.getCurrent tlScopes
      let pname := process.getName
      return [.consoleLog
        "KERN: warning! channel (%zu) has %zu messages (%s) (write).\n"
        self.getKoid size pname]
    else if size > kMaxPendingMessageCount then do
      let process ← ProcessDispatcher.getCurrent tlScopes
      let pname := process.getName
      return [.consoleLog
        "KERN: channel (%zu) has %zu messages (%s) (write). Raising exception.\n"
        self.getKoid size pname]
    else return []
  else return []

def writeSelf (tlScopes : List ProcessContext) (msg : MessagePacket) :
    Outcome (Except JsError Unit) :=
  let pushed := { self with messages := self.messages ++ [msg] }
  let raised := hooks.raiseSignals pushed.signals channelReadable
  let previousSignals := raised.2
  let signalled := { pushed with signals := raised.1 }
  let size := signalled.messages.length
  let counted :=
    if size > signalled.maxMessageCount then
      { signalled with maxMessageCount := size }
    else signalled
  match counted.logPending tlScopes size with
  | .error e => ⟨counted, [], .error e⟩
  | .ok logged =>
      if previousSignals &&& channelReadable = 0 then
        ⟨counted,
          logged ++ [.notifyObservers (previousSignals ||| channelReadable)],
          .ok ()⟩
      else ⟨counted, logged, .ok ()⟩

/-! ## What the methods do -/

theorem cancelWaiters_eq (waiters : List MessageWaiter) :
    ∀ self : ChannelDispatcher, self.waiters = waiters →
      self.cancelWaiters waiters =
        ⟨{ self with waiters := [] },
          waiters.map fun waiter => .cancel waiter .errCanceled, ()⟩ := by
  induction waiters with
  | nil =>
      intro self hwaiters
      have hself : { self with waiters := [] } = self := by
        rw [← hwaiters]
      simp [cancelWaiters, hself]
  | cons waiter rest ih =>
      intro self _
      simp [cancelWaiters, ih { self with waiters := rest } rfl]

theorem onHandleCountZero_eq :
    self.onHandleCountZero =
      ⟨{ self with waiters := [] },
        self.waiters.map fun waiter => .cancel waiter .errCanceled,
        ()⟩ :=
  cancelWaiters_eq self.waiters self rfl

theorem setOwner_owner (newOwner : FxKoid) :
    (self.setOwner newOwner).owner =
      if newOwner = fxKoidInvalid then self.owner else newOwner := by
  unfold setOwner
  split <;> rfl

/-- A change of owner changes nothing else. -/
theorem setOwner_eq (newOwner : FxKoid) :
    self.setOwner newOwner =
      { self with owner := (self.setOwner newOwner).owner } := by
  unfold setOwner
  split <;> rfl

/-- The message fits both limits of a read. -/
def Fits (msg : MessagePacket) (msgSize msgHandleCount : ℕ) : Prop :=
  msg.dataSize ≤ msgSize ∧ msg.numHandles ≤ msgHandleCount

instance (msg : MessagePacket) (msgSize msgHandleCount : ℕ) :
    Decidable (Fits msg msgSize msgHandleCount) :=
  inferInstanceAs (Decidable (_ ∧ _))

/-- The endpoint after its head was shifted off. -/
def shifted (rest : List MessagePacket) : ChannelDispatcher :=
  if rest.isEmpty then
    { self with
      messages := rest
      signals := hooks.clearSignals self.signals channelReadable }
  else { self with messages := rest }

@[simp] theorem shifted_messages (rest : List MessagePacket) :
    (self.shifted hooks rest).messages = rest := by
  unfold shifted
  split <;> rfl

theorem shifted_signals (rest : List MessagePacket) :
    (self.shifted hooks rest).signals =
      if rest = [] then hooks.clearSignals self.signals channelReadable
      else self.signals := by
  cases rest <;> rfl

/-- Shifting the head changes the queue and the signals only. -/
theorem shifted_eq (rest : List MessagePacket) :
    self.shifted hooks rest =
      { self with
        messages := rest
        signals := (self.shifted hooks rest).signals } := by
  unfold shifted
  split <;> rfl

theorem read_of_owner_ne {owner : FxKoid} (h : owner ≠ self.owner)
    (msgSize msgHandleCount : ℕ) (mayDiscard : Bool) :
    self.read hooks owner msgSize msgHandleCount mayDiscard =
      ⟨self, [], .errBadHandle, none⟩ := by
  simp [read, h]

theorem read_of_empty (h : self.messages = [])
    (msgSize msgHandleCount : ℕ) (mayDiscard : Bool) :
    self.read hooks self.owner msgSize msgHandleCount mayDiscard =
      ⟨self, [],
        if self.peerHasClosed then .errPeerClosed else .errShouldWait,
        none⟩ := by
  simp [read, h]

theorem read_of_kept {msg : MessagePacket} {rest : List MessagePacket}
    (h : self.messages = msg :: rest) {msgSize msgHandleCount : ℕ}
    (hfits : ¬ Fits msg msgSize msgHandleCount) :
    self.read hooks self.owner msgSize msgHandleCount false =
      ⟨self, [], .errBufferTooSmall, none⟩ := by
  have hsmall : msg.dataSize > msgSize ∨ msg.numHandles > msgHandleCount := by
    simp only [Fits] at hfits
    omega
  simp [read, h, hsmall]

theorem read_of_taken {msg : MessagePacket} {rest : List MessagePacket}
    (h : self.messages = msg :: rest) {msgSize msgHandleCount : ℕ}
    {mayDiscard : Bool}
    (htake : Fits msg msgSize msgHandleCount ∨ mayDiscard = true) :
    self.read hooks self.owner msgSize msgHandleCount mayDiscard =
      ⟨self.shifted hooks rest, [],
        if Fits msg msgSize msgHandleCount then .ok else .errBufferTooSmall,
        some msg⟩ := by
  have hsmall :
      (msg.dataSize > msgSize ∨ msg.numHandles > msgHandleCount) ↔
        ¬ Fits msg msgSize msgHandleCount := by
    simp only [Fits]
    omega
  by_cases hfits : Fits msg msgSize msgHandleCount
  · simp [read, h, hsmall, hfits, shifted, clearSignals]
  · have hdiscard : mayDiscard = true := htake.resolve_left hfits
    simp [read, h, hsmall, hfits, hdiscard, shifted, clearSignals]

/-- The waiter a message is delivered to: the first one in list order that
waits for the message's id, when that id is kernel generated. -/
def matchingWaiter (msg : MessagePacket) : Option MessageWaiter :=
  if hooks.isKernelGeneratedTxid msg.txid then
    self.waiters.find? fun waiter => waiter.txid = msg.txid
  else none

theorem spliceWaiter_eq (txid : FxTxid) (all waiters : List MessageWaiter) :
    spliceWaiter txid all waiters =
      (waiters.find? fun waiter => waiter.txid = txid).map
        fun waiter => (waiter, all.erase waiter) := by
  induction waiters with
  | nil => rfl
  | cons waiter rest ih =>
      by_cases h : waiter.txid = txid
      · simp [spliceWaiter, h, List.eraseIdx_idxOf_eq_erase]
      · simp [spliceWaiter, h, ih]

theorem tryWriteToMessageWaiter_eq (msg : MessagePacket) :
    self.tryWriteToMessageWaiter hooks msg =
      match self.matchingWaiter hooks msg with
      | some waiter =>
          ⟨{ self with waiters := self.waiters.erase waiter },
            [.deliver waiter msg], true⟩
      | none => ⟨self, [], false⟩ := by
  unfold tryWriteToMessageWaiter matchingWaiter
  rw [spliceWaiter_eq]
  cases hwaiters : self.waiters with
  | nil => simp
  | cons waiter rest =>
      cases hooks.isKernelGeneratedTxid msg.txid with
      | false => simp
      | true =>
          cases (waiter :: rest).find? fun w => w.txid = msg.txid <;> simp

theorem mem_of_matchingWaiter {msg : MessagePacket} {waiter : MessageWaiter}
    (h : self.matchingWaiter hooks msg = some waiter) :
    waiter ∈ self.waiters := by
  unfold matchingWaiter at h
  split at h
  · exact List.mem_of_find?_eq_some h
  · cases h

/-- The endpoint after `writeSelf`, whether or not its logging threw. -/
theorem writeSelf_self (tlScopes : List ProcessContext)
    (msg : MessagePacket) :
    (self.writeSelf hooks tlScopes msg).self =
      { self with
        messages := self.messages ++ [msg]
        signals := (hooks.raiseSignals self.signals channelReadable).1
        maxMessageCount :=
          max self.maxMessageCount (self.messages.length + 1) } := by
  have hmax :
      (if self.messages.length + 1 > self.maxMessageCount then
        self.messages.length + 1 else self.maxMessageCount) =
      max self.maxMessageCount (self.messages.length + 1) := by
    split <;> omega
  unfold writeSelf
  simp only [List.length_append, List.length_singleton]
  rw [← hmax]
  split <;> split <;> (try split) <;> rfl

/-- The queue warnings only log. -/
theorem logPending_consoleLog {tlScopes : List ProcessContext} {size : ℕ}
    {logged : List Effect} (h : self.logPending tlScopes size = .ok logged) :
    ∀ effect ∈ logged, ∃ format koid pname,
      effect = .consoleLog format koid size pname := by
  unfold logPending at h
  cases hcurrent : ProcessDispatcher.getCurrent tlScopes with
  | error e =>
      simp only [hcurrent, bind, Except.bind, pure, Except.pure] at h
      (repeat' split at h) <;> cases h <;> simp
  | ok process =>
      simp only [hcurrent, bind, Except.bind, pure, Except.pure] at h
      (repeat' split at h) <;> cases h <;> simp

theorem logPending_of_short {tlScopes : List ProcessContext} {size : ℕ}
    (h : size < kWarnPendingMessageCount) :
    self.logPending tlScopes size = .ok [] := by
  simp [logPending, Nat.not_le.mpr h, pure, Except.pure]

theorem logPending_of_getCurrent {tlScopes : List ProcessContext}
    {process : ProcessDispatcher}
    (h : ProcessDispatcher.getCurrent tlScopes = .ok process) (size : ℕ) :
    ∃ logged, self.logPending tlScopes size = .ok logged := by
  simp only [logPending, h, bind, Except.bind, pure, Except.pure]
  (repeat' split) <;> exact ⟨_, rfl⟩

/-- `writeSelf` throws exactly when its logging does. -/
theorem writeSelf_result (tlScopes : List ProcessContext)
    (msg : MessagePacket) :
    (self.writeSelf hooks tlScopes msg).result =
      (self.logPending tlScopes (self.messages.length + 1)).map
        fun _ => () := by
  have hlog : ∀ counted : ChannelDispatcher, ∀ size,
      counted.logPending tlScopes size = self.logPending tlScopes size :=
    fun _ _ => rfl
  unfold writeSelf
  simp only [List.length_append, List.length_singleton, hlog]
  cases self.logPending tlScopes (self.messages.length + 1) with
  | error e => rfl
  | ok logged =>
      simp only [Except.map]
      split <;> rfl

/-- The calls made by `writeSelf`: the log line, then the notification, which
is skipped when the previous signals contain READABLE. -/
theorem writeSelf_effects (tlScopes : List ProcessContext)
    (msg : MessagePacket) :
    (self.writeSelf hooks tlScopes msg).effects =
      match self.logPending tlScopes (self.messages.length + 1) with
      | .error _ => []
      | .ok logged =>
          let previousSignals :=
            (hooks.raiseSignals self.signals channelReadable).2
          if previousSignals &&& channelReadable = 0 then
            logged ++ [.notifyObservers (previousSignals ||| channelReadable)]
          else logged := by
  have hlog : ∀ counted : ChannelDispatcher, ∀ size,
      counted.logPending tlScopes size = self.logPending tlScopes size :=
    fun _ _ => rfl
  unfold writeSelf
  simp only [List.length_append, List.length_singleton, hlog]
  cases self.logPending tlScopes (self.messages.length + 1) with
  | error e => rfl
  | ok logged =>
      simp only
      split <;> rfl

end ChannelDispatcher
end Fiber.Kernel
