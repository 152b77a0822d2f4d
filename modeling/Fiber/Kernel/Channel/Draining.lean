import Fiber.Kernel.Channel.Dispatcher
import Fiber.Support.Machine

/-!
# Draining a queue

One call of `read` either leaves the endpoint alone or takes the head of the
queue.  Hence reads that may discard empty the queue in order, whatever their
limits are, and clear CHANNEL_READABLE with the last message.
-/

namespace Fiber.Kernel.Channel

open Fiber.Support

/-- The arguments of `read`. -/
structure ReadCall where
  owner : FxKoid
  msgSize : ℕ
  msgHandleCount : ℕ
  mayDiscard : Bool
  deriving DecidableEq

/-- The calls of `read` on one endpoint. -/
def reader (hooks : Placeholders) :
    Machine ChannelDispatcher ReadCall (Status × Option MessagePacket) where
  step := fun self call =>
    let got := self.read hooks call.owner call.msgSize call.msgHandleCount
      call.mayDiscard
    (got.self, got.result)

/-- The message fits the limits of the call. -/
def ReadCall.Admits (call : ReadCall) (msg : MessagePacket) : Prop :=
  ChannelDispatcher.Fits msg call.msgSize call.msgHandleCount

instance (call : ReadCall) (msg : MessagePacket) :
    Decidable (call.Admits msg) :=
  inferInstanceAs (Decidable (ChannelDispatcher.Fits _ _ _))

/-- What one call of `read` is specified to do. -/
structure ExactRead (hooks : Placeholders)
    (e : Event ChannelDispatcher ReadCall (Status × Option MessagePacket)) :
    Prop where
  null : e.reply.2 = none → e.after = e.before
  message : ∀ msg, e.reply.2 = some msg → ∃ rest,
    e.before.messages = msg :: rest ∧
      e.after = { e.before with
        messages := rest
        signals :=
          if rest = [] then
            hooks.clearSignals e.before.signals channelReadable
          else e.before.signals }
  ok_iff : e.reply.1 = .ok ↔ e.action.owner = e.before.owner ∧
    ∃ msg ∈ e.before.messages.head?, e.action.Admits msg
  tooSmall_iff : e.reply.1 = .errBufferTooSmall ↔
    e.action.owner = e.before.owner ∧
      ∃ msg ∈ e.before.messages.head?, ¬ e.action.Admits msg
  discard : e.reply.1 = .errBufferTooSmall →
    (e.after.messages = e.before.messages.tail ↔
      e.action.mayDiscard = true)

variable (hooks : Placeholders) (self : ChannelDispatcher)

/-! ## One call -/

/-- The ways a read ends. -/
inductive ReadCase (call : ReadCall) :
    ChannelDispatcher → Status × Option MessagePacket → Prop
  | badHandle (howner : call.owner ≠ self.owner) :
      ReadCase call self (.errBadHandle, none)
  | empty (howner : call.owner = self.owner) (hempty : self.messages = []) :
      ReadCase call self
        (if self.peerHasClosed then .errPeerClosed else .errShouldWait, none)
  | kept (howner : call.owner = self.owner) (msg : MessagePacket)
      (rest : List MessagePacket) (hqueue : self.messages = msg :: rest)
      (hadmits : ¬ call.Admits msg) (hdiscard : call.mayDiscard = false) :
      ReadCase call self (.errBufferTooSmall, none)
  | taken (howner : call.owner = self.owner) (msg : MessagePacket)
      (rest : List MessagePacket) (hqueue : self.messages = msg :: rest)
      (htake : call.Admits msg ∨ call.mayDiscard = true) :
      ReadCase call (self.shifted hooks rest)
        (if call.Admits msg then .ok else .errBufferTooSmall, some msg)

theorem readCase (call : ReadCall) :
    ReadCase hooks self call ((reader hooks).step self call).1
      ((reader hooks).step self call).2 := by
  obtain ⟨owner, msgSize, msgHandleCount, mayDiscard⟩ := call
  simp only [reader]
  by_cases howner : owner = self.owner
  · subst howner
    rcases hqueue : self.messages with _ | ⟨msg, rest⟩
    · rw [self.read_of_empty hooks hqueue]
      exact .empty rfl hqueue
    · by_cases htake : ChannelDispatcher.Fits msg msgSize msgHandleCount ∨
          mayDiscard = true
      · rw [self.read_of_taken hooks hqueue htake]
        exact .taken rfl msg rest hqueue htake
      · obtain ⟨hfits, hdiscard⟩ := not_or.mp htake
        obtain rfl : mayDiscard = false := by simpa using hdiscard
        rw [self.read_of_kept hooks hqueue hfits]
        exact .kept rfl msg rest hqueue hfits rfl
  · rw [self.read_of_owner_ne hooks howner]
    exact .badHandle howner

theorem exactRead (call : ReadCall) :
    ExactRead hooks ((reader hooks).event self call) := by
  have hcase := readCase hooks self call
  simp only [Machine.event] at hcase ⊢
  generalize ((reader hooks).step self call).1 = left at hcase ⊢
  generalize ((reader hooks).step self call).2 = reply at hcase ⊢
  rcases hcase with howner | ⟨howner, hempty⟩ |
    ⟨howner, msg, rest, hqueue, hadmits, hdiscard⟩ |
    ⟨howner, msg, rest, hqueue, htake⟩
  · constructor <;> simp [howner]
  · constructor <;> simp [hempty] <;> split <;> simp
  · constructor <;> simp [howner, hqueue, hadmits, hdiscard]
  · constructor
    · simp
    · intro msg' hmsg
      obtain rfl := Option.some.inj hmsg
      refine ⟨rest, hqueue, ?_⟩
      simp only
      rw [ChannelDispatcher.shifted_eq, ChannelDispatcher.shifted_signals]
    · simp only [howner, hqueue]
      by_cases hadmits : call.Admits msg <;> simp [hadmits]
    · simp only [howner, hqueue]
      by_cases hadmits : call.Admits msg <;> simp [hadmits]
    · simp only [hqueue, ChannelDispatcher.shifted_messages]
      intro hstatus
      split at hstatus
      next => simp at hstatus
      next hadmits => simp [htake.resolve_left hadmits]

/-! ## Runs of calls -/

/-- The endpoint after `n` messages were taken: the last one clears
CHANNEL_READABLE. -/
def drained (n : ℕ) : ChannelDispatcher :=
  { self with
    messages := self.messages.drop n
    signals :=
      if n = self.messages.length ∧ 0 < n then
        hooks.clearSignals self.signals channelReadable
      else self.signals }

/-- A read by the owner that takes every message it finds. -/
def ReadCall.Drains (call : ReadCall) (owner : FxKoid) : Prop :=
  call.owner = owner ∧ call.mayDiscard = true

theorem step_drains {call : ReadCall} (hcall : call.Drains self.owner)
    {msg : MessagePacket} {rest : List MessagePacket}
    (hqueue : self.messages = msg :: rest) :
    (reader hooks).step self call =
      (self.shifted hooks rest,
        if call.Admits msg then .ok else .errBufferTooSmall, some msg) := by
  obtain ⟨howner, hdiscard⟩ := hcall
  simp only [reader, howner]
  rw [self.read_of_taken hooks hqueue (Or.inr hdiscard)]
  rfl

theorem shifted_owner (rest : List MessagePacket) :
    (self.shifted hooks rest).owner = self.owner := by
  rw [ChannelDispatcher.shifted_eq]

/-- Taking the head and then `n` messages is taking `n + 1` messages. -/
theorem drained_shifted {msg : MessagePacket} {rest : List MessagePacket}
    (hqueue : self.messages = msg :: rest) {n : ℕ} (hn : n ≤ rest.length) :
    drained hooks (self.shifted hooks rest) n = drained hooks self (n + 1) := by
  rw [drained, drained, ChannelDispatcher.shifted_signals,
    ChannelDispatcher.shifted_messages, ChannelDispatcher.shifted_eq, hqueue]
  rcases rest with _ | ⟨next, rest⟩
  · obtain rfl : n = 0 := Nat.le_zero.mp hn
    simp
  · have hlast : (n = rest.length + 1 ∧ 0 < n) ↔ n = rest.length + 1 := by
      omega
    simp [if_congr hlast rfl rfl]

/-- Draining reads return the messages in order and take them. -/
theorem trace_drains {calls : List ReadCall}
    (hcalls : ∀ call ∈ calls, call.Drains self.owner)
    (hlen : calls.length ≤ self.messages.length) :
    ((reader hooks).trace self calls).map (fun e => e.reply.2) =
        (self.messages.take calls.length).map some ∧
      (reader hooks).exec self calls =
        drained hooks self calls.length := by
  induction calls generalizing self with
  | nil => simp [drained]
  | cons call calls ih =>
      rcases hqueue : self.messages with _ | ⟨msg, rest⟩
      · simp [hqueue] at hlen
      · have hrest : calls.length ≤ rest.length := by
          simpa [hqueue] using hlen
        have hstep := step_drains hooks self (hcalls call (by simp)) hqueue
        obtain ⟨hreplies, hexec⟩ := ih (self.shifted hooks rest)
          (fun c hc => by
            rw [shifted_owner]
            exact hcalls c (List.mem_cons_of_mem _ hc))
          (by rwa [ChannelDispatcher.shifted_messages])
        rw [ChannelDispatcher.shifted_messages] at hreplies
        constructor
        · rw [Machine.trace_cons, List.map_cons, Machine.event_reply, hstep,
            hreplies]
          rfl
        · rw [Machine.exec_cons, hstep, hexec, List.length_cons,
            drained_shifted hooks self hqueue hrest]

/-- Reads that admit no message and may not discard change nothing. -/
theorem trace_tooSmall {calls : List ReadCall}
    (hcalls : ∀ call ∈ calls, call.mayDiscard = false ∧
      ∀ msg ∈ self.messages.head?, ¬ call.Admits msg) :
    (reader hooks).exec self calls = self ∧
      ∀ e ∈ (reader hooks).trace self calls, e.before = self ∧
        e.reply.2 = none := by
  induction calls with
  | nil => simp
  | cons call calls ih =>
      obtain ⟨hdiscard, hadmits⟩ := hcalls call (by simp)
      have hcase := readCase hooks self call
      have hstep : ((reader hooks).step self call).1 = self ∧
          ((reader hooks).step self call).2.2 = none := by
        generalize ((reader hooks).step self call).1 = left at hcase ⊢
        generalize ((reader hooks).step self call).2 = reply at hcase ⊢
        rcases hcase with _ | _ | _ | ⟨-, msg, rest, hqueue, htake⟩
        · exact ⟨rfl, rfl⟩
        · exact ⟨rfl, rfl⟩
        · exact ⟨rfl, rfl⟩
        · have hno := hadmits msg (by rw [hqueue]; rfl)
          simp [hno, hdiscard] at htake
      obtain ⟨hexec, htrace⟩ := ih fun c hc =>
        hcalls c (List.mem_cons_of_mem _ hc)
      rw [Machine.exec_cons, Machine.trace_cons, hstep.1]
      refine ⟨hexec, fun e he => ?_⟩
      rcases List.mem_cons.mp he with rfl | he
      · exact ⟨rfl, hstep.2⟩
      · exact htrace e he

/-- Every read is exact; draining reads return the whole queue in order, clear
CHANNEL_READABLE with the last message only, and are followed by the answer for
an empty queue; and reads with limits that are too small for the head change
nothing. -/
theorem read_exact_and_drains (hooks : Placeholders)
    (self : ChannelDispatcher) :
    (∀ call, ExactRead hooks ((reader hooks).event self call)) ∧
    (∀ calls : List ReadCall,
      (∀ call ∈ calls, call.Drains self.owner) →
      calls.length = self.messages.length →
        ((reader hooks).trace self calls).map (fun e => e.reply.2) =
            self.messages.map some ∧
        (∀ front, front <+: calls → front.length < self.messages.length →
          (reader hooks).exec self front =
            { self with messages := self.messages.drop front.length }) ∧
        (reader hooks).exec self calls =
          { self with
            messages := []
            signals :=
              if self.messages = [] then self.signals
              else hooks.clearSignals self.signals channelReadable } ∧
        ∀ next : ReadCall, next.owner = self.owner →
          ((reader hooks).step ((reader hooks).exec self calls) next).2 =
            (if self.peerHasClosed then .errPeerClosed else .errShouldWait,
              none)) ∧
    (∀ calls : List ReadCall,
      (∀ call ∈ calls, call.mayDiscard = false ∧
        ∀ msg ∈ self.messages.head?, ¬ call.Admits msg) →
        (reader hooks).exec self calls = self ∧
        ∀ e ∈ (reader hooks).trace self calls, e.before = self ∧
          e.reply.2 = none) := by
  refine ⟨exactRead hooks self, ?_, fun _ => trace_tooSmall hooks self⟩
  intro calls hcalls hlen
  obtain ⟨hreplies, hexec⟩ := trace_drains hooks self hcalls
    (Nat.le_of_eq hlen)
  have hend : (reader hooks).exec self calls =
      { self with
        messages := []
        signals :=
          if self.messages = [] then self.signals
          else hooks.clearSignals self.signals channelReadable } := by
    rw [hexec, drained, hlen, List.drop_length]
    rcases self.messages with _ | ⟨msg, rest⟩ <;> simp
  refine ⟨?_, ?_, hend, ?_⟩
  · rw [hreplies, hlen, List.take_length]
  · intro front hfront hlt
    have hdrained := (trace_drains hooks self
      (fun call hcall => hcalls call (hfront.subset hcall))
      (Nat.le_of_lt hlt)).2
    rw [hdrained, drained, if_neg fun h => Nat.ne_of_lt hlt h.1]
  · intro next hnext
    rw [hend]
    simp only [reader, hnext]
    exact congrArg Outcome.result
      (ChannelDispatcher.read_of_empty hooks _ (by rfl) _ _ _)

end Fiber.Kernel.Channel
