import Fiber.SdkOld.Handles
import Fiber.SdkOld.Equivalence

/-!
# Channel operations on invalid handles

Each operation of a channel begins with a check of `this.handle`.  The getter
builds a new object every time, and an object is never falsy, so the check
passes on every channel and the operation always reaches the backend.

A program is taken as the list of the calls it makes.  The channels are
arbitrary objects, wherever the program has them from.
-/

namespace Fiber.SdkOld

open SdkTypes Support

variable {σ : Type}

/-! ## Programs -/

/-- How a backend is installed: as a dispatcher function, or as an object that
implements `ISyscalls`. -/
inductive Installation (σ : Type)
  | init (behaves : String → String → List Arg → EStateM JsError σ Promise)
  | initDirect (syscalls : ISyscalls σ)

/-- A dispatcher function, which records the syscalls that it gets. -/
def recording
    (behaves : String → String → List Arg → EStateM JsError σ Promise) :
    Dispatcher σ := fun ns name args kernels =>
  let calls := kernels.calls ++ [⟨0, ns ++ "_" ++ name, args⟩]
  match behaves ns name args kernels.state with
  | .ok promise state => .ok promise ⟨calls, state⟩
  | .error e state => .error e ⟨calls, state⟩

def Installation.perform : Installation σ → SystemCode σ Unit
  | .init behaves => System.init (recording behaves)
  | .initDirect syscalls => System.initDirect syscalls

/-- The operations of a channel. -/
inductive ChannelOperation
  | write (data : List UInt8) (handles : Option (List Handle))
  | writeEtc (data : List UInt8)
      (handleDispositions : Option (List HandleDisposition))
  | read
  | readEtc
  deriving DecidableEq

namespace ChannelOperation

def perform (channel : Channel) : ChannelOperation → SystemCode σ Result
  | .write data handles => channel.write data handles
  | .writeEtc data handleDispositions =>
      channel.writeEtc data handleDispositions
  | .read => channel.read
  | .readEtc => channel.readEtc

/-- The syscall that an operation is for. -/
def method : ChannelOperation → Method
  | .write _ _ => .channelWrite
  | .writeEtc _ _ => .channelWriteEtc
  | .read => .channelRead
  | .readEtc => .channelReadEtc

/-- What the syscall is to be given after the channel. -/
def payload : ChannelOperation → List Arg
  | .write data handles =>
      [.data data, .handles ((handles.getD []).map Handle.raw)]
  | .writeEtc data handleDispositions =>
      [.data data, .dispositions (handleDispositions.getD [])]
  | .read | .readEtc => []

end ChannelOperation

/-- A call of the SDK. -/
inductive SdkCall (σ : Type)
  | install (installation : Installation σ)
  | close (handle : Handle)
  | duplicate (handle : Handle)
  | createRealm (parent : Realm)
  | createProcess (parent : Realm) (name : String) (program : Raw)
  | startProcess (process : Process) (bootstrap : Channel)
  | createPair (parent : Process)
  | operate (channel : Channel) (op : ChannelOperation)

/-- What a call of the SDK resolves to. -/
inductive Resolved
  | nothing
  | handle (handle : Handle)
  | realm (realm : Realm)
  | process (process : Process)
  | pair (pair : ChannelPair)
  | result (result : Result)
  deriving DecidableEq

def SdkCall.perform : SdkCall σ → SystemCode σ Resolved
  | .install installation => do
      installation.perform
      return .nothing
  | .close handle => do
      handle.close
      return .nothing
  | .duplicate handle => return .handle (← handle.duplicate)
  | .createRealm parent => return .realm (← Realm.create parent)
  | .createProcess parent name program =>
      return .process (← Process.create parent name program)
  | .startProcess process bootstrap => do
      process.start bootstrap
      return .nothing
  | .createPair parent => return .pair (← ChannelPair.create parent)
  | .operate channel op => return .result (← op.perform channel)

/-- The SDK as a machine that makes one call after the other. -/
def sdk (σ : Type) :
    Machine (World σ) (SdkCall σ) (Except JsError Resolved) where
  step w call :=
    match call.perform.run w with
    | .ok resolved w' => (w', .ok resolved)
    | .error e w' => (w', .error e)

/-! ## One call -/

/-- The operation of `System` that a call performs. -/
def SdkCall.operation : SdkCall σ → Option Operation
  | .install _ => none
  | .close handle => some (.handleClose handle.raw)
  | .duplicate handle => some (.handleDuplicate handle.raw)
  | .createRealm parent => some (.realmCreate parent.raw)
  | .createProcess parent name program =>
      some (.processCreate parent.raw name program)
  | .startProcess process bootstrap =>
      some (.processStart process.raw bootstrap.raw)
  | .createPair parent => some (.channelCreate parent.raw)
  | .operate channel (.write data handles) =>
      some (.channelWrite channel.raw data
        ((handles.getD []).map Handle.raw))
  | .operate channel (.writeEtc data handleDispositions) =>
      some (.channelWriteEtc channel.raw data (handleDispositions.getD []))
  | .operate channel .read => some (.channelRead channel.raw)
  | .operate channel .readEtc => some (.channelReadEtc channel.raw)

/-- A backend has been installed. -/
def Installed (s : System σ) : Prop :=
  (∃ syscalls, Routes s (some syscalls)) ∨
    s.initialized = true ∧ s.useDirectCalls = some false ∧
      ∃ behaves, s.syscall = some (recording behaves)

/-- Between two worlds there was this syscall, and the class has not changed. -/
def Dispatched (method : Method) (args : List Arg) (w w' : World σ) : Prop :=
  w'.system = w.system ∧ ∃ receiver,
    w'.kernels.calls = w.kernels.calls ++ [⟨receiver, method.name, args⟩]

section

variable {w : World σ} {ns name : String} {method : Method} {args : List Arg}
  {call : SdkCall σ} {o : Operation}

theorem installed_of_install (installation : Installation σ) (w : World σ) :
    Installed (endState installation.perform w).system := by
  cases installation with
  | init behaves => exact .inr ⟨rfl, rfl, behaves, rfl⟩
  | initDirect syscalls => exact .inl ⟨syscalls, rfl, .inl ⟨rfl, rfl⟩⟩

theorem doSyscall_of_recording
    {behaves : String → String → List Arg → EStateM JsError σ Promise}
    (hinitialized : w.system.initialized = true)
    (hmode : w.system.useDirectCalls = some false)
    (hsyscall : w.system.syscall = some (recording behaves)) :
    (System.doSyscall ns name args).run w =
      (ofKernels (recording behaves ns name args)).run w := by
  simp only [System.doSyscall, EStateM.run_bind, EStateM.run_get,
    hinitialized, Bool.true_eq_false, if_false, hmode, hsyscall]

theorem doSyscall_dispatched (hw : Installed w.system)
    (hname : ns ++ "_" ++ name = method.name) :
    Dispatched method args w (endState (System.doSyscall ns name args) w) := by
  rcases hw with ⟨syscalls, hroutes⟩ | ⟨hinitialized, hmode, behaves, hsyscall⟩
  · rw [endState_of_ok (doSyscall_of_some hroutes hname)]
    exact ⟨rfl, syscalls.ref, rfl⟩
  · rw [Dispatched, ← hname, endState,
      doSyscall_of_recording hinitialized hmode hsyscall]
    simp only [EStateM.run, ofKernels, recording]
    rcases behaves ns name args w.kernels.state with ⟨promise, state⟩ |
      ⟨e, state⟩
    · exact ⟨rfl, 0, rfl⟩
    · exact ⟨rfl, 0, rfl⟩

theorem perform_dispatched (hw : Installed w.system) (o : Operation) :
    Dispatched o.method o.args w (endState o.perform w) := by
  obtain ⟨ns, name, hname, hperform⟩ := Operation.perform_eq σ o
  rw [hperform]
  exact doSyscall_dispatched hw hname

/-- The check of `this.handle` always passes. -/
theorem guarded_eq (channel : Channel) (syscall : SystemCode σ Promise) :
    channel.guarded syscall =
      syscall >>= fun promise => pure promise.resolved := by
  simp only [Channel.guarded, Handle.truthy, not_true_eq_false, if_false]

theorem endState_guarded (channel : Channel) (syscall : SystemCode σ Promise) :
    endState (channel.guarded syscall) w = endState syscall w := by
  rw [guarded_eq]
  exact endState_bind_of_keeps fun _ _ => rfl

theorem endState_ite_pure {α : Type} {c : Prop} [Decidable c] (a b : α) :
    endState (if c then pure a else pure b : SystemCode σ α) w = w := by
  split <;> rfl

/-- A call does to the world what its operation does. -/
theorem endState_call (h : call.operation = some o) :
    endState call.perform w = endState o.perform w := by
  cases call with
  | install => nomatch h
  | close | duplicate | startProcess =>
      obtain rfl := Option.some.inj h
      exact (endState_bind_of_keeps fun _ _ => rfl).trans
        (endState_bind_of_keeps fun _ _ => rfl)
  | createRealm | createProcess | createPair =>
      obtain rfl := Option.some.inj h
      exact (endState_bind_of_keeps fun _ _ => rfl).trans
        (endState_bind_of_keeps fun _ _ => endState_ite_pure _ _)
  | operate channel op =>
      refine (endState_bind_of_keeps fun _ _ => rfl).trans ?_
      rcases op with ⟨data, _ | handles⟩ | ⟨data, dispositions⟩ | _ | _ <;>
      obtain rfl := Option.some.inj h <;>
      exact endState_guarded channel _

theorem sdk_step_fst (w : World σ) (call : SdkCall σ) :
    ((sdk σ).step w call).1 = endState call.perform w := by
  simp only [sdk, endState]
  cases call.perform.run w <;> rfl

/-- After the first installation there is always a backend. -/
theorem preserves_installed :
    (sdk σ).Preserves fun w => Installed w.system := by
  intro w call hw
  rw [sdk_step_fst]
  rcases hoperation : call.operation with _ | o
  · cases call with
    | install installation =>
        rw [SdkCall.perform, endState_bind_of_keeps fun _ _ => rfl]
        exact installed_of_install installation w
    | operate channel op => rcases op <;> nomatch hoperation
    | _ => nomatch hoperation
  · rw [endState_call hoperation, (perform_dispatched hw o).1]
    exact hw

/-- An operation of a channel makes its syscall, whatever the raw handle. -/
theorem operate_dispatched (hw : Installed w.system) (channel : Channel)
    (op : ChannelOperation) :
    Dispatched op.method (.handle channel.raw :: op.payload) w
      ((sdk σ).step w (.operate channel op)).1 := by
  rw [sdk_step_fst]
  rcases op with ⟨data, handles⟩ | ⟨data, handleDispositions⟩ | _ | _ <;>
  · rw [endState_call rfl]
    exact perform_dispatched hw _

end

/-! ## The check -/

/-- What an operation of a channel is to do: on an invalid handle it resolves
to an error without a syscall, and on another one it makes one syscall, with
the raw handle first. -/
structure ChecksHandle
    (e : Event (World σ) (SdkCall σ) (Except JsError Resolved))
    (channel : Channel) (op : ChannelOperation) : Prop where
  invalid : channel.raw = .number invalidHandle →
    e.reply = .ok (.result { status := .errInvalidArgs }) ∧
      e.after.kernels.calls = e.before.kernels.calls
  others : channel.raw ≠ .number invalidHandle → ∃ receiver,
    e.after.kernels.calls = e.before.kernels.calls ++
      [⟨receiver, op.method.name, .handle channel.raw :: op.payload⟩]

theorem checksHandle_iff {w : World σ} (hw : Installed w.system)
    (channel : Channel) (op : ChannelOperation) :
    ChecksHandle ((sdk σ).event w (.operate channel op)) channel op ↔
      channel.raw ≠ .number invalidHandle := by
  obtain ⟨-, receiver, hcalls⟩ := operate_dispatched hw channel op
  constructor
  · intro hchecks hinvalid
    have hsame := (hchecks.invalid hinvalid).2
    rw [Machine.event_after, Machine.event_before, hcalls] at hsame
    have hlength := congrArg List.length hsame
    rw [List.length_append, List.length_singleton] at hlength
    exact Nat.succ_ne_self _ hlength
  · intro hvalid
    exact ⟨fun hinvalid => absurd hinvalid hvalid, fun _ => ⟨receiver, hcalls⟩⟩

/-- In every program that begins with an installation, against every backend,
the operations of channels check their handles if and only if none of them is
called on a channel whose raw handle is the invalid one. -/
theorem operations_check_handles_iff (w : World σ) (first : Installation σ)
    (program : List (SdkCall σ)) :
    (∀ e ∈ (sdk σ).trace (endState first.perform w) program,
      ∀ channel op, e.action = .operate channel op →
        ChecksHandle e channel op) ↔
    ∀ channel op, SdkCall.operate channel op ∈ program →
      channel.raw ≠ .number invalidHandle := by
  have hfirst := installed_of_install first w
  constructor
  · intro hchecks channel op hmem
    rw [← (sdk σ).map_action_trace (endState first.perform w) program] at hmem
    obtain ⟨e, he, haction⟩ := List.mem_map.mp hmem
    obtain ⟨w', call, -, hw', rfl⟩ :=
      preserves_installed.event_of_mem hfirst he
    rw [Machine.event_action] at haction
    subst haction
    exact (checksHandle_iff hw' channel op).mp (hchecks _ he channel op rfl)
  · intro hvalid e he channel op haction
    obtain ⟨w', call, hmem, hw', rfl⟩ :=
      preserves_installed.event_of_mem hfirst he
    rw [Machine.event_action] at haction
    subst haction
    exact (checksHandle_iff hw' channel op).mpr (hvalid channel op hmem)

/-- What the old kernel answers when it is to create a pair of channels. -/
def invalidPair : Result where
  status := .ok
  first := some invalidHandle
  second := some invalidHandle

def invalidPairs : Installation Unit := .init fun _ _ _ => pure ⟨invalidPair⟩

/-- Reading from such a channel reaches the backend. -/
theorem not_checksHandle_invalidPairs :
    let w := endState invalidPairs.perform (start ())
    let program : List (SdkCall Unit) :=
      [.createPair ⟨⟨1⟩⟩, .operate ⟨⟨0⟩⟩ .read]
    ((sdk Unit).trace w program).map Event.reply =
        [.ok (.pair ⟨some ⟨⟨0⟩⟩, some ⟨⟨0⟩⟩⟩),
          .ok (.result invalidPair)] ∧
      ((sdk Unit).exec w program).kernels.calls =
        [⟨0, "channel_create", [.handle 1]⟩,
          ⟨0, "channel_read", [.handle 0]⟩] ∧
      ¬ ∀ e ∈ (sdk Unit).trace w program, ∀ channel op,
        e.action = .operate channel op → ChecksHandle e channel op := by
  intro w program
  refine ⟨rfl, rfl, fun hchecks => ?_⟩
  have hread := hchecks _ (List.mem_cons_of_mem _ (List.mem_singleton_self _))
    ⟨⟨0⟩⟩ .read rfl
  exact nomatch (hread.invalid rfl).1

end Fiber.SdkOld
