import Fiber.SdkOld.System
import Fiber.Support.Simulation

/-!
# Direct and dispatched syscalls

The class stores an interface and a dispatcher side by side, and the flag tells
which of them belongs to the last initialisation.  So the class behaves as a
machine that knows only the kernel installed last, and the mode in which it was
installed makes no difference.
-/

namespace Fiber.SdkOld

open SdkTypes Support

/-! ## Operations -/

/-- The operations of `System`, with their arguments. -/
inductive Operation
  | handleDuplicate (handle : Raw)
  | handleReplace (handle replacement : Raw)
  | handleClose (handle : Raw)
  | realmCreate (parent : Raw)
  | processCreate (parent : Raw) (name : String) (program : Raw)
  | processStart (process bootstrap : Raw)
  | channelCreate (process : Raw)
  | channelWrite (channel : Raw) (data : List UInt8)
      (handles : List Raw)
  | channelWriteEtc (channel : Raw) (data : List UInt8)
      (dispositions : List HandleDisposition)
  | channelRead (channel : Raw)
  | channelReadEtc (channel : Raw)
  deriving DecidableEq

namespace Operation

def perform {σ : Type} : Operation → SystemCode σ Promise
  | .handleDuplicate handle => System.handleDuplicate handle
  | .handleReplace handle replacement =>
      System.handleReplace handle replacement
  | .handleClose handle => System.handleClose handle
  | .realmCreate parent => System.realmCreate parent
  | .processCreate parent name program =>
      System.processCreate parent name program
  | .processStart process bootstrap => System.processStart process bootstrap
  | .channelCreate process => System.channelCreate process
  | .channelWrite channel data handles =>
      System.channelWrite channel data handles
  | .channelWriteEtc channel data dispositions =>
      System.channelWriteEtc channel data dispositions
  | .channelRead channel => System.channelRead channel
  | .channelReadEtc channel => System.channelReadEtc channel

/-- The method that an operation stands for. -/
def method : Operation → Method
  | .handleDuplicate _ => .handleDuplicate
  | .handleReplace _ _ => .handleReplace
  | .handleClose _ => .handleClose
  | .realmCreate _ => .realmCreate
  | .processCreate _ _ _ => .processCreate
  | .processStart _ _ => .processStart
  | .channelCreate _ => .channelCreate
  | .channelWrite _ _ _ => .channelWrite
  | .channelWriteEtc _ _ _ => .channelWriteEtc
  | .channelRead _ => .channelRead
  | .channelReadEtc _ => .channelReadEtc

/-- The arguments of an operation, in order. -/
def args : Operation → List Arg
  | .handleDuplicate handle => [.handle handle]
  | .handleReplace handle replacement => [.handle handle, .handle replacement]
  | .handleClose handle => [.handle handle]
  | .realmCreate parent => [.handle parent]
  | .processCreate parent name program =>
      [.handle parent, .text name, .handle program]
  | .processStart process bootstrap => [.handle process, .handle bootstrap]
  | .channelCreate process => [.handle process]
  | .channelWrite channel data handles =>
      [.handle channel, .data data, .handles handles]
  | .channelWriteEtc channel data dispositions =>
      [.handle channel, .data data, .dispositions dispositions]
  | .channelRead channel => [.handle channel]
  | .channelReadEtc channel => [.handle channel]

/-- The two parts that an operation passes make up its method's name. -/
theorem perform_eq (σ : Type) (o : Operation) :
    ∃ ns name, ns ++ "_" ++ name = o.method.name ∧
      o.perform (σ := σ) = System.doSyscall ns name o.args := by
  cases o with
  | handleDuplicate => exact ⟨"handle", "duplicate", rfl, rfl⟩
  | handleReplace => exact ⟨"handle", "replace", rfl, rfl⟩
  | handleClose => exact ⟨"handle", "close", rfl, rfl⟩
  | realmCreate => exact ⟨"realm", "create", rfl, rfl⟩
  | processCreate => exact ⟨"process", "create", rfl, rfl⟩
  | processStart => exact ⟨"process", "start", rfl, rfl⟩
  | channelCreate => exact ⟨"channel", "create", rfl, rfl⟩
  | channelWrite => exact ⟨"channel", "write", rfl, rfl⟩
  | channelWriteEtc => exact ⟨"channel", "write_etc", rfl, rfl⟩
  | channelRead => exact ⟨"channel", "read", rfl, rfl⟩
  | channelReadEtc => exact ⟨"channel", "read_etc", rfl, rfl⟩

end Operation

variable {σ : Type}

namespace ISyscalls

/-- The function that implements a method. -/
def function (k : ISyscalls σ) (method : Method) :
    List Arg → σ → Result × σ :=
  (k.property method.name).get (k.implements method)

/-- The kernels after a call of a method, and its result. -/
def answer (k : ISyscalls σ) (method : Method) (args : List Arg)
    (kernels : Kernels σ) : Kernels σ × Result :=
  let answer := k.function method args kernels.state
  (⟨kernels.calls ++ [⟨k.ref, method.name, args⟩], answer.2⟩, answer.1)

theorem run_call (k : ISyscalls σ) (method : Method) (args : List Arg)
    (kernels : Kernels σ) :
    (k.call method.name args).run kernels =
      .ok (k.answer method args kernels).2
        (k.answer method args kernels).1 := by
  have hfunction : k.property method.name = some (k.function method) :=
    (Option.some_get (k.implements method)).symm
  simp only [call, hfunction]
  rfl

/-- The dispatcher does what the direct call does. -/
theorem run_dispatcher (k : ISyscalls σ) {ns name : String} {method : Method}
    (hname : ns ++ "_" ++ name = method.name) (args : List Arg)
    (kernels : Kernels σ) :
    (k.dispatcher ns name args).run kernels =
      .ok ⟨(k.answer method args kernels).2⟩
        (k.answer method args kernels).1 := by
  rw [dispatcher, EStateM.run_bind, hname, run_call]
  rfl

end ISyscalls

/-! ## Two machines -/

/-- What a program does with the class. -/
inductive Action (σ : Type)
  | init (k : ISyscalls σ)
  | initDirect (k : ISyscalls σ)
  | perform (o : Operation)

/-- An action without its mode. -/
inductive Request (σ : Type)
  | install (k : ISyscalls σ)
  | perform (o : Operation)

def Action.request : Action σ → Request σ
  | .init k => .install k
  | .initDirect k => .install k
  | .perform o => .perform o

/-- What an action gives: nothing, or what an operation returns or throws. -/
abbrev Reply := Option (Except JsError Promise)

/-- The class, on the dispatcher of a kernel or on the kernel itself. -/
def system (σ : Type) : Machine (World σ) (Action σ) Reply where
  step w
    | .init k => (endState (System.init k.dispatcher) w, none)
    | .initDirect k => (endState (System.initDirect k) w, none)
    | .perform o =>
        match o.perform.run w with
        | .ok promise w' => (w', some (.ok promise))
        | .error e w' => (w', some (.error e))

/-- The kernel in use, and the kernels. -/
structure Backend (σ : Type) where
  current : Option (ISyscalls σ)
  kernels : Kernels σ

/-- Every operation is answered by the kernel installed last. -/
def backend (σ : Type) : Machine (Backend σ) (Request σ) Reply where
  step b
    | .install k => ({ b with current := some k }, none)
    | .perform o =>
        match b.current with
        | none => (b, some (.error notInitialized))
        | some k =>
            let answer := k.answer o.method o.args b.kernels
            ({ b with kernels := answer.1 }, some (.ok ⟨answer.2⟩))

/-- The fields of the class lead to this kernel. -/
def Routes (s : System σ) : Option (ISyscalls σ) → Prop
  | none => s.initialized = false
  | some k => s.initialized = true ∧
      (s.useDirectCalls = some true ∧ s.syscallInterface = some k ∨
        s.useDirectCalls = some false ∧ s.syscall = some k.dispatcher)

/-- The class and the machine with the current kernel agree. -/
structure Agrees (w : World σ) (b : Backend σ) : Prop where
  routes : Routes w.system b.current
  kernels : w.kernels = b.kernels

section

variable {w : World σ} {b : Backend σ} {k : ISyscalls σ} {ns name : String}
  {method : Method} {args : List Arg}

theorem run_ofKernels {α : Type} {code : EStateM JsError (Kernels σ) α}
    {a : α} {kernels : Kernels σ} (h : code.run w.kernels = .ok a kernels) :
    (ofKernels code).run w = .ok a { w with kernels := kernels } := by
  rw [EStateM.run] at h ⊢
  rw [ofKernels, h]

theorem doSyscall_of_none (hroutes : Routes w.system none) :
    (System.doSyscall ns name args).run w = .error notInitialized w := by
  have hinit : w.system.initialized = false := hroutes
  simp only [System.doSyscall, EStateM.run_bind, EStateM.run_get, hinit]
  rfl

theorem doSyscall_of_some (hroutes : Routes w.system (some k))
    (hname : ns ++ "_" ++ name = method.name) :
    (System.doSyscall ns name args).run w =
      .ok ⟨(k.answer method args w.kernels).2⟩
        { w with kernels := (k.answer method args w.kernels).1 } := by
  obtain ⟨hinit, ⟨hmode, hinterface⟩ | ⟨hmode, hsyscall⟩⟩ := hroutes
  · have hcall := run_ofKernels (w := w) (k.run_call method args w.kernels)
    simp only [System.doSyscall, EStateM.run_bind, EStateM.run_get, hinit,
      Bool.true_eq_false, if_false, hmode, hinterface, hname, hcall]
    rfl
  · have hcall := run_ofKernels (w := w)
      (k.run_dispatcher hname args w.kernels)
    simp only [System.doSyscall, EStateM.run_bind, EStateM.run_get, hinit,
      Bool.true_eq_false, if_false, hmode, hsyscall, hcall]

theorem perform_of_none (hroutes : Routes w.system none) (o : Operation) :
    (system σ).step w (.perform o) = (w, some (.error notInitialized)) := by
  obtain ⟨ns, name, -, hperform⟩ := Operation.perform_eq σ o
  simp only [system, hperform, doSyscall_of_none hroutes]

theorem perform_of_some (hroutes : Routes w.system (some k)) (o : Operation) :
    (system σ).step w (.perform o) =
      ({ w with kernels := (k.answer o.method o.args w.kernels).1 },
        some (.ok ⟨(k.answer o.method o.args w.kernels).2⟩)) := by
  obtain ⟨ns, name, hname, hperform⟩ := Operation.perform_eq σ o
  simp only [system, hperform, doSyscall_of_some hroutes hname]

end

/-! ## Simulation -/

/-- An action keeps the agreement and is answered as its request is. -/
theorem Agrees.step {w : World σ} {b : Backend σ} (h : Agrees w b)
    (a : Action σ) :
    Agrees ((system σ).step w a).1 ((backend σ).step b a.request).1 ∧
      ((system σ).step w a).2 = ((backend σ).step b a.request).2 := by
  obtain ⟨current, kernels⟩ := b
  obtain ⟨hroutes, hkernels⟩ := h
  obtain rfl : w.kernels = kernels := hkernels
  cases a with
  | init k => exact ⟨⟨⟨rfl, .inr ⟨rfl, rfl⟩⟩, rfl⟩, rfl⟩
  | initDirect k => exact ⟨⟨⟨rfl, .inl ⟨rfl, rfl⟩⟩, rfl⟩, rfl⟩
  | perform o =>
      cases current with
      | none =>
          rw [perform_of_none hroutes]
          exact ⟨⟨hroutes, rfl⟩, rfl⟩
      | some k =>
          rw [perform_of_some hroutes]
          exact ⟨⟨hroutes, rfl⟩, rfl⟩

theorem simulates (σ : Type) :
    Simulates (system σ) (backend σ) Action.request Agrees where
  state := fun a h => (h.step a).1
  reply := fun a h => (h.step a).2

def Action.installation : Action σ → Option (ISyscalls σ)
  | .init k => some k
  | .initDirect k => some k
  | .perform _ => none

/-- The kernel installed last. -/
def lastInstalled (history : List (Action σ)) : Option (ISyscalls σ) :=
  (history.filterMap Action.installation).getLast?

theorem lastInstalled_cons_some {a : Action σ} {k : ISyscalls σ}
    (h : a.installation = some k) (history : List (Action σ)) :
    lastInstalled (a :: history) = (lastInstalled history).or (some k) := by
  rw [lastInstalled, List.filterMap_cons_some h, List.getLast?_cons,
    lastInstalled]
  cases (history.filterMap Action.installation).getLast? <;> rfl

theorem backend_perform_current (b : Backend σ) (o : Operation) :
    ((backend σ).step b (.perform o)).1.current = b.current := by
  obtain ⟨current, kernels⟩ := b
  cases current <;> rfl

theorem current_exec (b : Backend σ) (history : List (Action σ)) :
    ((backend σ).exec b (history.map Action.request)).current =
      (lastInstalled history).or b.current := by
  induction history generalizing b with
  | nil => rfl
  | cons a history ih =>
      rw [List.map_cons, Machine.exec_cons, ih]
      cases a with
      | init k | initDirect k =>
          rw [lastInstalled_cons_some rfl, Option.or_assoc]
          rfl
      | perform o =>
          rw [Action.request, backend_perform_current]
          rfl

/-- The class before any initialisation. -/
def start (state : σ) : World σ := ⟨{}, ⟨[], state⟩⟩

theorem agrees_start (state : σ) :
    Agrees (start state) ⟨none, ⟨[], state⟩⟩ := ⟨rfl, rfl⟩

/-- The run so far agrees with a machine whose kernel is the one installed
last. -/
theorem routes_exec (state : σ) (history : List (Action σ)) :
    Routes ((system σ).exec (start state) history).system
      (lastInstalled history) := by
  have hroutes := ((simulates σ).exec (agrees_start state) history).routes
  rw [current_exec, Option.or_none] at hroutes
  exact hroutes

/-! ## Equivalence -/

/-- Both histories get the same replies, and the kernels see the same calls and
end in the same state. -/
structure SameEffects (state : σ) (history history' : List (Action σ)) :
    Prop where
  replies : ((system σ).trace (start state) history).map Event.reply =
    ((system σ).trace (start state) history').map Event.reply
  kernels : ((system σ).exec (start state) history).kernels =
    ((system σ).exec (start state) history').kernels

/-- After `history` the operation makes one call, on the kernel installed last,
and gives what that call returns; without an installation it throws and calls
nothing. -/
def OneCall (state : σ) (history : List (Action σ)) (o : Operation) : Prop :=
  let w := (system σ).exec (start state) history
  let answered := (system σ).step w (.perform o)
  match lastInstalled history with
  | none => answered = (w, some (.error notInitialized))
  | some k =>
      let returned := k.function o.method o.args w.kernels.state
      answered.2 = some (.ok ⟨returned.1⟩) ∧
        answered.1.kernels.calls =
          w.kernels.calls ++ [⟨k.ref, o.method.name, o.args⟩] ∧
        answered.1.kernels.state = returned.2

theorem oneCall (state : σ) (history : List (Action σ)) (o : Operation) :
    OneCall state history o := by
  have hroutes := routes_exec state history
  simp only [OneCall]
  rcases hlast : lastInstalled history with _ | k
  · rw [hlast] at hroutes
    exact perform_of_none hroutes o
  · rw [hlast] at hroutes
    rw [perform_of_some hroutes]
    exact ⟨rfl, rfl, rfl⟩

/-- Histories that differ only in the mode of their initialisations have the
same effects, and each operation makes one call on the current kernel. -/
theorem direct_and_dispatched_agree (state : σ)
    (history history' : List (Action σ))
    (hsame : history.map Action.request = history'.map Action.request) :
    SameEffects state history history' ∧
      ∀ front o rest, history = front ++ .perform o :: rest →
        OneCall state front o := by
  have hstart := agrees_start state
  constructor
  · constructor
    · rw [(simulates σ).replies hstart history, hsame,
        (simulates σ).replies hstart history']
    · rw [((simulates σ).exec hstart history).kernels, hsame,
        ((simulates σ).exec hstart history').kernels]
  · intro front o rest _
    exact oneCall state front o

/-- Two kernels, each installed in either mode, with every mode the other way
round in the second history. -/
theorem direct_and_dispatched_agree_switching :
    let k : ISyscalls ℕ :=
      ⟨1, fun _ => some fun _ n => ({ status := .ok }, n + 1), fun _ => rfl⟩
    let k' : ISyscalls ℕ :=
      ⟨2, fun _ => some fun _ n => ({ status := .errInternal }, 2 * n),
        fun _ => rfl⟩
    let history : List (Action ℕ) :=
      [.perform (.handleClose 1), .initDirect k, .perform (.realmCreate 1),
        .init k', .perform (.channelRead 2), .init k,
        .perform (.processStart 3 4), .initDirect k',
        .perform (.handleDuplicate 1)]
    let history' : List (Action ℕ) :=
      [.perform (.handleClose 1), .init k, .perform (.realmCreate 1),
        .initDirect k', .perform (.channelRead 2), .initDirect k,
        .perform (.processStart 3 4), .init k',
        .perform (.handleDuplicate 1)]
    history.map Action.request = history'.map Action.request ∧
      SameEffects 0 history history' ∧
      OneCall 0 [] (.handleClose 1) ∧
      OneCall 0 (history.take 4) (.channelRead 2) ∧
      OneCall 0 (history.take 8) (.handleDuplicate 1) := by
  intro k k' history history'
  obtain ⟨heffects, hcalls⟩ :=
    direct_and_dispatched_agree 0 history history' rfl
  exact ⟨rfl, heffects, hcalls _ _ _ rfl, hcalls _ _ _ rfl,
    hcalls _ _ _ rfl⟩

end Fiber.SdkOld
