import Fiber.KernelTypes
import Fiber.SdkTypes
import Fiber.Support.Outcome

/-!
# The system of the old SDK

`System` sends every operation to a kernel, either by looking the method up on
an object that implements `ISyscalls`, or through a dispatcher function that
gets the two parts of the method's name.  Both are stored, and a flag says which
one is in use.

A kernel's methods return normally; what they do to the state of the kernels is
arbitrary.  The calls that kernels receive are recorded.
-/

namespace Fiber.SdkOld

open SdkTypes

/-- A value passed to a syscall. -/
inductive Arg
  | handle (handle : Raw)
  | text (text : String)
  | data (data : List UInt8)
  | handles (handles : List Raw)
  | dispositions (dispositions : List HandleDisposition)
  deriving DecidableEq

/-! ## Kernels -/

/-- The methods of `ISyscalls`. -/
inductive Method
  | handleDuplicate
  | handleReplace
  | handleClose
  | channelCreate
  | channelWrite
  | channelWriteEtc
  | channelRead
  | channelReadEtc
  | realmCreate
  | processCreate
  | processStart
  deriving DecidableEq, Repr

def Method.name : Method → String
  | .handleDuplicate => "handle_duplicate"
  | .handleReplace => "handle_replace"
  | .handleClose => "handle_close"
  | .channelCreate => "channel_create"
  | .channelWrite => "channel_write"
  | .channelWriteEtc => "channel_write_etc"
  | .channelRead => "channel_read"
  | .channelReadEtc => "channel_read_etc"
  | .realmCreate => "realm_create"
  | .processCreate => "process_create"
  | .processStart => "process_start"

/-- An object that implements `ISyscalls`, as its properties that are
functions.  `ref` is the identity of the object, and `σ` the state of all
kernels. -/
structure ISyscalls (σ : Type) where
  ref : ℕ
  property : String → Option (List Arg → σ → Result × σ)
  implements : ∀ method : Method, (property method.name).isSome = true

/-- A method call that a kernel receives. -/
structure Call where
  receiver : ℕ
  name : String
  args : List Arg
  deriving DecidableEq

/-- The state of the kernels, and the calls so far, oldest first. -/
structure Kernels (σ : Type) where
  calls : List Call
  state : σ

/-- A promise that is resolved with a value. -/
structure Promise where
  resolved : Result
  deriving DecidableEq

/-- A function of type `IDispatchSyscall`. -/
abbrev Dispatcher (σ : Type) :=
  String → String → List Arg → EStateM JsError (Kernels σ) Promise

variable {σ : Type}

namespace ISyscalls

/-- `k[name](...args)`. -/
def call (k : ISyscalls σ) (name : String) (args : List Arg) :
    EStateM JsError (Kernels σ) Result :=
  match k.property name with
  | none => throw .typeError
  | some f => modifyGet fun kernels =>
      let answer := f args kernels.state
      (answer.1, ⟨kernels.calls ++ [⟨k.ref, name, args⟩], answer.2⟩)

/-- The dispatcher that performs the method `namespace_name` of a kernel. -/
def dispatcher (k : ISyscalls σ) : Dispatcher σ := fun ns name args => do
  let result ← k.call (ns ++ "_" ++ name) args
  pure ⟨result⟩

end ISyscalls

/-! ## The class -/

/-- The static fields of `System`; `none` is `undefined`. -/
structure System (σ : Type) where
  initialized : Bool := false
  syscall : Option (Dispatcher σ) := none
  syscallInterface : Option (ISyscalls σ) := none
  useDirectCalls : Option Bool := none

structure World (σ : Type) where
  system : System σ
  kernels : Kernels σ

/-- Code of the SDK. -/
abbrev SystemCode (σ : Type) := EStateM JsError (World σ)

/-- The exception `NotInitialized`. -/
def notInitialized : JsError := .error "System not initialized"

/-- Code of a kernel, run by the SDK. -/
def ofKernels {α : Type} (code : EStateM JsError (Kernels σ) α) :
    SystemCode σ α := fun w =>
  match code w.kernels with
  | .ok a kernels => .ok a { w with kernels := kernels }
  | .error e kernels => .error e { w with kernels := kernels }

namespace System

def init (syscall : Dispatcher σ) : SystemCode σ Unit :=
  modify fun w =>
    { w with system :=
      { w.system with
        syscall := some syscall
        initialized := true
        useDirectCalls := some false } }

def initDirect (syscalls : ISyscalls σ) : SystemCode σ Unit :=
  modify fun w =>
    { w with system :=
      { w.system with
        syscallInterface := some syscalls
        initialized := true
        useDirectCalls := some true } }

def doSyscall (ns name : String) (syscallArgs : List Arg) :
    SystemCode σ Promise := do
  let w ← get
  if w.system.initialized = false then throw notInitialized
  else
    match w.system.useDirectCalls, w.system.syscallInterface with
    | some true, some syscallInterface => do
        let result ←
          ofKernels (syscallInterface.call (ns ++ "_" ++ name) syscallArgs)
        pure ⟨result⟩
    | _, _ =>
        match w.system.syscall with
        | some syscall => ofKernels (syscall ns name syscallArgs)
        | none => throw .typeError

def handleDuplicate (handle : Raw) : SystemCode σ Promise :=
  doSyscall "handle" "duplicate" [.handle handle]

def handleReplace (handle replacement : Raw) : SystemCode σ Promise :=
  doSyscall "handle" "replace" [.handle handle, .handle replacement]

def handleClose (handle : Raw) : SystemCode σ Promise :=
  doSyscall "handle" "close" [.handle handle]

def realmCreate (parent : Raw) : SystemCode σ Promise :=
  doSyscall "realm" "create" [.handle parent]

def processCreate (parent : Raw) (name : String) (program : Raw) :
    SystemCode σ Promise :=
  doSyscall "process" "create" [.handle parent, .text name, .handle program]

def processStart (process bootstrap : Raw) : SystemCode σ Promise :=
  doSyscall "process" "start" [.handle process, .handle bootstrap]

def channelCreate (process : Raw) : SystemCode σ Promise :=
  doSyscall "channel" "create" [.handle process]

def channelWrite (channel : Raw) (data : List UInt8)
    (handles : List Raw) : SystemCode σ Promise :=
  doSyscall "channel" "write" [.handle channel, .data data, .handles handles]

def channelWriteEtc (channel : Raw) (data : List UInt8)
    (dispositions : List HandleDisposition) : SystemCode σ Promise :=
  doSyscall "channel" "write_etc"
    [.handle channel, .data data, .dispositions dispositions]

def channelRead (channel : Raw) : SystemCode σ Promise :=
  doSyscall "channel" "read" [.handle channel]

def channelReadEtc (channel : Raw) : SystemCode σ Promise :=
  doSyscall "channel" "read_etc" [.handle channel]

end System
end Fiber.SdkOld
