import Fiber.Sys.Dispatch

/-!
# Typed handles

The wrappers of the SDK pass fresh references to the entry points and read them
when the call has returned.  What a kernel answers is a status, together with
what it did to each reference it was given.
-/

namespace Fiber.Sdk

open Sys

/-! ## References -/

/-- A `Ref` object; `none` is `undefined`. -/
structure RefCell where
  content : Option FxHandle
  deriving DecidableEq, Repr

namespace RefCell

def new (value : FxHandle) : RefCell := ⟨some value⟩

def value (cell : RefCell) : Except JsError FxHandle :=
  match cell.content with
  | some value => .ok value
  | none => .error (.error "ref is empty")

def set (_cell : RefCell) (value : FxHandle) : RefCell := ⟨some value⟩

def take (cell : RefCell) : Option FxHandle × RefCell := (cell.content, ⟨none⟩)

end RefCell

/-- What a kernel may do with a reference. -/
inductive RefUse
  | set (value : FxHandle)
  | take
  deriving DecidableEq, Repr

def RefUse.apply (cell : RefCell) : RefUse → RefCell
  | .set value => cell.set value
  | .take => cell.take.2

/-- The answer of a kernel: the status, and what was done to each reference, in
order. -/
structure Reply where
  status : FxStatus
  uses : Ref → List RefUse

/-- What a wrapper reads from a reference that it made with the invalid
handle. -/
def Reply.out (reply : Reply) (ref : Ref) : Except JsError FxHandle :=
  ((reply.uses ref).foldl RefUse.apply (.new fxInvalidHandle)).value

/-- Go on with a value, or throw. -/
def orThrow {α : Type} : Except JsError α → HostCode α
  | .ok a => pure a
  | .error e => throw e

/-! ## Wrappers -/

structure Handle where
  handle : FxHandle
  deriving DecidableEq, Repr

structure Job extends Handle
  deriving DecidableEq, Repr

structure Process extends Handle
  deriving DecidableEq, Repr

structure Channel extends Handle
  deriving DecidableEq, Repr

/-- `ChannelPair`; `none` is `null`. -/
structure ChannelPair where
  first : Option Channel
  second : Option Channel
  deriving DecidableEq, Repr

namespace Handle

def raw (handle : Handle) : FxHandle := handle.handle

def isValid (handle : Handle) : Bool := handle.handle ≠ fxInvalidHandle

end Handle

/-- The `length` of a string counts UTF-16 code units. -/
def stringLength (text : String) : ℕ :=
  text.toList.foldl (fun n c => if c.val < 65536 then n + 1 else n + 2) 0

section

variable (globals : Entry → Bool) (behaves : Callee → SysCall → HostCode Reply)

def Job.create (parent : Job) (_name : String) : HostCode Job := do
  let jobHandle : Ref := 0
  let reply ← fxJobCreate globals behaves parent.raw 0 jobHandle
  if reply.status ≠ Status.ok.number then
    return ⟨⟨fxInvalidHandle⟩⟩
  return ⟨⟨← orThrow (reply.out jobHandle)⟩⟩

def Job.createChildJob (job : Job) : HostCode Job := do
  let out : Ref := 0
  let reply ← fxJobCreate globals behaves job.raw 0 out
  return ⟨⟨← orThrow (reply.out out)⟩⟩

def Job.createChildProcess (job : Job) (name : String) : HostCode Process := do
  let processOut : Ref := 0
  let vmarOut : Ref := 1
  let reply ← fxProcessCreate globals behaves job.raw (.text name)
    (stringLength name) 0 processOut vmarOut
  return ⟨⟨← orThrow (reply.out processOut)⟩⟩

def Process.start (process : Process) (entry : ℕ) (arg1 : Handle) :
    HostCode FxStatus := do
  let _reply ← fxProcessStart globals behaves process.raw entry arg1.raw
  return 0

def ChannelPair.create (parent : Process) : HostCode ChannelPair := do
  let first : Ref := 0
  let second : Ref := 1
  let reply ← fxChannelCreate globals behaves parent.raw first second
  if reply.status ≠ Status.ok.number then
    return ⟨none, none⟩
  let firstChannel : Channel := ⟨⟨← orThrow (reply.out first)⟩⟩
  let secondChannel : Channel := ⟨⟨← orThrow (reply.out second)⟩⟩
  return ⟨some firstChannel, some secondChannel⟩

end

end Fiber.Sdk
