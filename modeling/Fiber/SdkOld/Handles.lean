import Fiber.SdkOld.System

/-!
# Typed handles of the old SDK

A handle object holds a raw handle.  The wrappers turn the results of the
system into such objects; a field that the backend left out is passed on as
`undefined`.  The functions are asynchronous, but each of them makes its one
syscall when it is called, so that it can be run to its end at once.
-/

namespace Fiber.SdkOld

open SdkTypes

/-- An object of class `Handle`. -/
structure Handle where
  handle : Raw
  deriving DecidableEq, Repr

structure Realm extends Handle
  deriving DecidableEq, Repr

structure Process extends Handle
  deriving DecidableEq, Repr

structure Channel extends Handle
  deriving DecidableEq, Repr

/-- `ChannelPair`; `none` is `null`. -/
structure ChannelPair where
  first : Option Channel
  second : Option Channel
  deriving DecidableEq, Repr

variable {σ : Type}

namespace Handle

def raw (handle : Handle) : Raw := handle.handle

def isValid (handle : Handle) : Bool := handle.handle ≠ .number invalidHandle

def close (handle : Handle) : SystemCode σ Unit := do
  let _promise ← System.handleClose handle.handle

def duplicate (handle : Handle) : SystemCode σ Handle := do
  let promise ← System.handleDuplicate handle.handle
  return ⟨.ofField promise.resolved.handle⟩

/-- The getter `HandleWrapper.handle`. -/
def wrapped (wrapper : Handle) : Handle := ⟨wrapper.handle⟩

/-- Whether `!value` is false: an object never counts as false. -/
def truthy (_value : Handle) : Bool := true

end Handle

def Realm.create (parent : Realm) : SystemCode σ Realm := do
  let result := (← System.realmCreate parent.raw).resolved
  if result.status ≠ .ok then
    return ⟨⟨.number invalidHandle⟩⟩
  return ⟨⟨.ofField result.handle⟩⟩

namespace Process

def create (parent : Realm) (name : String) (program : Raw) :
    SystemCode σ Process := do
  let result := (← System.processCreate parent.raw name program).resolved
  if result.status ≠ .ok then
    return ⟨⟨.number invalidHandle⟩⟩
  return ⟨⟨.ofField result.handle⟩⟩

def start (process : Process) (bootstrap : Channel) : SystemCode σ Unit := do
  let _promise ← System.processStart process.handle bootstrap.raw

end Process

def ChannelPair.create (parent : Process) : SystemCode σ ChannelPair := do
  let result := (← System.channelCreate parent.raw).resolved
  if result.status ≠ .ok then
    return ⟨none, none⟩
  let firstChannel : Channel := ⟨⟨.ofField result.first⟩⟩
  let secondChannel : Channel := ⟨⟨.ofField result.second⟩⟩
  return ⟨some firstChannel, some secondChannel⟩

namespace Channel

/-- The body that the operations of a channel share. -/
def guarded (channel : Channel) (syscall : SystemCode σ Promise) :
    SystemCode σ Result := do
  if ¬ channel.wrapped.truthy then
    return { status := .errInvalidArgs }
  return (← syscall).resolved

def write (channel : Channel) (data : List UInt8)
    (handles : Option (List Handle)) : SystemCode σ Result :=
  channel.guarded <|
    let rawHandles :=
      match handles with
      | some handles => handles.map Handle.raw
      | none => []
    System.channelWrite channel.raw data rawHandles

def writeEtc (channel : Channel) (data : List UInt8)
    (handleDispositions : Option (List HandleDisposition)) :
    SystemCode σ Result :=
  channel.guarded
    (System.channelWriteEtc channel.raw data (handleDispositions.getD []))

def read (channel : Channel) : SystemCode σ Result :=
  channel.guarded (System.channelRead channel.raw)

def readEtc (channel : Channel) : SystemCode σ Result :=
  channel.guarded (System.channelReadEtc channel.raw)

end Channel
end Fiber.SdkOld
