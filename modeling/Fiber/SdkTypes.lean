import Mathlib.Data.Int.Notation
import Mathlib.Data.Nat.Notation

/-!
# SDK types

The types that the old kernel shares with its SDK.  A handle is a JavaScript
number; the ones that occur are integers.  The result types of the syscalls are
one structure, because each of them adds optional fields to `Result`.
-/

namespace Fiber.SdkTypes

/-- `Handle`, and with it `Program`, `Process`, `Realm` and `Channel`. -/
abbrev RawHandle := ℤ

def invalidHandle : RawHandle := 0

/-- What an SDK object holds as its raw handle at run time.  A field that the
backend left out is read as `undefined`. -/
inductive Raw
  | number (handle : RawHandle)
  | undefined
  deriving DecidableEq, Repr

instance (n : ℕ) : OfNat Raw n := ⟨.number n⟩

/-- An optional field, read without a check. -/
def Raw.ofField : Option RawHandle → Raw
  | some handle => .number handle
  | none => .undefined

inductive Status
  | ok
  | errInternal
  | errNotSupported
  | errNoMemory
  | errWrongType
  | errBadState
  | errInvalidArgs
  | errBadHandle
  | errBadSyscall
  deriving DecidableEq, Repr

/-! ## Rights -/

abbrev HandleRights := ℕ

def rightNone : HandleRights := 1 <<< 0
def rightDestroy : HandleRights := 1 <<< 3
def rightTransfer : HandleRights := 1 <<< 4
def rightDuplicate : HandleRights := 1 <<< 5

/-! ## Arguments and results of syscalls -/

inductive HandleType
  | handle
  | channelHandle
  | memoryHandle
  | processHandle
  deriving DecidableEq, Repr

structure HandleDisposition where
  operation : ℕ
  handle : RawHandle
  type : HandleType
  rights : HandleRights
  deriving DecidableEq, Repr

structure HandleInfo where
  status : Status
  handle : RawHandle
  type : ℕ
  rights : HandleRights
  deriving DecidableEq, Repr

/-- `Result` with the fields of the interfaces that extend it; `none` stands
for a field that is absent. -/
structure Result where
  status : Status
  handle : Option RawHandle := none
  first : Option RawHandle := none
  second : Option RawHandle := none
  bytes : Option (List UInt8) := none
  numBytes : Option ℕ := none
  handles : Option (List RawHandle) := none
  handleInfos : Option (List HandleInfo) := none
  deriving DecidableEq

end Fiber.SdkTypes
