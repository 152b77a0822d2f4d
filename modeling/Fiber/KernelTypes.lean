import Mathlib.Data.Int.Notation
import Mathlib.Data.Nat.Notation

/-!
# Kernel types

The constants and status codes that the kernel and its callers share, and the
exceptions a method call can end with.  Koids, handles, rights and transaction
ids are numbers; signals are the 32-bit words on which JavaScript's bitwise
operators work.
-/

namespace Fiber

abbrev FxHandle := ℕ
abbrev FxRights := ℕ
abbrev FxKoid := ℕ
abbrev FxTxid := ℕ
abbrev FxPolicy := ℕ
abbrev FxSignals := BitVec 32

def fxInvalidHandle : FxHandle := 0
def fxKoidInvalid : FxKoid := 0

def fxMaxNameLen : ℕ := 100
def fxProcessShared : ℕ := 1

def fxRightNone : FxRights := 0
def fxRightTransfer : FxRights := 1 <<< 1
def fxRightWrite : FxRights := 1 <<< 3
def fxRightManageProcess : FxRights := 1 <<< 17

def fxPolNewProcess : FxPolicy := 1

inductive Status
  | ok
  | errUnsupported
  | errCanceled
  | errOutOfRange
  | errBadState
  | errBufferTooSmall
  | errBadHandle
  | errShouldWait
  | errPeerClosed
  | errInvalidArgs
  deriving DecidableEq, Repr

/-- A status as callers see it: any number. -/
abbrev FxStatus := ℤ

/-- The number of a status in the enumeration. -/
def Status.number : Status → FxStatus
  | .ok => 1
  | .errUnsupported => 2
  | .errCanceled => 3
  | .errOutOfRange => 4
  | .errBadState => 5
  | .errBufferTooSmall => 6
  | .errBadHandle => 7
  | .errShouldWait => 8
  | .errPeerClosed => 9
  | .errInvalidArgs => 10

/-- `Signal.CHANNEL_READABLE`. -/
def channelReadable : FxSignals := 1

/-- What a call can throw: the engine's `TypeError` for a property of
`undefined`, or an `Error` made by the program. -/
inductive JsError
  | typeError
  | error (message : String)
  deriving DecidableEq, Repr

end Fiber
