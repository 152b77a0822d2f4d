import Fiber.KernelTypes

/-!
# Results

A result holds a value or an error; the other field is `undefined`.
-/

namespace Fiber.Kernel

universe u

/-- `ResultInner`, with `none` for `undefined`. -/
structure Result (T E : Type u) where
  ok : Option T
  err : Option E

namespace Result

variable {T E : Type u} {σ : Type u}

def Ok (ok : T) : Result T E := ⟨some ok, none⟩

def Err (err : E) : Result T E := ⟨none, some err⟩

def isOk (result : Result T E) : Bool := result.err.isNone

def isErr (result : Result T E) : Bool := result.ok.isNone

def unwrap (result : Result T E) : Except JsError T :=
  match result.ok with
  | none => .error (.error "panic")
  | some ok => .ok ok

def unwrapErr (result : Result T E) : Except JsError E :=
  match result.err with
  | none => .error (.error "panic")
  | some err => .ok err

@[simp] theorem isErr_Ok (ok : T) : (Ok ok : Result T E).isErr = false := rfl

@[simp] theorem isErr_Err (err : E) : (Err err : Result T E).isErr = true :=
  rfl

@[simp] theorem unwrap_Ok (ok : T) : (Ok ok : Result T E).unwrap = .ok ok :=
  rfl

@[simp] theorem unwrapErr_Err (err : E) :
    (Err err : Result T E).unwrapErr = .ok err := rfl

end Result
end Fiber.Kernel
