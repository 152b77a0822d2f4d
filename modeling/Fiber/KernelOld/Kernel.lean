import Fiber.KernelOld.IdGen
import Fiber.SdkTypes
import Fiber.Support.Outcome
import Mathlib.Logic.Function.Basic

/-!
# The old kernel

The kernel keeps a table of objects by koid and a table of handles by number,
and draws both ids from generators.  The callbacks of the embedder run in the
middle of an operation, on the same kernel; they are code over a `World`, which
is the kernel together with the embedder's own state.

The operations that only log and return a constant are in `Stub`.
-/

namespace Fiber.KernelOld

open SdkTypes Support

abbrev Koid := ℤ

def rootRealmKoid : Koid := 1
def rootRealmHandle : RawHandle := 1

inductive ObjectKind
  | realm
  | process
  deriving DecidableEq, Repr

/-- A `RealmObject` or a `ProcessObject`; `ref` is the identity of the
object. -/
structure KernelObject where
  ref : ℕ
  kind : ObjectKind
  id : Koid
  deriving DecidableEq, Repr

structure IKernelHandle where
  koid : Koid
  rights : HandleRights
  deriving DecidableEq, Repr

/-- The fields of the kernel, and the number of objects constructed so far.
Keys of the tables that are absent read as `none`. -/
structure Kernel where
  kobjects : Koid → Option KernelObject
  handles : RawHandle → Option IKernelHandle
  koidGen : IdGen
  handleGen : IdGen
  constructed : ℕ

/-- The kernel and the state of the embedder. -/
structure World (τ : Type) where
  kernel : Kernel
  rest : τ

/-- Code that may throw, over a kernel. -/
abbrev KernelCode (τ : Type) := EStateM JsError (World τ)

namespace Kernel

variable {τ : Type}

/-- The constructor. -/
def new : Kernel where
  kobjects := Function.update (fun _ => none) rootRealmKoid
    (some ⟨0, .realm, rootRealmKoid⟩)
  handles := Function.update (fun _ => none) rootRealmHandle
    (some ⟨rootRealmKoid, rightNone⟩)
  koidGen := {}
  handleGen := {}
  constructed := 1

/-- `this.handleGen.getNext()`. -/
def nextHandle (R : Rounding) : KernelCode τ ℤ := do
  let w ← get
  let drawn := w.kernel.handleGen.getNext R
  set { w with kernel := { w.kernel with handleGen := drawn.1 } }
  match drawn.2 with
  | .ok id => pure id
  | .error e => throw e

/-- `this.koidGen.getNext()`. -/
def nextKoid (R : Rounding) : KernelCode τ ℤ := do
  let w ← get
  let drawn := w.kernel.koidGen.getNext R
  set { w with kernel := { w.kernel with koidGen := drawn.1 } }
  match drawn.2 with
  | .ok id => pure id
  | .error e => throw e

/-- `this.handles[handle] = entry`. -/
def setHandle (handle : RawHandle) (entry : IKernelHandle) :
    KernelCode τ Unit :=
  modify fun w =>
    let handles := Function.update w.kernel.handles handle (some entry)
    { w with kernel := { w.kernel with handles := handles } }

/-- `this.kobjects[koid] = object`. -/
def setKobject (koid : Koid) (object : KernelObject) : KernelCode τ Unit :=
  modify fun w =>
    let kobjects := Function.update w.kernel.kobjects koid (some object)
    { w with kernel := { w.kernel with kobjects := kobjects } }

/-- `new ProcessObject(koid)`. -/
def newProcessObject (koid : Koid) : KernelCode τ KernelObject :=
  modifyGet fun w =>
    (⟨w.kernel.constructed, .process, koid⟩,
      { w with kernel :=
        { w.kernel with constructed := w.kernel.constructed + 1 } })

def processCreate (R : Rounding)
    (onProcessCreate : KernelObject → KernelCode τ Unit)
    (_parentRealm : RawHandle) (_name : String) (_programVmo : RawHandle) :
    KernelCode τ Result := do
  let drawn ← tryCatch
    (do
      let handleId ← nextHandle R
      let processKoid ← nextKoid R
      pure (some (handleId, processKoid)))
    (fun _ => pure none)
  match drawn with
  | none =>
      pure { status := .errInternal, handle := some invalidHandle }
  | some (handleId, processKoid) => do
      setHandle handleId
        { koid := processKoid
          rights := rightTransfer ||| rightDuplicate ||| rightDestroy }
      let process ← newProcessObject processKoid
      setKobject processKoid process
      onProcessCreate process
      pure { status := .ok, handle := some handleId }

def processStart (onProcessStart : Option KernelObject → KernelCode τ Unit)
    (process _bootChannel : RawHandle) : KernelCode τ Result := do
  let w ← get
  match w.kernel.handles process with
  | none => throw .typeError
  | some handle => do
      onProcessStart (w.kernel.kobjects handle.koid)
      pure { status := .ok }

/-- The operations without a body. -/
inductive Stub
  | handleDuplicate (handle : RawHandle)
  | handleReplace (handle replacement : RawHandle)
  | handleClose (handle : RawHandle)
  | realmCreate (parent : RawHandle)
  | realmListen (realm : RawHandle) (multiaddr : String) (channel : RawHandle)
  | realmDial (realm : RawHandle) (multiaddr : String) (channel : RawHandle)
  | channelCreate
  | channelWrite (channel : RawHandle) (data : List UInt8)
      (handles : List RawHandle)
  | channelWriteEtc (channel : RawHandle) (data : List UInt8)
      (handleDispositions : List HandleDisposition)
  | channelRead (channel : RawHandle)
  | channelReadEtc (channel : RawHandle)
  deriving DecidableEq

def Stub.result : Stub → Result
  | .handleDuplicate _ | .handleReplace _ _ =>
      { status := .ok, handle := some invalidHandle }
  | .handleClose _ | .realmCreate _ | .realmListen _ _ _
  | .realmDial _ _ _ => { status := .ok }
  | .channelCreate =>
      { status := .ok, first := some invalidHandle,
        second := some invalidHandle }
  | .channelWrite _ _ _ | .channelWriteEtc _ _ _ =>
      { status := .ok, numBytes := some 0 }
  | .channelRead _ =>
      { status := .ok, numBytes := some 0, bytes := some [],
        handles := some [] }
  | .channelReadEtc _ =>
      { status := .ok, numBytes := some 0, bytes := some [],
        handleInfos := some [] }

/-! ## Runs -/

/-- What `processCreate` does before its callback: it draws both ids, and if
that succeeds it writes both tables. -/
def issue (R : Rounding) (k : Kernel) :
    Kernel × Option (RawHandle × KernelObject) :=
  let (handleGen, handleId) := k.handleGen.getNext R
  match handleId with
  | .error _ => ({ k with handleGen := handleGen }, none)
  | .ok handleId =>
      let (koidGen, processKoid) := k.koidGen.getNext R
      match processKoid with
      | .error _ =>
          ({ k with handleGen := handleGen, koidGen := koidGen }, none)
      | .ok processKoid =>
          let process : KernelObject := ⟨k.constructed, .process, processKoid⟩
          let entry : IKernelHandle :=
            { koid := processKoid
              rights := rightTransfer ||| rightDuplicate ||| rightDestroy }
          ({ kobjects := Function.update k.kobjects processKoid (some process)
             handles := Function.update k.handles handleId (some entry)
             koidGen := koidGen
             handleGen := handleGen
             constructed := k.constructed + 1 }, some (handleId, process))

section

variable {R : Rounding} {w w' : World τ} {k : Kernel} {gen : IdGen} {id : ℤ}
  {e : JsError} {onProcessCreate : KernelObject → KernelCode τ Unit}
  {onProcessStart : Option KernelObject → KernelCode τ Unit}
  {parentRealm programVmo handle bootChannel : RawHandle} {name : String}
  {object : KernelObject}

theorem nextHandle_of_ok
    (h : w.kernel.handleGen.getNext R = (gen, .ok id)) :
    (nextHandle R).run w =
      .ok id { w with kernel := { w.kernel with handleGen := gen } } := by
  simp only [nextHandle, EStateM.run_bind, EStateM.run_get, EStateM.run_set, h]
  rfl

theorem nextHandle_of_error
    (h : w.kernel.handleGen.getNext R = (gen, .error e)) :
    (nextHandle R).run w =
      .error e { w with kernel := { w.kernel with handleGen := gen } } := by
  simp only [nextHandle, EStateM.run_bind, EStateM.run_get, EStateM.run_set, h]
  rfl

theorem nextKoid_of_ok (h : w.kernel.koidGen.getNext R = (gen, .ok id)) :
    (nextKoid R).run w =
      .ok id { w with kernel := { w.kernel with koidGen := gen } } := by
  simp only [nextKoid, EStateM.run_bind, EStateM.run_get, EStateM.run_set, h]
  rfl

theorem nextKoid_of_error
    (h : w.kernel.koidGen.getNext R = (gen, .error e)) :
    (nextKoid R).run w =
      .error e { w with kernel := { w.kernel with koidGen := gen } } := by
  simp only [nextKoid, EStateM.run_bind, EStateM.run_get, EStateM.run_set, h]
  rfl

theorem processCreate_of_exhausted (h : w.kernel.issue R = (k, none)) :
    (processCreate R onProcessCreate parentRealm name programVmo).run w =
      .ok { status := .errInternal, handle := some invalidHandle }
        { w with kernel := k } := by
  revert h
  simp only [issue]
  rcases hhandle : w.kernel.handleGen.getNext R with ⟨handleGen, e | handleId⟩
  · rintro ⟨⟩
    simp only [processCreate, EStateM.run_bind, run_tryCatch,
      nextHandle_of_error hhandle]
    rfl
  · rcases hkoid : w.kernel.koidGen.getNext R with ⟨koidGen, e | processKoid⟩
    · rintro ⟨⟩
      have hkoid' := nextKoid_of_error
        (w := { w with kernel := { w.kernel with handleGen := handleGen } })
        hkoid
      simp only [processCreate, EStateM.run_bind, run_tryCatch,
        nextHandle_of_ok hhandle, hkoid']
      rfl
    · nofun

theorem processCreate_of_issued
    (h : w.kernel.issue R = (k, some (handle, object))) :
    (processCreate R onProcessCreate parentRealm name programVmo).run w =
      (do
        onProcessCreate object
        pure { status := .ok, handle := some handle } :
          KernelCode τ Result).run { w with kernel := k } := by
  revert h
  simp only [issue]
  rcases hhandle : w.kernel.handleGen.getNext R with ⟨handleGen, e | handleId⟩
  · nofun
  · rcases hkoid : w.kernel.koidGen.getNext R with ⟨koidGen, e | processKoid⟩
    · nofun
    · rintro ⟨⟩
      have hkoid' := nextKoid_of_ok
        (w := { w with kernel := { w.kernel with handleGen := handleGen } })
        hkoid
      simp only [processCreate, EStateM.run_bind, run_tryCatch,
        nextHandle_of_ok hhandle, hkoid', EStateM.run_pure, setHandle,
        newProcessObject, setKobject, EStateM.run_modify,
        EStateM.run_modifyGet]

theorem processCreate_of_returned
    (h : w.kernel.issue R = (k, some (handle, object)))
    (hrun : (onProcessCreate object).run { w with kernel := k } =
      .ok () w') :
    (processCreate R onProcessCreate parentRealm name programVmo).run w =
      .ok { status := .ok, handle := some handle } w' := by
  rw [processCreate_of_issued h, EStateM.run_bind, hrun]
  rfl

theorem processCreate_of_thrown
    (h : w.kernel.issue R = (k, some (handle, object)))
    (hrun : (onProcessCreate object).run { w with kernel := k } =
      .error e w') :
    (processCreate R onProcessCreate parentRealm name programVmo).run w =
      .error e w' := by
  rw [processCreate_of_issued h, EStateM.run_bind, hrun]

theorem processStart_of_none (h : w.kernel.handles handle = none) :
    (processStart onProcessStart handle bootChannel).run w =
      .error .typeError w := by
  simp only [processStart, EStateM.run_bind, EStateM.run_get, h]
  rfl

theorem processStart_of_some {entry : IKernelHandle}
    (h : w.kernel.handles handle = some entry) :
    (processStart onProcessStart handle bootChannel).run w =
      (do
        onProcessStart (w.kernel.kobjects entry.koid)
        pure { status := .ok } : KernelCode τ Result).run w := by
  simp only [processStart, EStateM.run_bind, EStateM.run_get, h]

end

end Kernel
end Fiber.KernelOld
