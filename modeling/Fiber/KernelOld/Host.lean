import Fiber.KernelOld.Kernel

/-!
# Code that drives the old kernel

The embedder calls the operations in any order, catches exceptions or not, and
supplies the callbacks.  A callback is code of the same kind: it may call the
operations of the kernel it runs under, to any depth, and it may throw.  A run
keeps a journal of the callbacks it enters and of the calls that end.
-/

namespace Fiber.KernelOld

open SdkTypes KernelOld.Kernel Support

/-- What a run of `processCreate` leaves in the journal, under the number of
the call: the kernel on both sides of the table writes, when its callback is
entered, and the kernel at its end. -/
inductive Record
  | entered (call : ℕ) (before after : Kernel) (process : KernelObject)
  | ended (call : ℕ) (outcome : Except JsError Result) (after : Kernel)

namespace Record

def call : Record → ℕ
  | .entered call _ _ _ => call
  | .ended call _ _ => call

def kernels : Record → List Kernel
  | .entered _ before after _ => [before, after]
  | .ended _ _ after => [after]

def enteredCall : Record → Option ℕ
  | .entered call _ _ _ => some call
  | .ended _ _ _ => none

def endedCall : Record → Option ℕ
  | .entered _ _ _ _ => none
  | .ended call _ _ => some call

end Record

/-- The number of calls of `processCreate` made so far, and the records,
oldest first. -/
structure Journal where
  calls : ℕ := 0
  records : List Record := []

/-- Code of the embedder, as a tree: an operation is followed by what happens
next, which depends on its outcome.  The callback of a call is the code that
the embedder's function runs during that call. -/
inductive Code
  | ret
  | fail (e : JsError)
  | stub (op : Stub) (next : Result → Code)
  | processCreate (parentRealm : RawHandle) (name : String)
      (programVmo : RawHandle) (onProcessCreate : KernelObject → Code)
      (next : Except JsError Result → Code)
  | processStart (process bootChannel : RawHandle)
      (onProcessStart : Option KernelObject → Code)
      (next : Except JsError Result → Code)

/-! ## Journal entries -/

namespace World

/-- The world in which the call numbered next has begun. -/
def calling (w : World Journal) : World Journal :=
  { w with rest := { w.rest with calls := w.rest.calls + 1 } }

def record (w : World Journal) (r : Record) : World Journal :=
  { w with rest := { w.rest with records := w.rest.records ++ [r] } }

/-- Where every run starts. -/
def start : World Journal := ⟨Kernel.new, {}⟩

/-- The kernels of the journal, the first one included. -/
def past (w : World Journal) : List Kernel :=
  Kernel.new :: w.rest.records.flatMap Record.kernels

/-- The states of the kernel in a run, oldest first. -/
def moments (w : World Journal) : List Kernel := w.past ++ [w.kernel]

end World

def Code.run (R : Rounding) : Code → KernelCode Journal Unit
  | .ret => pure ()
  | .fail e => throw e
  | .stub op next => (next op.result).run R
  | .processCreate parentRealm name programVmo onProcessCreate next => do
      let w ← get
      let call := w.rest.calls
      modify World.calling
      let outcome ← captured (Kernel.processCreate R
        (fun process => do
          modify fun w' => w'.record
            (.entered call w.kernel w'.kernel process)
          (onProcessCreate process).run R)
        parentRealm name programVmo)
      modify fun w' => w'.record (.ended call outcome w'.kernel)
      (next outcome).run R
  | .processStart process bootChannel onProcessStart next => do
      let outcome ← captured (Kernel.processStart
        (fun object => (onProcessStart object).run R) process bootChannel)
      (next outcome).run R

/-! ## Runs -/

section

variable {R : Rounding} {w w' : World Journal} {k : Kernel}
  {parentRealm programVmo process bootChannel handle : RawHandle}
  {name : String} {object : KernelObject}
  {onProcessCreate : KernelObject → Code}
  {onProcessStart : Option KernelObject → Code}
  {next : Except JsError Result → Code}

/-- The world in which the callback of a call begins. -/
def World.entering (w : World Journal) (k : Kernel) (object : KernelObject) :
    World Journal :=
  { w.calling with kernel := k }.record
    (.entered w.rest.calls w.kernel k object)

/-- The world in which the call begun in `w` has ended. -/
def World.ending (w' w : World Journal) (outcome : Except JsError Result) :
    World Journal :=
  w'.record (.ended w.rest.calls outcome w'.kernel)

theorem endState_create {outcome : Except JsError Result}
    (h : (captured (Kernel.processCreate R
      (fun process => do
        modify fun w' => w'.record
          (.entered w.rest.calls w.kernel w'.kernel process)
        (onProcessCreate process).run R)
      parentRealm name programVmo)).run w.calling = .ok outcome w') :
    endState ((Code.processCreate parentRealm name programVmo
      onProcessCreate next).run R) w =
      endState ((next outcome).run R) (World.ending w' w outcome) := by
  rw [Code.run, endState_bind (EStateM.run_get w),
    endState_bind (EStateM.run_modify _ w), endState_bind h,
    endState_bind (EStateM.run_modify _ w')]
  rfl

theorem endState_create_of_exhausted (h : w.kernel.issue R = (k, none)) :
    endState ((Code.processCreate parentRealm name programVmo
      onProcessCreate next).run R) w =
      let outcome := .ok
        { status := .errInternal, handle := some invalidHandle }
      endState ((next outcome).run R)
        (World.ending { w.calling with kernel := k } w outcome) :=
  endState_create (captured_of_ok
    (processCreate_of_exhausted (w := w.calling) h))

/-- The callback runs in the world it enters, and its end is the end of the
call. -/
theorem endState_create_of_issued
    (h : w.kernel.issue R = (k, some (handle, object))) :
    ∃ outcome : Except JsError Result,
      (outcome = .ok { status := .ok, handle := some handle } ∨
        ∃ e, outcome = .error e) ∧
      endState ((Code.processCreate parentRealm name programVmo
        onProcessCreate next).run R) w =
        endState ((next outcome).run R)
          (World.ending (endState ((onProcessCreate object).run R)
            (w.entering k object)) w outcome) := by
  obtain ⟨outcome, houtcome, hrun⟩ := exists_captured_constant
    (do
      modify fun w' => w'.record
        (.entered w.rest.calls w.kernel w'.kernel object)
      (onProcessCreate object).run R)
    ({ status := .ok, handle := some handle } : Result)
    { w.calling with kernel := k }
  refine ⟨outcome, houtcome, endState_create ?_⟩
  rw [captured_congr (processCreate_of_issued (w := w.calling) h), hrun,
    endState_bind (EStateM.run_modify _ _)]
  rfl

theorem endState_start {outcome : Except JsError Result}
    (h : (captured (Kernel.processStart
      (fun object => (onProcessStart object).run R) process
      bootChannel)).run w = .ok outcome w') :
    endState ((Code.processStart process bootChannel onProcessStart
      next).run R) w = endState ((next outcome).run R) w' := by
  rw [Code.run, endState_bind h]

theorem endState_start_of_none (h : w.kernel.handles process = none) :
    endState ((Code.processStart process bootChannel onProcessStart
      next).run R) w = endState ((next (.error .typeError)).run R) w :=
  endState_start (captured_of_error (processStart_of_none h))

theorem endState_start_of_some {entry : IKernelHandle}
    (h : w.kernel.handles process = some entry) :
    ∃ outcome, endState ((Code.processStart process bootChannel
      onProcessStart next).run R) w =
        endState ((next outcome).run R)
          (endState ((onProcessStart (w.kernel.kobjects entry.koid)).run R)
            w) := by
  obtain ⟨outcome, -, hrun⟩ := exists_captured_constant
    ((onProcessStart (w.kernel.kobjects entry.koid)).run R)
    ({ status := .ok } : Result) w
  refine ⟨outcome, endState_start ?_⟩
  rw [captured_congr (processStart_of_some h), hrun]

end

/-- What holds between the world before a call and the world after it, and is
reflexive and transitive, holds between the ends of every run. -/
theorem Code.run_induction {R : Rounding}
    {P : World Journal → World Journal → Prop} (hrefl : ∀ w, P w w)
    (htrans : ∀ w w' w'', P w w' → P w' w'' → P w w'')
    (hexhausted : ∀ w k outcome, w.kernel.issue R = (k, none) →
      outcome = .ok { status := .errInternal, handle := some invalidHandle } →
      P w (World.ending { w.calling with kernel := k } w outcome))
    (hissued : ∀ w k handle object w' outcome,
      w.kernel.issue R = (k, some (handle, object)) →
      P (w.entering k object) w' →
      (outcome = .ok { status := .ok, handle := some handle } ∨
        ∃ e, outcome = .error e) →
      P w (World.ending w' w outcome))
    (code : Code) (w : World Journal) : P w (endState (code.run R) w) := by
  induction code generalizing w with
  | ret => exact hrefl w
  | fail e => exact hrefl w
  | stub op next hnext => exact hnext op.result w
  | processCreate parentRealm name programVmo onProcessCreate next hbody hnext =>
      rcases hissue : w.kernel.issue R with ⟨k, _ | ⟨handle, object⟩⟩
      · rw [endState_create_of_exhausted hissue]
        exact htrans _ _ _ (hexhausted w k _ hissue rfl) (hnext _ _)
      · obtain ⟨outcome, houtcome, hend⟩ := endState_create_of_issued hissue
        rw [hend]
        apply htrans _ _ _ _ (hnext outcome _)
        exact hissued w k handle object _ outcome hissue
          (hbody object (w.entering k object)) houtcome
  | processStart process bootChannel onProcessStart next hbody hnext =>
      rcases hentry : w.kernel.handles process with _ | entry
      · rw [endState_start_of_none hentry]
        exact hnext _ w
      · obtain ⟨outcome, hend⟩ := endState_start_of_some hentry
        rw [hend]
        exact htrans _ _ _ (hbody _ w) (hnext outcome _)

/-- A state that the kernel can be in. -/
def Reachable (R : Rounding) (k : Kernel) : Prop :=
  ∃ code : Code, k ∈ (endState (code.run R) World.start).moments

end Fiber.KernelOld
