import Fiber.KernelOld.Registry
import Fiber.SdkOld.Guards

/-!
# The old SDK over the old kernel

The SDK is installed over a kernel, whose methods it reaches by their names.
The kernel runs callbacks of the embedder, and these may use the kernel
themselves, so that processes are also created behind the back of the SDK.

A program over this stack gets the handles of its processes in increasing
order, and each of them names its process for good.
-/

namespace Fiber.SdkOld

open SdkTypes Support

open KernelOld (Rounding KernelObject Registry Represents)
open KernelOld.Kernel (Stub)

/-- A kernel in use. -/
abbrev OldKernel := KernelOld.World KernelOld.Journal

/-- The functions that the embedder constructs the kernel with. -/
structure KernelOptions where
  onProcessCreate : KernelObject → KernelOld.Code
  onProcessStart : Option KernelObject → KernelOld.Code

/-! ## Calls by name -/

/-- The methods, to be looked up by name. -/
def Method.all : List Method :=
  [.handleDuplicate, .handleReplace, .handleClose, .channelCreate,
    .channelWrite, .channelWriteEtc, .channelRead, .channelReadEtc,
    .realmCreate, .processCreate, .processStart]

def Method.named? (name : String) : Option Method :=
  Method.all.find? fun method => method.name = name

theorem Method.named?_name (method : Method) :
    Method.named? method.name = some method := by
  cases method <;> rfl

/-- The operation whose method was called with these arguments. -/
def Operation.decode? : Method → List Arg → Option Operation
  | .handleDuplicate, [.handle handle] => some (.handleDuplicate handle)
  | .handleReplace, [.handle handle, .handle replacement] =>
      some (.handleReplace handle replacement)
  | .handleClose, [.handle handle] => some (.handleClose handle)
  | .realmCreate, [.handle parent] => some (.realmCreate parent)
  | .processCreate, [.handle parent, .text name, .handle program] =>
      some (.processCreate parent name program)
  | .processStart, [.handle process, .handle bootstrap] =>
      some (.processStart process bootstrap)
  | .channelCreate, [.handle process] => some (.channelCreate process)
  | .channelWrite, [.handle channel, .data data, .handles handles] =>
      some (.channelWrite channel data handles)
  | .channelWriteEtc,
      [.handle channel, .data data, .dispositions dispositions] =>
      some (.channelWriteEtc channel data dispositions)
  | .channelRead, [.handle channel] => some (.channelRead channel)
  | .channelReadEtc, [.handle channel] => some (.channelReadEtc channel)
  | _, _ => none

theorem Operation.decode?_args (o : Operation) :
    Operation.decode? o.method o.args = some o := by
  cases o <;> rfl

/-! ## The kernel behind the SDK -/

/-- A handle in an argument that a method only logs. -/
def logged : Raw → RawHandle
  | .number handle => handle
  | .undefined => invalidHandle

/-- The method without a body that an operation calls. -/
def Operation.stub? : Operation → Option Stub
  | .handleDuplicate handle => some (.handleDuplicate (logged handle))
  | .handleReplace handle replacement =>
      some (.handleReplace (logged handle) (logged replacement))
  | .handleClose handle => some (.handleClose (logged handle))
  | .realmCreate parent => some (.realmCreate (logged parent))
  | .processCreate _ _ _ | .processStart _ _ => none
  | .channelCreate _ => some .channelCreate
  | .channelWrite channel data handles =>
      some (.channelWrite (logged channel) data (handles.map logged))
  | .channelWriteEtc channel data dispositions =>
      some (.channelWriteEtc (logged channel) data dispositions)
  | .channelRead channel => some (.channelRead (logged channel))
  | .channelReadEtc channel => some (.channelReadEtc (logged channel))

/-- The method of the kernel that an operation calls.  The tables have no key
`undefined`. -/
def kernelMethod (R : Rounding) (options : KernelOptions) (o : Operation) :
    EStateM JsError OldKernel Result :=
  match o.stub?, o with
  | some stub, _ => pure stub.result
  | none, .processCreate parent name program =>
      KernelOld.Kernel.processCreate R
        (fun process => (options.onProcessCreate process).run R)
        (logged parent) name (logged program)
  | none, .processStart (.number process) bootstrap =>
      KernelOld.Kernel.processStart
        (fun object => (options.onProcessStart object).run R)
        process (logged bootstrap)
  | none, _ => throw .typeError

/-- The dispatcher that calls `kernel[namespace_name](...args)`. -/
def kernelDispatcher (R : Rounding) (options : KernelOptions) :
    String → String → List Arg → EStateM JsError OldKernel Promise :=
  fun ns name args =>
    match (Method.named? (ns ++ "_" ++ name)).bind
      (Operation.decode? · args) with
    | none => throw .typeError
    | some o => do
        let result ← kernelMethod R options o
        pure ⟨result⟩

/-- The SDK after its installation over a new kernel. -/
def overKernel (R : Rounding) (options : KernelOptions) : World OldKernel :=
  endState (Installation.init (kernelDispatcher R options)).perform
    (start KernelOld.World.start)

/-- The class sends its operations to the kernel. -/
def OverKernel (R : Rounding) (options : KernelOptions)
    (w : World OldKernel) : Prop :=
  w.system.initialized = true ∧ w.system.useDirectCalls = some false ∧
    w.system.syscall = some (recording (kernelDispatcher R options))

section

variable {R : Rounding} {options : KernelOptions} {w : World OldKernel}
  {o : Operation} {result : Result} {s : OldKernel} {e : JsError}

theorem kernelDispatcher_eq {ns name : String}
    (hname : ns ++ "_" ++ name = o.method.name) :
    kernelDispatcher R options ns name o.args = (do
      let result ← kernelMethod R options o
      pure ⟨result⟩) := by
  rw [kernelDispatcher, hname, Method.named?_name, Option.bind_some,
    Operation.decode?_args]

theorem perform_of_ok (hw : OverKernel R options w)
    (hmethod : (kernelMethod R options o).run w.kernels.state = .ok result s) :
    ∃ calls, o.perform.run w =
      .ok ⟨result⟩ { w with kernels := ⟨calls, s⟩ } := by
  obtain ⟨hinitialized, hmode, hsyscall⟩ := hw
  obtain ⟨ns, name, hname, hperform⟩ := Operation.perform_eq OldKernel o
  have hdispatcher : (kernelDispatcher R options ns name o.args).run
      w.kernels.state = .ok ⟨result⟩ s := by
    rw [kernelDispatcher_eq hname, EStateM.run_bind, hmethod]
    rfl
  rw [hperform, doSyscall_of_recording hinitialized hmode hsyscall]
  rw [EStateM.run] at hdispatcher
  refine ⟨w.kernels.calls ++ [⟨0, ns ++ "_" ++ name, o.args⟩], ?_⟩
  simp only [EStateM.run, ofKernels, recording, hdispatcher]

theorem perform_of_error (hw : OverKernel R options w)
    (hmethod : (kernelMethod R options o).run w.kernels.state = .error e s) :
    ∃ calls, o.perform.run w = .error e { w with kernels := ⟨calls, s⟩ } := by
  obtain ⟨hinitialized, hmode, hsyscall⟩ := hw
  obtain ⟨ns, name, hname, hperform⟩ := Operation.perform_eq OldKernel o
  have hdispatcher : (kernelDispatcher R options ns name o.args).run
      w.kernels.state = .error e s := by
    rw [kernelDispatcher_eq hname, EStateM.run_bind, hmethod]
  rw [hperform, doSyscall_of_recording hinitialized hmode hsyscall]
  rw [EStateM.run] at hdispatcher
  refine ⟨w.kernels.calls ++ [⟨0, ns ++ "_" ++ name, o.args⟩], ?_⟩
  simp only [EStateM.run, ofKernels, recording, hdispatcher]

end

/-! ## The registry grows -/

section

variable {R : Rounding} {options : KernelOptions}

/-- Both kernels represent registries, the second one a larger one. -/
def Grows (k k' : KernelOld.Kernel) : Prop :=
  ∀ r, Represents k r → ∃ r', Represents k' r' ∧ r.created ≤ r'.created

theorem Grows.refl (k : KernelOld.Kernel) : Grows k k :=
  fun r hr => ⟨r, hr, Nat.le_refl _⟩

theorem Grows.trans {k k' k'' : KernelOld.Kernel} (h : Grows k k')
    (h' : Grows k' k'') : Grows k k'' := by
  intro r hr
  obtain ⟨r', hr', hle⟩ := h r hr
  obtain ⟨r'', hr'', hle'⟩ := h' r' hr'
  exact ⟨r'', hr'', Nat.le_trans hle hle'⟩

/-- A creation that is refused keeps the registry, another one makes it
larger. -/
theorem grows_issue (R : Rounding) (k : KernelOld.Kernel) :
    Grows k (k.issue R).1 := by
  intro r hr
  rcases hroom : r.create with _ | r'
  · obtain ⟨k', hissue, hk'⟩ := hr.issue_of_full (R := R) hroom
    rw [hissue]
    exact ⟨r, hk', Nat.le_refl _⟩
  · obtain ⟨k', hissue, hk'⟩ := hr.issue_of_room (R := R) hroom
    rw [hissue]
    refine ⟨r', hk', ?_⟩
    rw [(Registry.create_eq_some hroom).2]
    exact Nat.le_succ _

theorem grows_run (R : Rounding) (code : KernelOld.Code) (s : OldKernel) :
    Grows s.kernel (endState (code.run R) s).kernel := by
  refine KernelOld.Code.run_induction (P := fun s s' =>
    Grows s.kernel s'.kernel) (fun s => .refl s.kernel)
    (fun _ _ _ => Grows.trans) ?_ ?_ code s
  · intro s k outcome hissue _
    have hgrows := grows_issue R s.kernel
    rw [hissue] at hgrows
    exact hgrows
  · intro s k handle object s' outcome hissue hcallback _
    have hgrows := grows_issue R s.kernel
    rw [hissue] at hgrows
    exact hgrows.trans hcallback

variable {s : OldKernel} {k : KernelOld.Kernel} {handle : RawHandle}
  {object : KernelObject} {parent program : Raw} {name : String}

theorem kernelMethod_create (R : Rounding) (options : KernelOptions)
    (parent : Raw) (name : String) (program : Raw) :
    kernelMethod R options (.processCreate parent name program) =
      KernelOld.Kernel.processCreate R
        (fun process => (options.onProcessCreate process).run R)
        (logged parent) name (logged program) := rfl

theorem kernelMethod_start (R : Rounding) (options : KernelOptions)
    (process : RawHandle) (bootstrap : Raw) :
    kernelMethod R options (.processStart (.number process) bootstrap) =
      KernelOld.Kernel.processStart
        (fun object => (options.onProcessStart object).run R) process
        (logged bootstrap) := rfl

theorem create_of_exhausted (h : s.kernel.issue R = (k, none)) :
    (kernelMethod R options (.processCreate parent name program)).run s =
      .ok { status := .errInternal, handle := some invalidHandle }
        { s with kernel := k } := by
  rw [kernelMethod_create, KernelOld.Kernel.processCreate_of_exhausted h]

theorem create_of_issued (h : s.kernel.issue R = (k, some (handle, object))) :
    (kernelMethod R options (.processCreate parent name program)).run s =
      (do
        (options.onProcessCreate object).run R
        pure { status := .ok, handle := some handle } :
          EStateM JsError OldKernel Result).run { s with kernel := k } := by
  rw [kernelMethod_create, KernelOld.Kernel.processCreate_of_issued h]

theorem endState_create_of_issued
    (h : s.kernel.issue R = (k, some (handle, object))) :
    endState (kernelMethod R options (.processCreate parent name program)) s =
      endState ((options.onProcessCreate object).run R)
        { s with kernel := k } := by
  rw [endState, create_of_issued h]
  exact endState_bind_of_keeps fun _ _ => rfl

/-- However the creation and its callback end, the kernel goes on with what
the callback leaves. -/
theorem grows_create : Grows s.kernel (endState
    (kernelMethod R options (.processCreate parent name program)) s).kernel := by
  have hgrows := grows_issue R s.kernel
  rcases hissue : s.kernel.issue R with ⟨k, _ | ⟨handle, object⟩⟩
  · rw [hissue] at hgrows
    rw [endState_of_ok (create_of_exhausted hissue)]
    exact hgrows
  · rw [hissue] at hgrows
    rw [endState_create_of_issued hissue]
    exact hgrows.trans (grows_run R (options.onProcessCreate object)
      { s with kernel := k })

theorem grows_start {process : RawHandle} {bootstrap : Raw} :
    Grows s.kernel (endState (kernelMethod R options
      (.processStart (.number process) bootstrap)) s).kernel := by
  rw [kernelMethod_start]
  rcases hentry : s.kernel.handles process with _ | entry
  · rw [endState_of_error (KernelOld.Kernel.processStart_of_none hentry)]
    exact .refl _
  · rw [endState, KernelOld.Kernel.processStart_of_some hentry, ← endState,
      endState_bind_of_keeps fun _ _ => rfl]
    exact grows_run R _ s

theorem grows_kernelMethod (R : Rounding) (options : KernelOptions)
    (o : Operation) (s : OldKernel) :
    Grows s.kernel (endState (kernelMethod R options o) s).kernel := by
  cases o with
  | processCreate => exact grows_create
  | processStart process =>
      cases process with
      | number process => exact grows_start
      | undefined => exact .refl _
  | _ => exact .refl _

end

/-! ## Programs -/

/-- The valid handle of a process that a call resolved to. -/
def handedOut : Except JsError Resolved → Option ℤ
  | .ok (.process ⟨⟨.number handle⟩⟩) =>
      if handle = invalidHandle then none else some handle
  | _ => none

/-- The handle of a process that an event hands out. -/
def handed (e : Event (World OldKernel) (SdkCall OldKernel)
    (Except JsError Resolved)) : Option ℤ :=
  handedOut e.reply

section

variable {R : Rounding} {options : KernelOptions} {w : World OldKernel}
  {call : SdkCall OldKernel} {o : Operation} {r : Registry}

theorem endState_perform (hw : OverKernel R options w) (o : Operation) :
    OverKernel R options (endState o.perform w) ∧
      (endState o.perform w).kernels.state =
        endState (kernelMethod R options o) w.kernels.state := by
  rcases hmethod : (kernelMethod R options o).run w.kernels.state with
    ⟨result, s⟩ | ⟨e, s⟩
  · obtain ⟨calls, hrun⟩ := perform_of_ok hw hmethod
    rw [endState_of_ok hrun, endState_of_ok hmethod]
    exact ⟨hw, rfl⟩
  · obtain ⟨calls, hrun⟩ := perform_of_error hw hmethod
    rw [endState_of_error hrun, endState_of_error hmethod]
    exact ⟨hw, rfl⟩

/-- The reply of code that ends in a certain kind of object. -/
theorem handedOut_of_bind {α : Type} {code : SystemCode OldKernel α}
    {f : α → Resolved} (hf : ∀ a, handedOut (.ok (f a)) = none) :
    handedOut (match (do
        let a ← code
        pure (f a)).run w with
      | .ok resolved _ => .ok resolved
      | .error e _ => .error e) = none := by
  rw [EStateM.run_bind]
  rcases code.run w with ⟨a, w'⟩ | ⟨e, w'⟩
  · exact hf a
  · rfl

/-- Only the creation of a process hands out a process. -/
theorem handedOut_of_ne_createProcess
    (hcall : ∀ parent name program, call ≠ .createProcess parent name program) :
    handedOut ((sdk OldKernel).step w call).2 = none := by
  have hreply : ((sdk OldKernel).step w call).2 =
      match call.perform.run w with
      | .ok resolved _ => .ok resolved
      | .error e _ => .error e := by
    simp only [sdk]
    cases call.perform.run w <;> rfl
  rw [hreply]
  cases call with
  | createProcess parent name program => exact absurd rfl (hcall _ _ _)
  | _ => exact handedOut_of_bind fun _ => rfl

variable {parent : Realm} {name : String} {program : Raw} {result : Result}
  {w' : World OldKernel} {e : JsError} {handle : ℤ}

theorem step_createProcess_of_ok
    (hrun : (Operation.processCreate parent.raw name program).perform.run w =
      .ok ⟨result⟩ w') :
    ((sdk OldKernel).step w (.createProcess parent name program)).2 =
      .ok (.process (if result.status ≠ .ok then ⟨⟨.number invalidHandle⟩⟩
        else ⟨⟨.ofField result.handle⟩⟩)) := by
  have hcreate : (Process.create parent name program).run w =
      .ok (if result.status ≠ .ok then ⟨⟨.number invalidHandle⟩⟩
        else ⟨⟨.ofField result.handle⟩⟩) w' := by
    rw [Operation.perform] at hrun
    rw [Process.create, EStateM.run_bind, hrun]
    by_cases hstatus : result.status = .ok
    · simp only [hstatus, ne_eq, not_true_eq_false, if_false, EStateM.run_pure]
    · simp only [hstatus, ne_eq, not_false_eq_true, if_true, EStateM.run_pure]
  simp only [sdk, SdkCall.perform, EStateM.run_bind, hcreate]
  rfl

theorem step_createProcess_of_error
    (hrun : (Operation.processCreate parent.raw name program).perform.run w =
      .error e w') :
    ((sdk OldKernel).step w (.createProcess parent name program)).2 =
      .error e := by
  rw [Operation.perform] at hrun
  simp only [sdk, SdkCall.perform, Process.create, EStateM.run_bind, hrun]

/-- A process that is handed out has the next number, and the registry has
become larger. -/
theorem handedOut_createProcess (hw : OverKernel R options w)
    (hr : Represents w.kernels.state.kernel r)
    (hout : handedOut ((sdk OldKernel).step w
      (.createProcess parent name program)).2 = some handle) :
    handle = r.created + 2 ∧ ∃ r', Represents
      (endState (kernelMethod R options
        (.processCreate parent.raw name program)) w.kernels.state).kernel r' ∧
        r.created < r'.created := by
  rcases hroom : r.create with _ | r'
  · obtain ⟨k, hissue, -⟩ := hr.issue_of_full (R := R) hroom
    obtain ⟨calls, hrun⟩ := perform_of_ok hw (create_of_exhausted hissue)
    rw [step_createProcess_of_ok hrun] at hout
    nomatch hout
  · obtain ⟨k, hissue, hk⟩ := hr.issue_of_room (R := R) hroom
    have hcreated := (Registry.create_eq_some hroom).2
    refine ⟨?_, ?_⟩
    · rcases hcallback : ((options.onProcessCreate
          (KernelOld.processAfter r.created)).run R).run
          { w.kernels.state with kernel := k } with ⟨⟨⟩, s⟩ | ⟨e, s⟩
      · obtain ⟨calls, hrun⟩ := perform_of_ok (o := .processCreate parent.raw
          name program) hw (by
            rw [create_of_issued hissue, EStateM.run_bind, hcallback]
            rfl)
        rw [step_createProcess_of_ok hrun] at hout
        change (if (r.created : ℤ) + 2 = invalidHandle then none
          else some ((r.created : ℤ) + 2)) = some handle at hout
        rw [if_neg (by rw [invalidHandle]; omega)] at hout
        exact (Option.some.inj hout).symm
      · obtain ⟨calls, hrun⟩ := perform_of_error (o := .processCreate
          parent.raw name program) hw (by
            rw [create_of_issued hissue, EStateM.run_bind, hcallback])
        rw [step_createProcess_of_error hrun] at hout
        nomatch hout
    · rw [endState_create_of_issued hissue]
      obtain ⟨r'', hr'', hle⟩ := grows_run R
        (options.onProcessCreate (KernelOld.processAfter r.created))
        { w.kernels.state with kernel := k } r' hk
      exact ⟨r'', hr'', by omega⟩

theorem step_in_order (hw : OverKernel R options w)
    (hr : Represents w.kernels.state.kernel r)
    (hoperation : call.operation = some o) :
    let w' := ((sdk OldKernel).step w call).1
    OverKernel R options w' ∧
      ∃ r', Represents w'.kernels.state.kernel r' ∧ r.created ≤ r'.created ∧
        ∀ handle, handedOut ((sdk OldKernel).step w call).2 = some handle →
          handle = r.created + 2 ∧ r.created < r'.created := by
  intro w'
  obtain ⟨hw', hstate⟩ := endState_perform hw o
  have hend : w' = endState o.perform w :=
    (sdk_step_fst w call).trans (endState_call hoperation)
  rw [hend, hstate]
  refine ⟨hw', ?_⟩
  rcases hout : handedOut ((sdk OldKernel).step w call).2 with _ | handle
  · obtain ⟨r', hr', hle⟩ := grows_kernelMethod R options o
      w.kernels.state r hr
    exact ⟨r', hr', hle, nofun⟩
  · obtain ⟨parent, name, program, rfl⟩ : ∃ parent name program,
        call = .createProcess parent name program := by
      by_contra hcall
      rw [handedOut_of_ne_createProcess fun parent name program heq =>
        hcall ⟨parent, name, program, heq⟩] at hout
      nomatch hout
    obtain rfl := Option.some.inj hoperation
    obtain ⟨hhandle, r', hr', hlt⟩ := handedOut_createProcess hw hr hout
    refine ⟨r', hr', Nat.le_of_lt hlt, fun _ heq => ?_⟩
    obtain rfl := Option.some.inj heq
    exact ⟨hhandle, hlt⟩

/-- A call that installs nothing is for an operation. -/
theorem exists_operation (call : SdkCall OldKernel)
    (hplain : ∀ installation, call ≠ .install installation) :
    ∃ o, call.operation = some o := by
  cases call with
  | install installation => exact absurd rfl (hplain installation)
  | operate channel op => cases op <;> exact ⟨_, rfl⟩
  | _ => exact ⟨_, rfl⟩

theorem exec_in_order (hw : OverKernel R options w)
    (hr : Represents w.kernels.state.kernel r)
    (calls : List (SdkCall OldKernel))
    (hplain : ∀ installation, .install installation ∉ calls) :
    let handles := ((sdk OldKernel).trace w calls).filterMap handed
    ∃ r', Represents ((sdk OldKernel).exec w calls).kernels.state.kernel r' ∧
      r.created ≤ r'.created ∧ handles.Pairwise (· < ·) ∧
      ∀ handle ∈ handles, r.created + 2 ≤ handle ∧
        handle < r'.created + 2 := by
  induction calls generalizing w r with
  | nil => exact ⟨r, hr, Nat.le_refl _, .nil, nofun⟩
  | cons call calls ih =>
      obtain ⟨o, hoperation⟩ := exists_operation call
        fun installation heq => hplain installation (heq ▸ List.mem_cons_self)
      obtain ⟨hw₁, r₁, hr₁, hle₁, hout⟩ := step_in_order hw hr hoperation
      obtain ⟨r', hr', hle', hordered, hbetween⟩ := ih hw₁ hr₁
        fun installation hmem =>
          hplain installation (List.mem_cons_of_mem _ hmem)
      refine ⟨r', hr', Nat.le_trans hle₁ hle', ?_⟩
      rw [Machine.trace_cons]
      rcases hreply : handed ((sdk OldKernel).event w call) with _ | handle
      · rw [List.filterMap_cons_none hreply]
        refine ⟨hordered, fun handle hmem => ?_⟩
        have hbounds := hbetween handle hmem
        omega
      · obtain ⟨rfl, hlt⟩ := hout handle hreply
        rw [List.filterMap_cons_some hreply]
        constructor
        · refine List.pairwise_cons.mpr ⟨fun handle hmem => ?_, hordered⟩
          have hbounds := hbetween handle hmem
          omega
        · intro handle hmem
          rcases List.mem_cons.mp hmem with rfl | hmem
          · omega
          · have hbounds := hbetween handle hmem
            omega

end

/-- End to end: the handles of the processes that a program gets are handed out
in increasing order, whatever the callbacks do, so that none is handed out
twice; and at the end of the program each of them is the handle and the koid of
the process that was made for it. -/
theorem sdk_hands_out_in_order (R : Rounding) (options : KernelOptions)
    (calls : List (SdkCall OldKernel))
    (hplain : ∀ installation, .install installation ∉ calls) :
    let events := (sdk OldKernel).trace (overKernel R options) calls
    let handles := events.filterMap handed
    let final := ((sdk OldKernel).exec (overKernel R options) calls
      ).kernels.state.kernel
    handles.Pairwise (· < ·) ∧
      ∀ handle ∈ handles, handle ≤ KernelOld.capacity + 1 ∧
        final.handles handle = some ⟨handle, KernelOld.rightsOf handle⟩ ∧
        ∃ ref, final.kobjects handle = some ⟨ref, .process, handle⟩ := by
  intro events handles final
  have hover : OverKernel R options (overKernel R options) := ⟨rfl, rfl, rfl⟩
  obtain ⟨r, hr, -, hordered, hbetween⟩ := exec_in_order hover
    KernelOld.represents_new calls hplain
  refine ⟨hordered, fun handle hmem => ?_⟩
  obtain ⟨hge, hlt⟩ : 2 ≤ handle ∧ handle < r.created + 2 :=
    hbetween handle hmem
  have hlookup := r.lookup_of_mem ⟨hge, hlt⟩
  refine ⟨?_, ?_, ?_⟩
  · have hle := r.created_le
    omega
  · rw [hr.handles, hlookup]
    rfl
  · have hid : ((handle - 2).toNat : ℤ) + 2 = handle := by omega
    refine ⟨(handle - 2).toNat + 1, ?_⟩
    rw [hr.kobjects, hlookup, KernelOld.processAfter, hid]

/-- The kernel's callback for the first process creates another one, so that
the program gets the first and the third process. -/
theorem sdk_hands_out_in_order_nested :
    let options : KernelOptions :=
      { onProcessCreate := fun process =>
          if process.id = 2 then
            .processCreate 1 "helper" 0 (fun _ => .ret) fun _ => .ret
          else .ret
        onProcessStart := fun _ => .ret }
    let calls : List (SdkCall OldKernel) :=
      [.createProcess ⟨⟨1⟩⟩ "first" 0, .createProcess ⟨⟨1⟩⟩ "second" 0]
    let handles :=
      ((sdk OldKernel).trace (overKernel .double options) calls).filterMap
        handed
    handles = [2, 4] ∧ handles.Pairwise (· < ·) :=
  ⟨by decide, (sdk_hands_out_in_order .double _ _ (by simp)).1⟩

end Fiber.SdkOld
