import Fiber.Kernel.Syscall.ProcessStart

/-!
# The argument handle of `sys_process_start`

The argument leaves the table of the caller on every path on which the syscall
returns.  Where it fails, also after the handle has reached the new process,
nothing else is different in any table.  Where it succeeds, the handle lies in
the table of the new process, and only there.

A process may start itself, and then the value that the argument has just left
is free again.
-/

namespace Fiber.Kernel

open Fiber.Support Placement

/-- The argument has been taken out, and nothing else has changed.  If no handle
lay in two places, the argument lies in no table any more. -/
structure ArgumentGone (up : ProcessDispatcher) (arg1HandleValue : FxHandle)
    (tables tables' : HandleTables) : Prop where
  emptied : tables'.slots (up.ref, arg1HandleValue) = none
  kept : ∀ slot, slot ≠ (up.ref, arg1HandleValue) →
    tables'.slots slot = tables.slots slot
  gone : tables.slots.Linear → ∀ handle,
    tables.slots (up.ref, arg1HandleValue) = some handle →
    ∀ slot, tables'.slots slot ≠ some handle
  linear : tables.slots.Linear → tables'.slots.Linear

/-- The argument, if there is one, lies in the table of the process under
`argNhv`, which was free, and nothing else has changed.  If no handle lay in two
places, the argument lies there only. -/
structure ArgumentMoved (up process : ProcessDispatcher)
    (arg1HandleValue argNhv : FxHandle) (tables tables' : HandleTables) :
    Prop where
  transferable : ∀ handle,
    tables.slots (up.ref, arg1HandleValue) = some handle →
    handle.hasRights fxRightTransfer = true
  stored : ∀ handle, tables.slots (up.ref, arg1HandleValue) = some handle →
    tables'.slots (process.ref, argNhv) = some handle
  free : (process.ref, argNhv) ≠ (up.ref, arg1HandleValue) →
    tables.slots (process.ref, argNhv) = none
  emptied : (process.ref, argNhv) ≠ (up.ref, arg1HandleValue) →
    tables'.slots (up.ref, arg1HandleValue) = none
  absent : tables.slots (up.ref, arg1HandleValue) = none →
    argNhv = fxInvalidHandle ∧ tables'.slots = tables.slots
  kept : ∀ slot, slot ≠ (up.ref, arg1HandleValue) →
    slot ≠ (process.ref, argNhv) → tables'.slots slot = tables.slots slot
  stored_once : tables.slots.Linear → ∀ handle,
    tables.slots (up.ref, arg1HandleValue) = some handle →
    ∀ slot, tables'.slots slot = some handle ↔ slot = (process.ref, argNhv)
  linear : tables.slots.Linear → tables'.slots.Linear

variable {ρ : Type}

/-- Code that leaves the handle tables as they are when it returns. -/
def KeepsTables (code : Js (Custody ρ) Unit) : Prop :=
  ∀ r r', code.run r = .ok () r' → r'.rest.tables = r.rest.tables

/-- The syscall ended with OK in `r'`: one thread was started, with `entry`,
and the embedder began in `entered` and ended in `r'`. -/
structure StartedProcess (env : StartEnvironment ρ) (args : ProcessStartArgs)
    (up : ProcessDispatcher) (r entered r' : Realm (Custody ρ))
    (process : ProcessDispatcher) (entry : EntryState) : Prop where
  found : env.processLookup args r up = (Status.ok.number, process)
  start : entered.rest.starts = r.rest.starts ++ [entry]
  moved : ArgumentMoved up process args.arg1HandleValue entry.argNhv
    r.rest.tables entered.rest.tables
  embedder : (scope ⟨process⟩ (env.onProcessStart args.pc 0)).run entered =
    .ok () r'
  tables_kept : KeepsTables (env.onProcessStart args.pc 0) →
    r'.rest.tables = entered.rest.tables

/-- A call that began in `r` and returned `status` in `r'` has moved its
argument: one that failed has taken it out of the table of the caller and
changed nothing else, and one that succeeded has put it into the table of the
process. -/
def MovesArgument (env : StartEnvironment ρ) (args : ProcessStartArgs)
    (r : Realm (Custody ρ)) (status : Option FxStatus)
    (r' : Realm (Custody ρ)) : Prop :=
  ∃ up, ProcessDispatcher.getCurrent r.tlScopes = .ok up ∧
    (status ≠ some Status.ok.number →
      ArgumentGone up args.arg1HandleValue r.rest.tables r'.rest.tables) ∧
    (status = some Status.ok.number → ∃ process entry entered,
      StartedProcess env args up r entered r' process entry)

/-! ## The tables -/

section

variable {env : StartEnvironment ρ} {args : ProcessStartArgs}
  {r r' : Realm (Custody ρ)} {up process : ProcessDispatcher}
  {handle : HandleOwner} {argNhv : FxHandle} {tables : HandleTables}

theorem slots_taking : (r.taking up args).rest.tables.slots =
    r.rest.tables.slots.take (up.ref, args.arg1HandleValue) :=
  HandleTables.slots_removeHandle

/-- A handle that is delivered lies under a value that was free. -/
theorem slots_deliver
    (h : r.deliver env process (some handle) = (argNhv, r')) :
    r.rest.tables.slots (process.ref, argNhv) = none ∧
      r'.rest.tables.slots =
        r.rest.tables.slots.put (process.ref, argNhv) handle := by
  obtain ⟨rfl, rfl⟩ := Prod.mk.inj h
  exact ⟨(env.mapHandleToValue _ handle).free, HandleTables.slots_addHandle _⟩

theorem starts_deliver {argument : Option HandleOwner}
    (h : r.deliver env process argument = (argNhv, r')) :
    r'.rest.starts = r.rest.starts := by
  rcases argument with _ | handle <;>
  obtain ⟨-, rfl⟩ := Prod.mk.inj h <;>
  rfl

theorem argumentGone_of_take {arg1HandleValue : FxHandle}
    {tables' : HandleTables}
    (h : tables'.slots = tables.slots.take (up.ref, arg1HandleValue)) :
    ArgumentGone up arg1HandleValue tables tables' where
  emptied := by rw [h, take_self]
  kept := by
    intro slot hslot
    rw [h, take_of_ne hslot]
  gone := by
    intro hlinear handle hhandle
    rw [h]
    exact hlinear.absent_take hhandle
  linear := by
    intro hlinear
    rw [h]
    exact hlinear.take _

/-- A failed start takes back what it delivered. -/
theorem slots_remove_deliver
    (h : (r.taking up args).deliver env process (r.argument up args) =
      (argNhv, r')) :
    (r'.remove process argNhv).rest.tables.slots =
      r.rest.tables.slots.take (up.ref, args.arg1HandleValue) := by
  have hremove : (r'.remove process argNhv).rest.tables.slots =
      r'.rest.tables.slots.take (process.ref, argNhv) :=
    HandleTables.slots_removeHandle
  rw [hremove]
  rcases hargument : r.argument up args with _ | handle
  · rw [hargument] at h
    obtain ⟨rfl, rfl⟩ := Prod.mk.inj h
    rw [take_eq_self HandleTables.slots_invalid, slots_taking]
  · rw [hargument] at h
    obtain ⟨hfree, hslots⟩ := slots_deliver h
    rw [hslots, take_put hfree, slots_taking]

theorem argumentMoved_of_deliver
    (hargument : MayTransfer (r.argument up args))
    (h : (r.taking up args).deliver env process (r.argument up args) =
      (argNhv, r')) :
    ArgumentMoved up process args.arg1HandleValue argNhv r.rest.tables
      r'.rest.tables := by
  rw [Realm.argument] at *
  rcases hhandle : r.rest.tables.slots (up.ref, args.arg1HandleValue) with
    _ | handle
  · rw [hhandle] at h
    obtain ⟨rfl, rfl⟩ := Prod.mk.inj h
    have hslots : (r.taking up args).rest.tables.slots =
        r.rest.tables.slots := by
      rw [slots_taking, take_eq_self hhandle]
    have hnone : ∀ handle, r.rest.tables.slots
        (up.ref, args.arg1HandleValue) ≠ some handle := by
      intro handle hsome
      rw [hhandle] at hsome
      nomatch hsome
    constructor
    case transferable => exact fun handle hsome => absurd hsome (hnone handle)
    case stored => exact fun handle hsome => absurd hsome (hnone handle)
    case free => exact fun _ => HandleTables.slots_invalid
    case emptied =>
      intro _
      rw [hslots, hhandle]
    case absent => exact fun _ => ⟨rfl, hslots⟩
    case kept =>
      intro slot _ _
      rw [hslots]
    case stored_once =>
      exact fun _ handle hsome => absurd hsome (hnone handle)
    case linear =>
      intro hlinear
      rw [hslots]
      exact hlinear
  · rw [hhandle] at h hargument
    obtain ⟨hfree, hslots⟩ := slots_deliver h
    rw [slots_taking] at hfree hslots
    constructor
    case transferable =>
      intro handle' hsome
      rw [hhandle] at hsome
      exact hargument handle' hsome
    case stored =>
      intro handle' hsome
      rw [hslots, put_self, ← hsome, hhandle]
    case free =>
      intro hne
      rw [take_of_ne hne] at hfree
      exact hfree
    case emptied =>
      intro hne
      rw [hslots, put_of_ne hne.symm, take_self]
    case absent =>
      intro hnone
      rw [hhandle] at hnone
      nomatch hnone
    case kept =>
      intro slot hsource htarget
      rw [hslots, put_of_ne htarget, take_of_ne hsource]
    case stored_once =>
      intro hlinear handle' hsome slot
      obtain rfl := Option.some.inj (hhandle.symm.trans hsome)
      rw [hslots]
      exact put_eq_some_iff (hlinear.absent_take hhandle)
    case linear =>
      intro hlinear
      rw [hslots]
      exact (hlinear.take _).put (hlinear.absent_take hhandle) _

/-- The embedder began in the scope of the process, and did not throw. -/
theorem runProcess_eq_ok {status : Option FxStatus}
    (h : (runProcess env args process).run r = .ok status r') :
    status = some Status.ok.number ∧
      (scope ⟨process⟩ (env.onProcessStart args.pc 0)).run r = .ok () r' := by
  rw [runProcess, EStateM.run_bind] at h
  rcases hscope : (scope ⟨process⟩ (env.onProcessStart args.pc 0)).run r with
    ⟨⟨⟩, r''⟩ | ⟨e, r''⟩
  · rw [hscope] at h
    obtain ⟨hstatus, rfl⟩ := EStateM.Result.ok.inj h
    exact ⟨hstatus.symm, rfl⟩
  · rw [hscope] at h
    nomatch h

theorem scope_keepsTables {fn : Js (Custody ρ) Unit} (hfn : KeepsTables fn)
    (context : ProcessContext) : KeepsTables (scope context fn) := by
  intro r r' h
  rw [scope, EStateM.run_bind, EStateM.run_modify] at h
  simp only [EStateM.run_bind] at h
  rcases hrun : fn.run { r with tlScopes := r.tlScopes ++ [context] } with
    ⟨⟨⟩, r''⟩ | ⟨e, r''⟩
  · rw [hrun] at h
    obtain ⟨-, rfl⟩ := EStateM.Result.ok.inj h
    have hkept := hfn _ _ hrun
    exact hkept
  · rw [hrun] at h
    nomatch h

end

/-! ## The syscall -/

/-- The argument is taken before every exit, so the exits that start nothing
differ in their status only. -/
theorem movesArgument_of_failed {env : StartEnvironment ρ}
    {args : ProcessStartArgs} {r r' r'' : Realm (Custody ρ)}
    {status status' : Option FxStatus} {up : ProcessDispatcher}
    (hcurrent : ProcessDispatcher.getCurrent r.tlScopes = .ok up)
    (hstatus : status' ≠ some Status.ok.number)
    (hslots : r''.rest.tables.slots =
      r.rest.tables.slots.take (up.ref, args.arg1HandleValue))
    (hresult : (.ok status r' : EStateM.Result JsError _ _) =
      .ok status' r'') : MovesArgument env args r status r' := by
  obtain ⟨rfl, rfl⟩ := EStateM.Result.ok.inj hresult
  exact ⟨up, hcurrent, fun _ => argumentGone_of_take hslots,
    fun hok => absurd hok hstatus⟩

/-- Whatever it relies on, and from all tables, `sys_process_start` moves its
argument handle. -/
theorem process_start_moves_argument (env : StartEnvironment ρ)
    (args : ProcessStartArgs) {r r' : Realm (Custody ρ)}
    {status : Option FxStatus}
    (hrun : (sysProcessStart env args).run r = .ok status r') :
    MovesArgument env args r status r' := by
  have hending := sysProcessStart_ending env args r
  rw [hrun] at hending
  generalize hresult : EStateM.Result.ok status r' = result at hending
  cases hending with
  | noCurrent => nomatch hresult
  | noProcess hcurrent _ hstatus =>
      have hne := mt Option.some.inj hstatus
      exact movesArgument_of_failed hcurrent hne slots_taking hresult
  | noThread hcurrent _ _ hstatus =>
      have hne := mt Option.some.inj hstatus
      exact movesArgument_of_failed hcurrent hne slots_taking hresult
  | foreignThread hfound =>
      have hne := mt Option.some.inj env.zxErrAccessDenied_ne
      exact movesArgument_of_failed hfound.current hne slots_taking hresult
  | noTransfer hfound =>
      have hne : none ≠ some Status.ok.number := nofun
      exact movesArgument_of_failed hfound.current hne slots_taking hresult
  | notStarted hfound _ _ hdeliver hstatus =>
      have hne := mt Option.some.inj hstatus
      have hslots := slots_remove_deliver hdeliver
      refine movesArgument_of_failed hfound.current hne ?_ hresult
      exact hslots
  | @started up process thread argNhv entered hfound _ hargument hdeliver =>
      obtain ⟨rfl, hscope⟩ := runProcess_eq_ok hresult.symm
      refine ⟨up, hfound.current, fun hne => absurd rfl hne, fun _ =>
        ⟨process, args.entry argNhv, entered.starting (args.entry argNhv),
          hfound.processFound, ?_, ?_, hscope, ?_⟩⟩
      · have hstarts := starts_deliver hdeliver
        exact congrArg (· ++ [args.entry argNhv]) hstarts
      · have hmoved := argumentMoved_of_deliver hargument hdeliver
        exact hmoved
      · exact fun hkeeps => scope_keepsTables hkeeps _ _ _ hscope

/-! ## A process that starts itself -/

/-- One handle in the table of one process. -/
def HandleTables.single (process : ℕ) (fresh : HandleTable.empty.Fresh)
    (handle : HandleOwner) : HandleTables :=
  HandleTables.addHandle (fun _ => .empty) process fresh handle

theorem linear_single (process : ℕ) (fresh : HandleTable.empty.Fresh)
    (handle : HandleOwner) :
    (HandleTables.single process fresh handle).slots.Linear := by
  have hempty : HandleTables.slots (fun _ => HandleTable.empty) =
      fun _ => none := by
    funext slot
    exact Finmap.lookup_empty _
  rw [HandleTables.single, HandleTables.slots_addHandle, hempty]
  exact linear_empty.put absent_empty _

/-- Lookups that give one process and one thread of it, which starts. -/
def StartEnvironment.of (process : ProcessDispatcher)
    (mapHandleToValue : (table : HandleTable) → HandleOwner → table.Fresh) :
    StartEnvironment Unit where
  getProcessWithRights := fun _ _ _ _ => (1, process)
  getThreadWithRights := fun _ _ _ _ => (1, 0)
  threadProcess := fun _ => process.ref
  threadStart := fun _ _ _ => 1
  mapHandleToValue := mapHandleToValue
  zxErrAccessDenied := -30
  zxErrAccessDenied_ne := by decide
  onProcessStart := fun _ _ => pure ()

/-- A caller that has one handle, which may be transferred, under 5. -/
def oneHandle : Realm (Custody Unit) where
  tlScopes := [⟨⟨0, "bin"⟩⟩, ⟨⟨0, "bin"⟩⟩]
  rest :=
    { tables := .single 0 (HandleTable.empty.preferring 5) ⟨7, fxRightTransfer⟩
      starts := []
      rest := () }

def startWithHandle : ProcessStartArgs where
  processHandle := 1
  pc := 0
  arg1HandleValue := 5
  threadHandle := 2
  sp := 0
  arg2 := 0

theorem process_start_moves_argument_other :
    ∃ r', (sysProcessStart (.of ⟨1, "app"⟩ fun table _ => table.next)
          startWithHandle).run oneHandle = .ok (some 1) r' ∧
      (∃ process entry entered, StartedProcess
        (.of ⟨1, "app"⟩ fun table _ => table.next) startWithHandle
        ⟨0, "bin"⟩ oneHandle entered r' process entry) := by
  refine ⟨_, rfl, ?_⟩
  obtain ⟨up, hcurrent, -, hstarted⟩ := process_start_moves_argument
    (.of ⟨1, "app"⟩ fun table _ => table.next) startWithHandle
    (r := oneHandle) rfl
  obtain rfl := Except.ok.inj hcurrent
  exact hstarted rfl

/-- If the value is free and a process starts itself, the argument may stay
under the value it had. -/
theorem self_start_keeps_argument_value :
    oneHandle.rest.tables.slots.Linear ∧
      ProcessDispatcher.getCurrent oneHandle.tlScopes = .ok ⟨0, "bin"⟩ ∧
      oneHandle.rest.tables.slots (0, 5) = some ⟨7, fxRightTransfer⟩ ∧
      ∃ r', (sysProcessStart
            (.of ⟨0, "bin"⟩ fun table _ => table.preferring 5)
            startWithHandle).run oneHandle = .ok (some 1) r' ∧
        r'.rest.tables.slots (0, 5) = some ⟨7, fxRightTransfer⟩ :=
  ⟨linear_single _ _ _, rfl, rfl, _, rfl, rfl⟩

end Fiber.Kernel
