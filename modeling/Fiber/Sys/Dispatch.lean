import Fiber.KernelTypes
import Fiber.Support.Outcome

/-!
# Entry points

Each `fx_*` function calls the global `sys_*` function if the host has one, and
otherwise the method of the system that was installed last.  `fx_job_create` has
no second branch: it fails on a host without the global function, whatever is
installed.

The functions that are called are code of the host, and may install systems and
call entry points themselves.
-/

namespace Fiber.Sys

open Support

/-- The identity of an object that implements `System`. -/
abbrev System := ℕ

/-- The identity of a `Ref` object. -/
abbrev Ref := ℕ

inductive Entry
  | jobCreate
  | handleClose
  | processCreate
  | processStart
  | processExit
  | channelCreate
  deriving DecidableEq, Repr

/-- The name of a process.  It is declared as bytes, and the SDK passes a
string. -/
inductive ProcessName
  | bytes (bytes : List UInt8)
  | text (text : String)
  deriving DecidableEq, Repr

/-- A call of a `sys_*` function, with its arguments in order. -/
inductive SysCall
  | jobCreate (parentJob : FxHandle) (options : ℕ) (jobOut : Ref)
  | handleClose (handle : FxHandle)
  | processCreate (parent : FxHandle) (name : ProcessName)
      (nameSize options : ℕ) (procHandleOut vmarHandleOut : Ref)
  | processStart (handle : FxHandle) (entry : ℕ) (arg1 : FxHandle)
  | processExit (retcode : ℤ)
  | channelCreate (process : FxHandle) (out1 out2 : Ref)
  deriving DecidableEq, Repr

def SysCall.entry : SysCall → Entry
  | .jobCreate _ _ _ => .jobCreate
  | .handleClose _ => .handleClose
  | .processCreate _ _ _ _ _ _ => .processCreate
  | .processStart _ _ _ => .processStart
  | .processExit _ => .processExit
  | .channelCreate _ _ _ => .channelCreate

/-- Whose function is called: the global object's, or a system's. -/
inductive Callee
  | global
  | system (system : System)
  deriving DecidableEq, Repr

inductive Event
  | installed (system : System)
  | called (callee : Callee) (call : SysCall)
  deriving DecidableEq, Repr

def Event.installation : Event → Option System
  | .installed system => some system
  | .called _ _ => none

/-- The system installed last. -/
def lastInstalled (log : List Event) : Option System :=
  (log.filterMap Event.installation).getLast?

/-- The module variable `sys`, and what has happened so far, oldest first. -/
structure Host where
  sys : Option System
  log : List Event
  current : sys = lastInstalled log

/-- Code that may throw, over a host. -/
abbrev HostCode := EStateM JsError Host

namespace Host

/-- The host when the module is loaded. -/
def new : Host := ⟨none, [], rfl⟩

def install (h : Host) (system : System) : Host where
  sys := some system
  log := h.log ++ [.installed system]
  current := by
    rw [lastInstalled, List.filterMap_append]
    exact List.getLast?_concat.symm

def call (h : Host) (callee : Callee) (call : SysCall) : Host where
  sys := h.sys
  log := h.log ++ [.called callee call]
  current := by
    have hnone : [Event.called callee call].filterMap Event.installation =
      [] := rfl
    rw [lastInstalled, List.filterMap_append, hnone, List.append_nil]
    exact h.current

end Host

def init (system : System) : HostCode System :=
  modifyGet fun h => (system, h.install system)

section

variable {ρ : Type} (self : Entry → Bool)
  (behaves : Callee → SysCall → HostCode ρ)

/-- Call a function of the host; `behaves` is what these functions do. -/
def invoke (callee : Callee) (call : SysCall) : HostCode ρ := do
  modify fun h => h.call callee call
  behaves callee call

def fxJobCreate (parentJob : FxHandle) (options : ℕ) (jobOut : Ref) :
    HostCode ρ :=
  if self .jobCreate then
    invoke behaves .global (.jobCreate parentJob options jobOut)
  else throw (.error "system is not initialized")

/-- The body that the other entry points share. -/
def dispatch (call : SysCall) : HostCode ρ := do
  if self call.entry then invoke behaves .global call
  else
    let h ← get
    match h.sys with
    | some system => invoke behaves (.system system) call
    | none => throw (.error "system is not initialized")

def fxHandleClose (handle : FxHandle) : HostCode ρ :=
  dispatch self behaves (.handleClose handle)

def fxProcessCreate (parent : FxHandle) (name : ProcessName)
    (nameSize options : ℕ) (procHandleOut vmarHandleOut : Ref) :
    HostCode ρ :=
  dispatch self behaves
    (.processCreate parent name nameSize options procHandleOut vmarHandleOut)

def fxProcessStart (handle : FxHandle) (entry : ℕ) (arg1 : FxHandle) :
    HostCode ρ :=
  dispatch self behaves (.processStart handle entry arg1)

def fxProcessExit (retcode : ℤ) : HostCode ρ :=
  dispatch self behaves (.processExit retcode)

def fxChannelCreate (process : FxHandle) (out1 out2 : Ref) : HostCode ρ :=
  dispatch self behaves (.channelCreate process out1 out2)

/-- The entry point for a call, on the arguments of the call. -/
def fx : SysCall → HostCode ρ
  | .jobCreate parentJob options jobOut =>
      fxJobCreate self behaves parentJob options jobOut
  | .handleClose handle => fxHandleClose self behaves handle
  | .processCreate parent name nameSize options procHandleOut vmarHandleOut =>
      fxProcessCreate self behaves parent name nameSize options procHandleOut
        vmarHandleOut
  | .processStart handle entry arg1 =>
      fxProcessStart self behaves handle entry arg1
  | .processExit retcode => fxProcessExit self behaves retcode
  | .channelCreate process out1 out2 =>
      fxChannelCreate self behaves process out1 out2

end

/-! ## Code of the host -/

/-- Code that installs systems and calls entry points, as a tree.  A call
carries what the functions of the host do during it. -/
inductive Code (ρ : Type)
  | ret (result : ρ)
  | fail (e : JsError)
  | init (system : System) (next : Code ρ)
  | call (made : SysCall) (behaves : Callee → SysCall → Code ρ)
      (next : Except JsError ρ → Code ρ)

def Code.run {ρ : Type} (self : Entry → Bool) : Code ρ → HostCode ρ
  | .ret result => pure result
  | .fail e => throw e
  | .init system next => do
      discard (Sys.init system)
      next.run self
  | .call made behaves next => do
      let outcome ← captured
        (fx self (fun callee made => (behaves callee made).run self) made)
      (next outcome).run self

/-! ## One call -/

section

variable {ρ : Type} {self : Entry → Bool} {h : Host}
  {behaves : Callee → SysCall → HostCode ρ} {made : SysCall}

theorem dispatch_of_global (hself : self made.entry = true) :
    dispatch self behaves made = invoke behaves .global made := by
  rw [dispatch, if_pos hself]

theorem dispatch_of_system {system : System}
    (hself : self made.entry = false) (hsys : h.sys = some system) :
    (dispatch self behaves made).run h =
      (invoke behaves (.system system) made).run h := by
  simp only [dispatch, hself, Bool.false_eq_true, if_false, EStateM.run_bind,
    EStateM.run_get, hsys]

theorem dispatch_of_neither (hself : self made.entry = false)
    (hsys : h.sys = none) :
    (dispatch self behaves made).run h =
      .error (.error "system is not initialized") h := by
  simp only [dispatch, hself, Bool.false_eq_true, if_false, EStateM.run_bind,
    EStateM.run_get, hsys]
  rfl

theorem fx_of_entry_ne (hentry : made.entry ≠ .jobCreate) :
    fx self behaves made = dispatch self behaves made := by
  cases made with
  | jobCreate => exact absurd rfl hentry
  | handleClose | processCreate | processStart | processExit
  | channelCreate => rfl

theorem fx_job_of_global (hentry : made.entry = .jobCreate)
    (hself : self .jobCreate = true) :
    fx self behaves made = invoke behaves .global made := by
  cases made with
  | jobCreate => exact if_pos hself
  | handleClose | processCreate | processStart | processExit
  | channelCreate => nomatch hentry

/-- Without the global function `fx_job_create` fails in every state. -/
theorem fx_job_of_not_global (hentry : made.entry = .jobCreate)
    (hself : self .jobCreate = false) (h : Host) :
    (fx self behaves made).run h =
      .error (.error "system is not initialized") h := by
  cases made with
  | jobCreate => simp only [fx, fxJobCreate, hself]; rfl
  | handleClose | processCreate | processStart | processExit
  | channelCreate => nomatch hentry

/-- Every entry point calls one function of the host, or fails and calls
none. -/
theorem fx_cases (self : Entry → Bool)
    (behaves : Callee → SysCall → HostCode ρ) (made : SysCall) (h : Host) :
    (∃ callee, (fx self behaves made).run h =
      (invoke behaves callee made).run h) ∨
    (fx self behaves made).run h =
      .error (.error "system is not initialized") h := by
  by_cases hentry : made.entry = .jobCreate
  · rcases hself : self .jobCreate with _ | _
    · exact .inr (fx_job_of_not_global hentry hself h)
    · exact .inl ⟨.global, by rw [fx_job_of_global hentry hself]⟩
  · rw [fx_of_entry_ne hentry]
    rcases hself : self made.entry with _ | _
    · rcases hsys : h.sys with _ | system
      · exact .inr (dispatch_of_neither hself hsys)
      · exact .inl ⟨.system system, dispatch_of_system hself hsys⟩
    · exact .inl ⟨.global, by rw [dispatch_of_global hself]⟩

end

/-! ## The log -/

section

variable {ρ : Type} {self : Entry → Bool}

theorem prefix_invoke {behaves : Callee → SysCall → HostCode ρ}
    {callee : Callee} {made : SysCall} {h : Host}
    (hbehaves : ∀ h, h.log <+: (endState (behaves callee made) h).log) :
    h.log ++ [.called callee made] <+:
      (endState (invoke behaves callee made) h).log := by
  rw [invoke, endState_bind (EStateM.run_modify _ h)]
  exact hbehaves (h.call callee made)

theorem prefix_fx {behaves : Callee → SysCall → HostCode ρ} {made : SysCall}
    (hbehaves : ∀ callee h,
      h.log <+: (endState (behaves callee made) h).log) (h : Host) :
    h.log <+: (endState (fx self behaves made) h).log := by
  rcases fx_cases self behaves made h with ⟨callee, hrun⟩ | hrun
  · have hinvoke := prefix_invoke (h := h) (hbehaves callee)
    rw [endState, hrun]
    exact (List.prefix_append _ _).trans hinvoke
  · simp only [endState_of_error hrun, List.prefix_refl]

/-- Code only adds to the log. -/
theorem Code.prefix_run (code : Code ρ) (h : Host) :
    h.log <+: (endState (code.run self) h).log := by
  induction code generalizing h with
  | ret result => exact List.prefix_refl _
  | fail e => exact List.prefix_refl _
  | init system next hnext =>
      have hfirst : h.log <+: (h.install system).log := List.prefix_append _ _
      exact hfirst.trans (hnext (h.install system))
  | call made behaves next hbehaves hnext =>
      obtain ⟨outcome, hrun⟩ := exists_captured
        (fx self (fun callee made => (behaves callee made).run self) made) h
      rw [Code.run, endState_bind hrun]
      exact (prefix_fx (fun callee h => hbehaves callee made h) h).trans
        (hnext outcome _)

end

/-! ## The rule -/

section

variable {ρ : Type} (self : Entry → Bool)
  (behaves : Callee → SysCall → HostCode ρ)

/-- The call `made` in state `h` follows the rule: the global function if it is
present, else the method of the system installed last, else an exception. -/
structure FollowsRule (made : SysCall) (h : Host) : Prop where
  global : self made.entry = true →
    (fx self behaves made).run h = (invoke behaves .global made).run h
  installed : self made.entry = false →
    ∀ system, lastInstalled h.log = some system →
      (fx self behaves made).run h =
        (invoke behaves (.system system) made).run h
  neither : self made.entry = false → lastInstalled h.log = none →
    (fx self behaves made).run h =
      .error (.error "system is not initialized") h

end

section

variable {ρ : Type} {self : Entry → Bool} {made : SysCall} {h : Host}

theorem followsRule_of_entry_ne {behaves : Callee → SysCall → HostCode ρ}
    (hentry : made.entry ≠ .jobCreate) :
    FollowsRule self behaves made h where
  global := by
    intro hself
    rw [fx_of_entry_ne hentry, dispatch_of_global hself]
  installed := by
    intro hself system hlast
    rw [fx_of_entry_ne hentry]
    exact dispatch_of_system hself (h.current.trans hlast)
  neither := by
    intro hself hlast
    rw [fx_of_entry_ne hentry]
    exact dispatch_of_neither hself (h.current.trans hlast)

theorem followsRule_job_of_global
    {behaves : Callee → SysCall → HostCode ρ}
    (hentry : made.entry = .jobCreate) (hself : self .jobCreate = true) :
    FollowsRule self behaves made h where
  global := by
    intro _
    rw [fx_job_of_global hentry hself]
  installed := by
    intro hself' _ _
    rw [hentry, hself] at hself'
    nomatch hself'
  neither := by
    intro hself' _
    rw [hentry, hself] at hself'
    nomatch hself'

/-- A call of the method would be in the log. -/
theorem not_followsRule_job {behaves : Callee → SysCall → Code ρ}
    {system : System} (hentry : made.entry = .jobCreate)
    (hself : self .jobCreate = false)
    (hlast : lastInstalled h.log = some system) :
    ¬ FollowsRule self (fun callee made => (behaves callee made).run self)
      made h := by
  rintro ⟨-, hinstalled, -⟩
  have hcalled := hinstalled (by rw [hentry, hself]) system hlast
  rw [fx_job_of_not_global hentry hself h] at hcalled
  have hlog : h.log ++ [.called (.system system) made] <+:
      (endState (invoke (fun callee made => (behaves callee made).run self)
        (.system system) made) h).log :=
    prefix_invoke (behaves _ made).prefix_run
  rw [endState_of_error hcalled.symm] at hlog
  have hlen := hlog.length_le
  rw [List.length_append, List.length_singleton] at hlen
  omega

end

/-- In every state that a history of installations and calls can leave, a call
follows the rule exactly if it is not of `fx_job_create`, or the global function
is there, or no system has been installed. -/
theorem fx_follows_rule_iff {ρ : Type} (self : Entry → Bool)
    (behaves : Callee → SysCall → Code ρ) (made : SysCall) (h : Host) :
    FollowsRule self (fun callee made => (behaves callee made).run self)
        made h ↔
      made.entry ≠ .jobCreate ∨ self .jobCreate = true ∨
        lastInstalled h.log = none := by
  by_cases hentry : made.entry = .jobCreate
  · rcases hself : self .jobCreate with _ | _
    · rcases hlast : lastInstalled h.log with _ | system
      · refine iff_of_true ⟨?_, ?_, ?_⟩ (.inr (.inr rfl))
        · intro hself'
          rw [hentry, hself] at hself'
          nomatch hself'
        · intro _ system hsystem
          rw [hlast] at hsystem
          nomatch hsystem
        · intro _ _
          exact fx_job_of_not_global hentry hself h
      · refine iff_of_false (not_followsRule_job hentry hself hlast) ?_
        rintro (hne | hglobal | hnone)
        · exact hne hentry
        · nomatch hglobal
        · nomatch hnone
    · exact iff_of_true (followsRule_job_of_global hentry hself)
        (.inr (.inl rfl))
  · exact iff_of_true (followsRule_of_entry_ne hentry) (.inl hentry)

/-- An embedder without global functions that installs its kernel: creating a
job fails. -/
theorem not_followsRule_embedded :
    let self : Entry → Bool := fun _ => false
    let h := endState ((Code.init 7 (.ret 0)).run self) Host.new
    ¬ FollowsRule self (fun _ _ => (Code.ret 0).run self)
      (.jobCreate 1 0 0) h := by
  intro self h
  have hlast : lastInstalled h.log = some 7 := rfl
  exact not_followsRule_job rfl rfl hlast

end Fiber.Sys
