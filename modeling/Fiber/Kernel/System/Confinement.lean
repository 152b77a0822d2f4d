import Fiber.Kernel.Syscall.ArgumentTransfer
import Fiber.Kernel.System.Userland

/-!
# Confinement of handles

Handles move between the tables of processes only as arguments of
`sys_process_start`, and only with the right to be transferred.  However user
code starts processes inside of processes, throws, catches and awaits, every
other handle stays where it was until it is dropped; no handle is made up, and
none comes to lie in two places.
-/

namespace Fiber.Kernel

open Fiber.Support Placement

/-- The handle may leave its table. -/
def Transferable (handle : HandleOwner) : Prop :=
  handle.hasRights fxRightTransfer = true

/-- Between the two states the handles were confined. -/
def HandlesConfined (r r' : KernelState) : Prop :=
  Confined Transferable r.tables.slots r'.tables.slots

section

variable {ρ : Type} {env : StartEnvironment ρ} {args : ProcessStartArgs}
  {r r' : Realm (Custody ρ)} {up process : ProcessDispatcher}
  {argNhv : FxHandle}

theorem confined_taking : Confined Transferable r.rest.tables.slots
    (r.taking up args).rest.tables.slots := by
  rw [slots_taking]
  exact .take _ _

theorem confined_deliver (hargument : MayTransfer (r.argument up args))
    (h : (r.taking up args).deliver env process (r.argument up args) =
      (argNhv, r')) :
    Confined Transferable r.rest.tables.slots r'.rest.tables.slots := by
  rcases hhandle : r.argument up args with _ | handle
  · rw [hhandle] at h
    obtain ⟨-, rfl⟩ := Prod.mk.inj h
    exact confined_taking
  · rw [hhandle] at h hargument
    rw [(slots_deliver h).2, slots_taking]
    exact .move (hargument handle rfl) hhandle

/-- A failed start takes back what it delivered. -/
theorem confined_remove_deliver
    (h : (r.taking up args).deliver env process (r.argument up args) =
      (argNhv, r')) :
    Confined Transferable r.rest.tables.slots
      (r'.remove process argNhv).rest.tables.slots := by
  rw [slots_remove_deliver h]
  exact .take _ _

/-- If the embedder's function confines the handles, the syscall does. -/
theorem confined_sysProcessStart
    (hentry : ∀ r, Confined Transferable r.rest.tables.slots
      (endState (env.onProcessStart args.pc 0) r).rest.tables.slots)
    (r : Realm (Custody ρ)) : Confined Transferable r.rest.tables.slots
      (endState (sysProcessStart env args) r).rest.tables.slots := by
  have hending := sysProcessStart_ending env args r
  rw [endState]
  generalize (sysProcessStart env args).run r = result at hending ⊢
  cases hending with
  | noCurrent => exact .refl _
  | noProcess | noThread | foreignThread | noTransfer => exact confined_taking
  | notStarted _ _ _ hdeliver =>
      have hremoved := confined_remove_deliver hdeliver
      exact hremoved
  | @started up process thread argNhv r' _ _ hargument hdeliver =>
      change Confined _ _ (endState (runProcess env args process)
        (r'.starting (args.entry argNhv))).rest.tables.slots
      rw [rest_endState_runProcess]
      refine (confined_deliver hargument hdeliver).trans ?_
      exact hentry { r'.starting (args.entry argNhv) with
        tlScopes := r'.tlScopes ++ [⟨process⟩] }

end

/-! ## Runs -/

theorem handlesConfined : Throughout HandlesConfined where
  refl r := .refl _
  trans _ _ _ h h' := h.trans h'
  processCreate env args r := by
    rw [endState_processCreate]
    exact .refl _
  processStart env args entry hentry := confined_sysProcessStart hentry
  userboot initial hinitial r := by
    rcases endState_startUserboot initial r with hend | hend
    · rw [hend]
      exact .refl _
    · have h := hinitial { r.booted with
        tlScopes := r.tlScopes ++ [r.userboot] }
      rw [hend]
      simp only [HandlesConfined, Realm.tables, rest_endState_scope] at h ⊢
      exact h
  pending r pending := .refl _
  observed r running moment _ := .refl _
  escaped r running := .refl _

/-- In every run of processes and of the event loop, nested in any way, a
handle that lies anywhere at the end lay there at the beginning, or it may be
transferred and lay somewhere at the beginning.  If no handle lay in two places,
none does. -/
theorem handles_confined (r : KernelState) (turns : List KernelTurn) :
    let r' := kernelMachine.exec r turns
    (∀ slot handle, r'.tables.slots slot = some handle →
      r.tables.slots slot = some handle ∨
        handle.hasRights fxRightTransfer = true ∧
          ∃ slot', r.tables.slots slot' = some handle) ∧
      (r.tables.slots.Linear → r'.tables.slots.Linear) := by
  have h := handlesConfined.exec r turns
  exact ⟨h.origin, h.linear⟩

end Fiber.Kernel
