import Fiber.KernelTypes
import Fiber.Support.Placement
import Mathlib.Data.Finmap
import Mathlib.Order.Lattice.Nat

/-!
# Handle tables

The methods of a handle table have no bodies in the source.  A table is taken
as a finite map from the values a process uses to the handles it owns; no
handle lies under the invalid value.  A new value is one that is not in use.
-/

namespace Fiber.Kernel

open Fiber.Support

/-- A handle, with its identity.  Nothing writes the rights after the handle
was made. -/
structure HandleOwner where
  ref : ℕ
  rights : FxRights
  deriving DecidableEq, Repr

def HandleOwner.hasRights (handle : HandleOwner) (rights : FxRights) : Bool :=
  handle.rights &&& rights = rights

structure HandleTable where
  entries : Finmap fun _ : FxHandle => HandleOwner
  invalid_free : entries.lookup fxInvalidHandle = none

namespace HandleTable

/-- A value under which the table has no handle yet. -/
structure Fresh (table : HandleTable) where
  value : FxHandle
  valid : value ≠ fxInvalidHandle
  free : table.entries.lookup value = none

def empty : HandleTable where
  entries := ∅
  invalid_free := Finmap.lookup_empty _

/-- Take the handle under `value` out, if there is one. -/
def removeHandle (table : HandleTable) (value : FxHandle) : HandleTable where
  entries := table.entries.erase value
  invalid_free := by
    by_cases h : fxInvalidHandle = value
    · rw [h, Finmap.lookup_erase]
    · rw [Finmap.lookup_erase_ne h]
      exact table.invalid_free

/-- Store a handle under a fresh value. -/
def addHandle (table : HandleTable) (fresh : table.Fresh)
    (handle : HandleOwner) : HandleTable where
  entries := table.entries.insert fresh.value handle
  invalid_free := by
    rw [Finmap.lookup_insert_of_ne _ fresh.valid.symm]
    exact table.invalid_free

/-- The value after the largest one in use. -/
def next (table : HandleTable) : table.Fresh where
  value := table.entries.keys.sup id + 1
  valid := Nat.succ_ne_zero _
  free := by
    rw [Finmap.lookup_eq_none, ← Finmap.mem_keys]
    intro hmem
    exact absurd (Finset.le_sup (f := id) hmem) (Nat.not_succ_le_self _)

/-- A given value if it can be used, and otherwise the next one. -/
def preferring (value : FxHandle) (table : HandleTable) : table.Fresh :=
  if h : value ≠ fxInvalidHandle ∧ table.entries.lookup value = none then
    ⟨value, h.1, h.2⟩
  else table.next

end HandleTable

/-! ## The tables of all processes -/

/-- The handle table of each process, by the identity of the process. -/
abbrev HandleTables := ℕ → HandleTable

/-- A place for a handle: a process and a value in its table. -/
abbrev Slot := ℕ × FxHandle

namespace HandleTables

/-- What lies where. -/
def slots (tables : HandleTables) : Placement Slot HandleOwner :=
  fun slot => (tables slot.1).entries.lookup slot.2

def removeHandle (tables : HandleTables) (process : ℕ) (value : FxHandle) :
    HandleTables :=
  Function.update tables process ((tables process).removeHandle value)

def addHandle (tables : HandleTables) (process : ℕ)
    (fresh : (tables process).Fresh) (handle : HandleOwner) : HandleTables :=
  Function.update tables process ((tables process).addHandle fresh handle)

variable {tables : HandleTables} {process : ℕ} {value : FxHandle}
  {handle : HandleOwner}

theorem slots_invalid : tables.slots (process, fxInvalidHandle) = none :=
  (tables process).invalid_free

/-- A new table of one process that differs under one value. -/
theorem slots_update {table : HandleTable} {item : Option HandleOwner}
    (hvalue : table.entries.lookup value = item)
    (hothers : ∀ v, v ≠ value →
      table.entries.lookup v = (tables process).entries.lookup v) :
    slots (Function.update tables process table) =
      Function.update tables.slots (process, value) item := by
  funext ⟨q, v⟩
  by_cases hq : q = process
  · subst q
    by_cases hv : v = value
    · subst v
      rw [Function.update_self, slots, Function.update_self]
      exact hvalue
    · have hne : (process, v) ≠ (process, value) :=
        fun heq => hv (Prod.mk.inj heq).2
      rw [Function.update_of_ne hne, slots, Function.update_self]
      exact hothers v hv
  · have hne : (q, v) ≠ (process, value) := fun heq => hq (Prod.mk.inj heq).1
    rw [Function.update_of_ne hne, slots, Function.update_of_ne hq, slots]

theorem slots_removeHandle :
    (tables.removeHandle process value).slots =
      tables.slots.take (process, value) :=
  slots_update (Finmap.lookup_erase _ _) fun _ hv => Finmap.lookup_erase_ne hv

theorem slots_addHandle (fresh : (tables process).Fresh) :
    (tables.addHandle process fresh handle).slots =
      tables.slots.put (process, fresh.value) handle :=
  slots_update (Finmap.lookup_insert _) fun _ hv =>
    Finmap.lookup_insert_of_ne _ hv

end HandleTables
end Fiber.Kernel
