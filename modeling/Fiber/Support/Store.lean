import Mathlib.Data.Nat.Notation
import Mathlib.Logic.Function.Basic

/-!
# Object stores

Objects that are shared by reference live in a store: a reference is a number,
references are handed out in order, and an object never moves.  A reference
that has not been handed out yet reads as the blank object the store started
with.
-/

namespace Fiber.Support

universe u

/-- A store of objects of type `β`; `next` is the first unused reference. -/
structure Store (β : Type u) where
  next : ℕ
  get : ℕ → β

namespace Store

variable {β : Type u}

/-- The store without objects, reading `blank` everywhere. -/
def empty (blank : β) : Store β where
  next := 0
  get := fun _ => blank

/-- The reference `r` names an object of the store. -/
def Allocated (s : Store β) (r : ℕ) : Prop := r < s.next

instance (s : Store β) (r : ℕ) : Decidable (s.Allocated r) :=
  inferInstanceAs (Decidable (r < s.next))

/-- Replace the object at `r`. -/
def set (s : Store β) (r : ℕ) (x : β) : Store β where
  next := s.next
  get := Function.update s.get r x

/-- Put a new object at the first unused reference. -/
def alloc (s : Store β) (x : β) : Store β where
  next := s.next + 1
  get := Function.update s.get s.next x

@[simp] theorem next_empty (blank : β) : (empty blank).next = 0 := rfl

@[simp] theorem get_empty (blank : β) (r : ℕ) :
    (empty blank).get r = blank := rfl

@[simp] theorem get_set_self (s : Store β) (r : ℕ) (x : β) :
    (s.set r x).get r = x := by
  simp [set]

theorem get_set_of_ne (s : Store β) {r q : ℕ} (h : q ≠ r) (x : β) :
    (s.set r x).get q = s.get q := by
  simp [set, h]

theorem get_set (s : Store β) (r q : ℕ) (x : β) :
    (s.set r x).get q = if q = r then x else s.get q := by
  simp [set, Function.update_apply]

/-- A reflexive relation that holds between the old and the new object at `r`
holds at every reference. -/
theorem get_set_rel (s : Store β) {R : β → β → Prop} (hrefl : ∀ x, R x x)
    {r : ℕ} {x : β} (hx : R (s.get r) x) (q : ℕ) :
    R (s.get q) ((s.set r x).get q) := by
  by_cases hq : q = r
  · subst q
    rwa [get_set_self]
  · rw [s.get_set_of_ne hq]
    exact hrefl _

theorem set_comm (s : Store β) {r q : ℕ} (h : r ≠ q) (x y : β) :
    (s.set r x).set q y = (s.set q y).set r x := by
  simp only [set, Function.update_comm h]

@[simp] theorem set_get_self (s : Store β) (r : ℕ) :
    s.set r (s.get r) = s := by
  simp [set]

@[simp] theorem get_alloc_self (s : Store β) (x : β) :
    (s.alloc x).get s.next = x := by
  simp [alloc]

theorem get_alloc_of_ne (s : Store β) {q : ℕ} (h : q ≠ s.next) (x : β) :
    (s.alloc x).get q = s.get q := by
  simp [alloc, h]

theorem get_alloc_of_allocated (s : Store β) {q : ℕ} (h : s.Allocated q)
    (x : β) : (s.alloc x).get q = s.get q :=
  s.get_alloc_of_ne (Nat.ne_of_lt h) x

/-- What `f` makes of each object. -/
def map {γ : Type u} (f : β → γ) (s : Store β) : Store γ where
  next := s.next
  get := f ∘ s.get

theorem map_set {γ : Type u} (f : β → γ) (s : Store β) (r : ℕ) (x : β) :
    (s.set r x).map f = (s.map f).set r (f x) := by
  simp only [map, set, Function.comp_update]

theorem map_alloc {γ : Type u} (f : β → γ) (s : Store β) (x : β) :
    (s.alloc x).map f = (s.map f).alloc (f x) := by
  simp only [map, alloc, Function.comp_update]

/-- An object is replaced by one that `f` does not tell from it. -/
theorem map_set_of_eq {γ : Type u} {f : β → γ} {s : Store β} {r : ℕ} {x : β}
    (h : f x = f (s.get r)) : (s.set r x).map f = s.map f := by
  rw [map_set, h]
  exact (s.map f).set_get_self r

theorem not_allocated_next (s : Store β) : ¬ s.Allocated s.next :=
  Nat.lt_irrefl _

theorem allocated_alloc (s : Store β) (x : β) (q : ℕ) :
    (s.alloc x).Allocated q ↔ s.Allocated q ∨ q = s.next :=
  Nat.lt_succ_iff_lt_or_eq

theorem Allocated.alloc {s : Store β} {q : ℕ} (h : s.Allocated q) (x : β) :
    (s.alloc x).Allocated q :=
  (s.allocated_alloc x q).mpr (Or.inl h)

end Store
end Fiber.Support
