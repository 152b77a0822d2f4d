import Mathlib.Logic.Function.Basic

/-!
# Placements

Items lie in slots, at most one in each.  A placement is linear when no item
lies in two slots; taking an item out and putting it back into a free slot
keeps it so.  Moving an item is the one followed by the other.
-/

namespace Fiber.Support

universe u v

/-- What lies in each slot. -/
abbrev Placement (κ : Type u) (α : Type v) := κ → Option α

namespace Placement

variable {κ : Type u} {α : Type v} {f : Placement κ α} {slot slot' : κ}
  {a b : α}

/-- No item lies in two slots. -/
def Linear (f : Placement κ α) : Prop :=
  ∀ slot slot' a, f slot = some a → f slot' = some a → slot = slot'

/-- The item lies in no slot. -/
def Absent (f : Placement κ α) (a : α) : Prop := ∀ slot, f slot ≠ some a

theorem linear_empty : Linear (fun _ => none : Placement κ α) := by
  intro slot slot' a h
  nomatch h

theorem absent_empty : Absent (fun _ => none : Placement κ α) a := by
  intro slot h
  nomatch h

variable [DecidableEq κ]

/-- Empty a slot. -/
def take (f : Placement κ α) (slot : κ) : Placement κ α :=
  Function.update f slot none

/-- Fill a slot. -/
def put (f : Placement κ α) (slot : κ) (a : α) : Placement κ α :=
  Function.update f slot (some a)

@[simp] theorem take_self : f.take slot slot = none := Function.update_self ..

theorem take_of_ne (h : slot' ≠ slot) : f.take slot slot' = f slot' :=
  Function.update_of_ne h ..

@[simp] theorem put_self : f.put slot a slot = some a := Function.update_self ..

theorem put_of_ne (h : slot' ≠ slot) : f.put slot a slot' = f slot' :=
  Function.update_of_ne h ..

/-- Taking from an empty slot changes nothing. -/
theorem take_eq_self (h : f slot = none) : f.take slot = f := by
  rw [take, ← h, Function.update_eq_self]

theorem take_put (h : f slot = none) : (f.put slot a).take slot = f := by
  rw [take, put, Function.update_idem]
  exact take_eq_self h

theorem take_eq_some (h : f.take slot slot' = some a) :
    slot' ≠ slot ∧ f slot' = some a := by
  have hne : slot' ≠ slot := by
    rintro rfl
    rw [take_self] at h
    nomatch h
  exact ⟨hne, by rwa [take_of_ne hne] at h⟩

theorem put_eq_some (h : f.put slot a slot' = some b) :
    slot' = slot ∧ b = a ∨ f slot' = some b := by
  by_cases hsame : slot' = slot
  · rw [hsame, put_self] at h
    exact .inl ⟨hsame, (Option.some.inj h).symm⟩
  · rw [put_of_ne hsame] at h
    exact .inr h

theorem Linear.take (hf : Linear f) (slot : κ) : Linear (f.take slot) := by
  intro slot' slot'' a h h'
  exact hf _ _ a (take_eq_some h).2 (take_eq_some h').2

/-- What was taken out of a linear placement lies nowhere any more. -/
theorem Linear.absent_take (hf : Linear f) (h : f slot = some a) :
    Absent (f.take slot) a := by
  intro slot' h'
  obtain ⟨hne, hslot'⟩ := take_eq_some h'
  exact hne (hf _ _ a hslot' h)

theorem Linear.put (hf : Linear f) (ha : Absent f a) (slot : κ) :
    Linear (f.put slot a) := by
  intro slot' slot'' b h h'
  rcases put_eq_some h with ⟨rfl, rfl⟩ | hold <;>
    rcases put_eq_some h' with ⟨rfl, hb⟩ | hold'
  · rfl
  · exact absurd hold' (ha slot'')
  · rw [hb] at hold
    exact absurd hold (ha slot')
  · exact hf _ _ b hold hold'

/-- What is put down from outside lies in that slot only. -/
theorem put_eq_some_iff (ha : Absent f a) :
    f.put slot a slot' = some a ↔ slot' = slot := by
  constructor
  · intro h
    rcases put_eq_some h with ⟨hsame, -⟩ | hold
    · exact hsame
    · exact absurd hold (ha slot')
  · rintro rfl
    exact put_self

/-! ## Items that may not move -/

/-- From `f` to `g` an item stays in its slot, or is gone, or has been moved to
another slot, which only the items in `p` may be.  Nothing new appears, and no
item is duplicated. -/
structure Confined (p : α → Prop) (f g : Placement κ α) : Prop where
  origin : ∀ slot a, g slot = some a →
    f slot = some a ∨ p a ∧ ∃ slot', f slot' = some a
  linear : Linear f → Linear g

namespace Confined

variable {p : α → Prop} {g h : Placement κ α}

omit [DecidableEq κ] in
theorem refl (f : Placement κ α) : Confined p f f where
  origin _ _ := .inl
  linear := id

omit [DecidableEq κ] in
theorem trans (hfg : Confined p f g) (hgh : Confined p g h) :
    Confined p f h where
  origin := by
    intro slot a ha
    rcases hgh.origin slot a ha with hg | ⟨hp, slot', hg⟩
    · exact hfg.origin slot a hg
    · rcases hfg.origin slot' a hg with hf | ⟨-, hf⟩
      · exact .inr ⟨hp, slot', hf⟩
      · exact .inr ⟨hp, hf⟩
  linear := hgh.linear ∘ hfg.linear

theorem take (f : Placement κ α) (slot : κ) : Confined p f (f.take slot) where
  origin _ _ ha := .inl (take_eq_some ha).2
  linear hf := hf.take slot

/-- An item that may move is taken out of its slot and put into another. -/
theorem move (hp : p a) (ha : f slot = some a) :
    Confined p f ((f.take slot).put slot' a) where
  origin := by
    intro slot'' b hb
    rcases put_eq_some hb with ⟨rfl, rfl⟩ | hold
    · exact .inr ⟨hp, slot, ha⟩
    · exact .inl (take_eq_some hold).2
  linear hf := (hf.take slot).put (hf.absent_take ha) slot'

end Confined

end Placement
end Fiber.Support
