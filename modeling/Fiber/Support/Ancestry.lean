import Mathlib.Data.Nat.Notation

/-!
# Parent chains

A partial function `parent` gives every element at most one parent.  When a
rank goes up by one from a parent to its children, the rank of an element is
the length of its chain to the root, and no chain returns to where it began.
-/

namespace Fiber.Support

universe u v

variable {ι : Type u} {β : Type v}

/-- Follow `parent` the given number of times. -/
def climb (parent : ι → Option ι) : ℕ → ι → Option ι
  | 0, x => some x
  | n + 1, x => (parent x).bind (climb parent n)

/-- Following `parent` from `x` reaches the root `r` in exactly `n` steps. -/
def RootAt (parent : ι → Option ι) (n : ℕ) (x r : ι) : Prop :=
  climb parent n x = some r ∧ parent r = none

/-- Inside `S`, which is closed under parents, roots have rank 0 and a child
has one more than its parent. -/
structure Ranked (parent : ι → Option ι) (S : ι → Prop) (rank : ι → ℕ) :
    Prop where
  closed : ∀ x p, S x → parent x = some p → S p
  root : ∀ x, S x → parent x = none → rank x = 0
  child : ∀ x p, S x → parent x = some p → rank x = rank p + 1

variable {parent : ι → Option ι} {S : ι → Prop} {rank : ι → ℕ}
  {n : ℕ} {x p r : ι}

theorem climb_succ_of_eq_some (h : parent x = some p) (n : ℕ) :
    climb parent (n + 1) x = climb parent n p := by
  rw [climb, h, Option.bind_some]

theorem climb_succ_of_eq_none (h : parent x = none) (n : ℕ) :
    climb parent (n + 1) x = none := by
  rw [climb, h, Option.bind_none]

theorem RootAt.of_parent (h : parent x = some p) (hp : RootAt parent n p r) :
    RootAt parent (n + 1) x r :=
  ⟨(climb_succ_of_eq_some h n).trans hp.1, hp.2⟩

theorem rootAt_zero_iff :
    RootAt parent 0 x r ↔ x = r ∧ parent x = none := by
  constructor
  · rintro ⟨hx, hr⟩
    obtain rfl := Option.some.inj hx
    exact ⟨rfl, hr⟩
  · rintro ⟨rfl, hx⟩
    exact ⟨rfl, hx⟩

theorem rootAt_succ_iff :
    RootAt parent (n + 1) x r ↔
      ∃ p, parent x = some p ∧ RootAt parent n p r := by
  constructor
  · rintro ⟨hx, hr⟩
    cases h : parent x with
    | none =>
        rw [climb_succ_of_eq_none h] at hx
        cases hx
    | some p =>
        rw [climb_succ_of_eq_some h] at hx
        exact ⟨p, rfl, hx, hr⟩
  · rintro ⟨p, h, hp⟩
    exact hp.of_parent h

theorem RootAt.mem (hclosed : ∀ x p, S x → parent x = some p → S p)
    (hx : S x) (h : RootAt parent n x r) : S r := by
  induction n generalizing x with
  | zero =>
      obtain ⟨rfl, -⟩ := rootAt_zero_iff.mp h
      exact hx
  | succ n ih =>
      obtain ⟨p, hp, hr⟩ := rootAt_succ_iff.mp h
      exact ih (hclosed x p hx hp) hr

/-- What children have in common with their parents, elements have in common
with their roots. -/
theorem RootAt.eq_of_inherited {f : ι → β}
    (hclosed : ∀ x p, S x → parent x = some p → S p)
    (hf : ∀ x p, S x → parent x = some p → f x = f p)
    (hx : S x) (h : RootAt parent n x r) : f x = f r := by
  induction n generalizing x with
  | zero =>
      obtain ⟨rfl, -⟩ := rootAt_zero_iff.mp h
      rfl
  | succ n ih =>
      obtain ⟨p, hp, hr⟩ := rootAt_succ_iff.mp h
      exact (hf x p hx hp).trans (ih (hclosed x p hx hp) hr)

namespace Ranked

theorem exists_rootAt (h : Ranked parent S rank) (hx : S x) :
    ∃ r, RootAt parent (rank x) x r := by
  generalize hn : rank x = n
  induction n generalizing x with
  | zero =>
      refine ⟨x, rootAt_zero_iff.mpr ⟨rfl, ?_⟩⟩
      cases hparent : parent x with
      | none => rfl
      | some p =>
          have hchild := h.child x p hx hparent
          omega
  | succ n ih =>
      cases hparent : parent x with
      | none =>
          have hroot := h.root x hx hparent
          omega
      | some p =>
          have hchild := h.child x p hx hparent
          obtain ⟨r, hr⟩ := ih (h.closed x p hx hparent) (by omega)
          exact ⟨r, hr.of_parent hparent⟩

/-- The rank is the only number of steps that leads to a root. -/
theorem eq_of_rootAt (h : Ranked parent S rank) (hx : S x)
    (hr : RootAt parent n x r) : n = rank x := by
  induction n generalizing x with
  | zero =>
      obtain ⟨rfl, hnone⟩ := rootAt_zero_iff.mp hr
      exact (h.root x hx hnone).symm
  | succ n ih =>
      obtain ⟨p, hparent, hp⟩ := rootAt_succ_iff.mp hr
      rw [h.child x p hx hparent, ih (h.closed x p hx hparent) hp]

theorem rank_of_climb (h : Ranked parent S rank) (hx : S x)
    (hclimb : climb parent n x = some r) : rank x = rank r + n := by
  induction n generalizing x with
  | zero =>
      obtain rfl := Option.some.inj hclimb
      rfl
  | succ n ih =>
      cases hparent : parent x with
      | none =>
          rw [climb_succ_of_eq_none hparent] at hclimb
          cases hclimb
      | some p =>
          rw [climb_succ_of_eq_some hparent] at hclimb
          have hchild := h.child x p hx hparent
          have hp := ih (h.closed x p hx hparent) hclimb
          omega

theorem climb_ne_self (h : Ranked parent S rank) (hx : S x) (n : ℕ) :
    climb parent (n + 1) x ≠ some x := by
  intro hclimb
  have hrank := h.rank_of_climb hx hclimb
  omega

end Ranked
end Fiber.Support
