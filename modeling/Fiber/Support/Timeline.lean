import Mathlib.Data.List.Basic

/-!
# Timelines

A timeline is a list of states, oldest first, that all satisfy an invariant and
never lose what an order between states keeps.  A new state that is above the
last one is above all of them.
-/

namespace Fiber.Support

universe u

variable {σ : Type u}

/-- The states satisfy `inv`, and each is below all later ones. -/
structure Timeline (inv : σ → Prop) (le : σ → σ → Prop) (states : List σ) :
    Prop where
  inv : ∀ s ∈ states, inv s
  ordered : states.Pairwise le

namespace Timeline

variable {inv : σ → Prop} {le : σ → σ → Prop} {states front : List σ} {s t : σ}

theorem pair (hs : inv s) (ht : inv t) (hle : le s t) :
    Timeline inv le [s, t] where
  inv := by
    intro a ha
    rcases List.mem_pair.mp ha with rfl | rfl
    · exact hs
    · exact ht
  ordered := List.pairwise_pair.mpr hle

theorem sublist {states' : List σ} (h : Timeline inv le states)
    (hsub : states'.Sublist states) : Timeline inv le states' where
  inv := fun s hs => h.inv s (hsub.subset hs)
  ordered := h.ordered.sublist hsub

/-- What is above the last state is above the whole timeline. -/
theorem push (htrans : ∀ a b c, le a b → le b c → le a c)
    (h : Timeline inv le (front ++ [s])) (ht : inv t) (hle : le s t) :
    Timeline inv le (front ++ [s, t]) := by
  have hfront := List.pairwise_append.mp h.ordered
  constructor
  · intro a ha
    rw [List.append_cons front s [t]] at ha
    rcases List.mem_append.mp ha with ha | ha
    · exact h.inv a ha
    · rw [List.mem_singleton.mp ha]
      exact ht
  · refine List.pairwise_append.mpr ⟨hfront.1, ?_, ?_⟩
    · exact List.pairwise_pair.mpr hle
    · intro a ha b hb
      have has : le a s := hfront.2.2 a ha s (List.mem_singleton_self s)
      rcases List.mem_pair.mp hb with rfl | rfl
      · exact has
      · exact htrans a s b has hle

end Timeline
end Fiber.Support
