import Fiber.Support.Machine
import Mathlib.Data.Nat.Notation

/-!
# Lists of numbered items

Items are numbered as they are made, and an item that is admitted is appended
to the list of one owner.  If every step of a machine obeys these two rules,
then a list is its first contents followed by the history of its admissions,
an admitted item stays where it was put, and an item that was made without
being admitted is never listed afterwards.
-/

namespace Fiber.Support

universe u v w

/-- The lists of a state, one for each owner in `ι`; the next item is numbered
`next`. -/
structure Ledger (σ : Type u) (ι β : Type) where
  next : σ → ℕ
  items : σ → ι → List β
  number : β → ℕ

namespace Ledger

variable {σ : Type u} {α : Type v} {ρ : Type w} {ι β : Type}

/-- What an admission adds to the list of `i`. -/
def entry [DecidableEq ι] (i : ι) : Option (ι × β) → List β
  | some (j, x) => if i = j then [x] else []
  | none => []

variable (L : Ledger σ ι β)

/-- Every listed item has been numbered. -/
def Numbered (s : σ) : Prop :=
  ∀ i, ∀ x ∈ L.items s i, L.number x < L.next s

/-- How often the list of `i` has an item numbered `n`. -/
def count (s : σ) (i : ι) (n : ℕ) : ℕ :=
  (L.items s i).countP (fun x => L.number x = n)

/-- The steps of `M` append what `admitted` tells, and an admitted item gets
its number in the step that admits it. -/
structure KeptBy [DecidableEq ι] (M : Machine σ α ρ)
    (admitted : Event σ α ρ → Option (ι × β)) : Prop where
  next_le : ∀ s a, L.next s ≤ L.next (M.step s a).1
  items_step : ∀ s a i, L.items (M.step s a).1 i =
    L.items s i ++ entry i (admitted (M.event s a))
  number_admitted : ∀ s a i x, admitted (M.event s a) = some (i, x) →
    L.number x = L.next s ∧ L.next s < L.next (M.step s a).1

theorem count_eq_zero_of_le {s : σ} (hs : L.Numbered s) (i : ι) {n : ℕ}
    (hn : L.next s ≤ n) : L.count s i n = 0 := by
  rw [count, List.countP_eq_zero]
  intro x hx hxn
  have hlt := hs i x hx
  have heq : L.number x = n := of_decide_eq_true hxn
  omega

theorem count_pos_iff {s : σ} {i : ι} {n : ℕ} :
    0 < L.count s i n ↔ ∃ x ∈ L.items s i, L.number x = n := by
  simp [count, List.countP_pos_iff]

namespace KeptBy

variable {L} [DecidableEq ι] {M : Machine σ α ρ}
  {admitted : Event σ α ρ → Option (ι × β)} (h : L.KeptBy M admitted)

include h

/-! ## The lists are histories -/

/-- A list is its first contents, followed by its admissions in order. -/
theorem items_exec (s : σ) (as : List α) (i : ι) :
    L.items (M.exec s as) i =
      L.items s i ++
        (M.trace s as).flatMap (fun e => entry i (admitted e)) := by
  induction as generalizing s with
  | nil => simp
  | cons a as ih =>
      rw [Machine.exec_cons, ih, h.items_step, Machine.trace_cons,
        List.flatMap_cons, List.append_assoc]

theorem numbered_step {s : σ} (hs : L.Numbered s) (a : α) :
    L.Numbered (M.step s a).1 := by
  intro i x hx
  rw [h.items_step, List.mem_append] at hx
  rcases hx with hx | hx
  · exact Nat.lt_of_lt_of_le (hs i x hx) (h.next_le s a)
  · rcases hadm : admitted (M.event s a) with _ | ⟨j, y⟩
    · simp [hadm, entry] at hx
    · have hy := h.number_admitted s a j y hadm
      have hxy : x = y := by
        rw [hadm, entry] at hx
        split at hx
        · exact List.mem_singleton.mp hx
        · simp at hx
      rw [hxy]
      omega

theorem numbered_preserved : M.Preserves L.Numbered :=
  fun _ a hs => h.numbered_step hs a

/-! ## Items stay where they are -/

/-- A step lists no item that was made before. -/
theorem count_step_of_lt (s : σ) (a : α) (i : ι) {n : ℕ}
    (hn : n < L.next s) :
    L.count (M.step s a).1 i n = L.count s i n := by
  rw [count, h.items_step, List.countP_append, count,
    Nat.add_eq_left, List.countP_eq_zero]
  intro x hx hxn
  rcases hadm : admitted (M.event s a) with _ | ⟨j, y⟩
  · simp [hadm, entry] at hx
  · have hy := h.number_admitted s a j y hadm
    have heq : L.number x = n := of_decide_eq_true hxn
    rw [hadm, entry] at hx
    split at hx
    · rw [List.mem_singleton.mp hx] at heq
      omega
    · simp at hx

/-- An item that was made before a run is listed after it exactly where it was
listed before. -/
theorem count_exec_of_lt (s : σ) (as : List α) (i : ι) {n : ℕ}
    (hn : n < L.next s) :
    L.count (M.exec s as) i n = L.count s i n := by
  induction as generalizing s with
  | nil => rfl
  | cons a as ih =>
      rw [Machine.exec_cons, ih _ (Nat.lt_of_lt_of_le hn (h.next_le s a)),
        h.count_step_of_lt s a i hn]

theorem count_step_of_admitted {s : σ} (hs : L.Numbered s) {a : α} {j : ι}
    {x : β} (hadm : admitted (M.event s a) = some (j, x)) (i : ι) :
    L.count (M.step s a).1 i (L.number x) = if i = j then 1 else 0 := by
  have hold : L.count s i (L.number x) = 0 :=
    L.count_eq_zero_of_le hs i
      (Nat.le_of_eq (h.number_admitted s a j x hadm).1.symm)
  rw [count, h.items_step, List.countP_append, ← count, hold, hadm, entry]
  split <;> simp

/-- An item that was admitted during a run is, at its end, in the list it was
put into, once, and in no other. -/
theorem count_exec_of_admitted {s : σ} (hs : L.Numbered s) {as : List α}
    {e : Event σ α ρ} (he : e ∈ M.trace s as) {j : ι} {x : β}
    (hadm : admitted e = some (j, x)) (i : ι) :
    L.count (M.exec s as) i (L.number x) = if i = j then 1 else 0 := by
  obtain ⟨front, a, rest, rfl, rfl⟩ := M.mem_trace_iff.mp he
  have hfront := h.numbered_preserved.exec hs front
  have hnumber := h.number_admitted _ a j x hadm
  rw [M.exec_append, Machine.exec_cons,
    h.count_exec_of_lt _ rest i (by omega),
    h.count_step_of_admitted hfront hadm]

/-- An item that was made by a step without being admitted is never listed. -/
theorem count_exec_of_not_admitted {s : σ} (hs : L.Numbered s) {as : List α}
    {e : Event σ α ρ} (he : e ∈ M.trace s as) (hadm : admitted e = none)
    {n : ℕ} (hlo : L.next e.before ≤ n) (hhi : n < L.next e.after) (i : ι) :
    L.count (M.exec s as) i n = 0 := by
  obtain ⟨front, a, rest, rfl, rfl⟩ := M.mem_trace_iff.mp he
  have hfront := h.numbered_preserved.exec hs front
  rw [Machine.event_after] at hhi
  rw [M.exec_append, Machine.exec_cons, h.count_exec_of_lt _ rest i hhi,
    count, h.items_step, hadm, entry, List.append_nil, ← count]
  exact L.count_eq_zero_of_le hfront i hlo

end KeptBy
end Ledger
end Fiber.Support
