import Fiber.KernelOld.IdGen
import Mathlib.Data.List.Nodup
import Mathlib.Data.List.Pairwise

/-!
# Draws from an id generator

The calls of one generator first return consecutive ids, and from the first
failure on they all fail.  A failing call still moves the counter, and beyond
the safe integers the sum is rounded; what has to be carried along is only that
the counter stays at the limit or beyond it.
-/

namespace Fiber.KernelOld
namespace IdGen

/-- What `count` calls of `getNext` give, in the order of the calls. -/
def draws (R : Rounding) : ℕ → IdGen → List (Except JsError ℤ)
  | 0, _ => []
  | count + 1, gen => (gen.getNext R).2 :: draws R count (gen.getNext R).1

/-- What a call gives that finds no further id. -/
def exhausted : Except JsError ℤ := .error (.error "id gen reached max value")

/-- The ids that were returned. -/
def returned (replies : List (Except JsError ℤ)) : List ℤ :=
  replies.filterMap Except.toOption

/-- The `count` numbers after `start`. -/
def idsAfter (start : ℤ) (count : ℕ) : List ℤ :=
  (List.range count).map fun i : ℕ => start + 1 + i

/-- The replies of a generator that began at `start`: the ids are consecutive
and below the limit, and after a failure there are only failures. -/
structure InOrder (start : ℤ) (replies : List (Except JsError ℤ)) : Prop where
  reply : ∀ r ∈ replies, (∃ id, r = .ok id) ∨ r = exhausted
  consecutive : returned replies = idsAfter start (returned replies).length
  increasing : (returned replies).Pairwise (· < ·)
  distinct : (returned replies).Nodup
  below_limit : ∀ id ∈ returned replies, id < maxSafeInteger
  permanent : replies.Pairwise fun r r' => r = exhausted → r' = exhausted

/-! ## Consecutive ids -/

theorem idsAfter_succ (start : ℤ) (count : ℕ) :
    idsAfter start (count + 1) = (start + 1) :: idsAfter (start + 1) count := by
  simp only [idsAfter, List.range_succ_eq_map, List.map_cons, List.map_map]
  congr 1
  · omega
  · apply List.map_congr_left
    intro i _
    simp only [Function.comp_apply]
    omega

theorem length_idsAfter (start : ℤ) (count : ℕ) :
    (idsAfter start count).length = count := by
  simp only [idsAfter, List.length_map, List.length_range]

theorem mem_idsAfter {start id : ℤ} {count : ℕ}
    (h : id ∈ idsAfter start count) :
    start < id ∧ id ≤ start + count := by
  obtain ⟨i, hi, rfl⟩ := List.mem_map.mp h
  have hlt : i < count := List.mem_range.mp hi
  omega

theorem idsAfter_increasing (start : ℤ) (count : ℕ) :
    (idsAfter start count).Pairwise (· < ·) := by
  refine List.pairwise_map.mpr (List.pairwise_lt_range.imp ?_)
  intro i j hij
  omega

/-! ## Runs of calls -/

/-- The replies that return are followed by the ones that do not. -/
def replies (start : ℤ) (returning failing : ℕ) : List (Except JsError ℤ) :=
  (idsAfter start returning).map .ok ++ List.replicate failing exhausted

theorem draws_of_exhausted (R : Rounding) (count : ℕ) (gen : IdGen)
    (hgen : 0 ≤ gen.lastId) (h : gen.Exhausted) :
    draws R count gen = List.replicate count exhausted := by
  induction count generalizing gen with
  | zero => rfl
  | succ count ih =>
      obtain ⟨gen', hlimit, hdraw⟩ := getNext_of_exhausted R hgen h
      have hpos : 0 ≤ maxSafeInteger := by decide
      have hrest := ih gen' (by omega) (Int.le_add_one hlimit)
      rw [draws, hdraw, hrest, List.replicate_succ]
      rfl

/-- Calls return until the limit is reached, and then never again. -/
theorem draws_eq (R : Rounding) (count : ℕ) (gen : IdGen)
    (hgen : 0 ≤ gen.lastId) :
    ∃ returning failing, draws R count gen =
        replies gen.lastId returning failing ∧
      (0 < returning → gen.lastId + returning < maxSafeInteger) := by
  induction count generalizing gen with
  | zero => exact ⟨0, 0, rfl, fun h => absurd h (Nat.lt_irrefl 0)⟩
  | succ count ih =>
      by_cases hlimit : gen.Exhausted
      · refine ⟨0, count + 1, ?_, fun h => absurd h (Nat.lt_irrefl 0)⟩
        rw [draws_of_exhausted R _ gen hgen hlimit]
        rfl
      · have hdraw := getNext_of_not_exhausted R hgen hlimit
        obtain ⟨returning, failing, hrest, hbound⟩ :=
          ih ⟨gen.lastId + 1⟩ (Int.le_add_one hgen)
        simp only at hrest hbound
        refine ⟨returning + 1, failing, ?_, fun _ => ?_⟩
        · rw [draws, hdraw, hrest, replies, replies, idsAfter_succ]
          rfl
        · simp only [Exhausted, Int.not_le] at hlimit
          rcases Nat.eq_zero_or_pos returning with rfl | hpos
          · omega
          · have := hbound hpos
            omega

theorem returned_replies (start : ℤ) (returning failing : ℕ) :
    returned (replies start returning failing) = idsAfter start returning := by
  have hok : ∀ ids : List ℤ, returned (ids.map .ok) = ids := by
    intro ids
    rw [returned, List.filterMap_map]
    exact List.filterMap_some
  have hfail : returned (List.replicate failing exhausted) = [] :=
    List.filterMap_replicate_of_none rfl
  rw [returned] at hfail
  rw [replies, returned, List.filterMap_append, hfail, List.append_nil]
  exact hok _

theorem replies_permanent (start : ℤ) (returning failing : ℕ) :
    (replies start returning failing).Pairwise fun r r' =>
      r = exhausted → r' = exhausted := by
  refine List.pairwise_append.mpr ⟨?_, ?_, ?_⟩
  · refine List.pairwise_map.mpr ((idsAfter_increasing _ _).imp ?_)
    intro id id' _ hok
    nomatch hok
  · exact List.pairwise_replicate.mpr (.inr id)
  · intro r _ r' hr' _
    exact List.eq_of_mem_replicate hr'

/-- However often a generator is called, its ids are consecutive, and it never
recovers from a failure. -/
theorem draws_in_order (R : Rounding) {start : ℤ} (hstart : 0 ≤ start)
    (count : ℕ) : InOrder start (draws R count ⟨start⟩) := by
  obtain ⟨returning, failing, hdraws, hbound⟩ :=
    draws_eq R count ⟨start⟩ hstart
  have hreturned := returned_replies start returning failing
  simp only at hdraws hbound
  rw [hdraws]
  constructor
  case reply =>
    intro r hr
    rcases List.mem_append.mp hr with hr | hr
    · obtain ⟨id, -, rfl⟩ := List.mem_map.mp hr
      exact .inl ⟨id, rfl⟩
    · exact .inr (List.eq_of_mem_replicate hr)
  case consecutive => rw [hreturned, length_idsAfter]
  case increasing =>
    rw [hreturned]
    exact idsAfter_increasing start returning
  case distinct =>
    rw [hreturned]
    exact (idsAfter_increasing start returning).imp Int.ne_of_lt
  case below_limit =>
    rw [hreturned]
    intro id hid
    obtain ⟨hlower, hupper⟩ := mem_idsAfter hid
    have := hbound (by omega)
    omega
  case permanent => exact replies_permanent start returning failing

/-- From the number before the last id on: one id, then failures only. -/
theorem draws_in_order_at_limit :
    InOrder 9007199254740989 (draws .double 4 ⟨9007199254740989⟩) ∧
      draws .double 4 ⟨9007199254740989⟩ =
        [.ok 9007199254740990, exhausted, exhausted, exhausted] :=
  ⟨draws_in_order .double (by decide) 4, by rfl⟩

end IdGen
end Fiber.KernelOld
