import Fiber.KernelTypes

/-!
# Id generators

A generator counts up and throws from the largest safe integer on.  The counter
is a double, and a failing call still increments it; beyond the safe integers
the sum is rounded.  What the generator relies on is collected in `Rounding`.
-/

namespace Fiber.KernelOld

/-- `Number.MAX_SAFE_INTEGER`. -/
def maxSafeInteger : ℤ := 9007199254740991

/-- How doubles round the sum of two natural numbers: sums up to the number
after the last safe integer are exact, and larger ones do not fall below it. -/
structure Rounding where
  round : ℤ → ℤ
  exact : ∀ n, 0 ≤ n → n ≤ maxSafeInteger + 1 → round n = n
  le_round : ∀ n, maxSafeInteger + 1 ≤ n → maxSafeInteger + 1 ≤ round n

/-- The distance of the doubles around `n`, beyond the safe integers. -/
def ulp (n : ℕ) : ℕ := 1 <<< (n.log2 - 52)

/-- The nearest double, ties going to the even mantissa. -/
def roundDouble (n : ℤ) : ℤ :=
  if n ≤ maxSafeInteger + 1 then n
  else
    let ulp : ℤ := ulp n.toNat
    let below := n / ulp
    if 2 * (n % ulp) < ulp ∨ 2 * (n % ulp) = ulp ∧ below % 2 = 0 then
      below * ulp
    else (below + 1) * ulp

/-- The mantissa of a large number has 53 bits. -/
theorem ulp_spec {n : ℕ} (hn : 9007199254740992 ≤ n) :
    2 ≤ ulp n ∧ 4503599627370496 * ulp n ≤ n := by
  have hlog : 53 ≤ n.log2 := (Nat.le_log2 (by omega)).mpr hn
  have hpow : 2 ^ n.log2 ≤ n := Nat.log2_self_le (by omega)
  obtain ⟨e, he⟩ := Nat.exists_eq_add_of_le hlog
  have hulp : ulp n = 2 * 2 ^ e := by
    rw [ulp, Nat.one_shiftLeft, show n.log2 - 52 = e + 1 by omega,
      Nat.pow_succ, Nat.mul_comm]
  have hpos : 0 < 2 ^ e := Nat.two_pow_pos e
  rw [he, Nat.pow_add] at hpow
  omega

theorem le_roundDouble {n : ℤ} (hn : maxSafeInteger + 1 ≤ n) :
    maxSafeInteger + 1 ≤ roundDouble n := by
  simp only [maxSafeInteger] at hn
  rw [roundDouble]
  split
  · exact hn
  · obtain ⟨htwo, hle⟩ := ulp_spec (n := n.toNat) (by omega)
    have hbelow : 4503599627370496 ≤ n / (ulp n.toNat : ℤ) :=
      (Int.le_ediv_iff_mul_le (by omega)).mpr (by omega)
    have hprod : 4503599627370496 * 2 ≤
        n / (ulp n.toNat : ℤ) * (ulp n.toNat : ℤ) :=
      Int.mul_le_mul hbelow (by omega) (by decide) (by omega)
    simp only [maxSafeInteger]
    split
    · omega
    · rw [Int.add_mul]
      omega

/-- Rounding as doubles do it. -/
def Rounding.double : Rounding where
  round := roundDouble
  exact := fun _ _ hn => if_pos hn
  le_round := fun _ => le_roundDouble

structure IdGen where
  lastId : ℤ := 1
  deriving DecidableEq

namespace IdGen

def getNext (R : Rounding) (gen : IdGen) : IdGen × Except JsError ℤ :=
  let gen : IdGen := { lastId := R.round (gen.lastId + 1) }
  if gen.lastId ≥ maxSafeInteger then
    (gen, .error (.error "id gen reached max value"))
  else (gen, .ok gen.lastId)

/-- No further id can be drawn. -/
def Exhausted (gen : IdGen) : Prop := maxSafeInteger ≤ gen.lastId + 1

instance (gen : IdGen) : Decidable gen.Exhausted :=
  inferInstanceAs (Decidable (_ ≤ _))

variable {gen : IdGen}

theorem getNext_of_not_exhausted (R : Rounding) (hgen : 0 ≤ gen.lastId)
    (h : ¬ gen.Exhausted) :
    gen.getNext R = (⟨gen.lastId + 1⟩, .ok (gen.lastId + 1)) := by
  simp only [Exhausted, Int.not_le] at h
  have hround : R.round (gen.lastId + 1) = gen.lastId + 1 :=
    R.exact _ (by omega) (by omega)
  have hlt : ¬ gen.lastId + 1 ≥ maxSafeInteger := by omega
  simp only [getNext, hround, if_neg hlt]

/-- A failing draw leaves the generator at the limit or beyond it. -/
theorem getNext_of_exhausted (R : Rounding) (hgen : 0 ≤ gen.lastId)
    (h : gen.Exhausted) :
    ∃ gen' : IdGen, maxSafeInteger ≤ gen'.lastId ∧
      gen.getNext R =
        (gen', .error (.error "id gen reached max value")) := by
  have hlimit : maxSafeInteger ≤ R.round (gen.lastId + 1) := by
    by_cases hsmall : gen.lastId + 1 ≤ maxSafeInteger + 1
    · rw [R.exact _ (by omega) hsmall]
      exact h
    · have hlarge := R.le_round (gen.lastId + 1) (by omega)
      omega
  refine ⟨⟨R.round (gen.lastId + 1)⟩, hlimit, ?_⟩
  simp only [getNext, ge_iff_le, if_pos hlimit]

end IdGen
end Fiber.KernelOld
