import PascalFrontEnd.Proofs.Number.Rounding

namespace PascalFrontEnd.Binary64

variable {numerator denominator : Nat} {value : ℚ} {x y : Binary64}

/-- What a value from zero upwards is rounded to: infinity from the limit of the
finite numbers on, zero up to half of the least number above it, and otherwise the
nearest of all finite numbers, with an even significand where two are as near. -/
structure Rounds (value : ℚ) (x : Binary64) : Prop where
  positive : x.negative = false
  isNumber : x.isNaN = false
  infinite : x = infinity ↔ 2 ^ 1024 - 2 ^ 970 ≤ value
  finite : x ≠ infinity → x.IsFinite
  nearest : x.IsFinite → ∀ y : Binary64, y.IsFinite → |x.toRat - value| ≤ |y.toRat - value|
  even : x.IsFinite → ∀ y : Binary64, y.IsFinite → y.toRat ≠ x.toRat →
    |x.toRat - value| = |y.toRat - value| → Even x.significand
  zero : x = ⟨0⟩ ↔ value ≤ 2 ^ (-1075 : ℤ)

theorem toNat_nearest (numerator denominator : Nat) :
    (nearest numerator denominator).bits.toNat =
      min (nearestIndex numerator denominator) infinityIndex := by
  have within := Nat.min_le_right (nearestIndex numerator denominator) infinityIndex
  have word : infinityIndex < UInt64.size := by decide
  exact UInt64.toNat_ofNat_of_lt' (within.trans_lt word)

theorem negative_nearest (numerator denominator : Nat) :
    (nearest numerator denominator).negative = false := by
  have within := Nat.min_le_right (nearestIndex numerator denominator) infinityIndex
  have small : infinityIndex < 2 ^ 63 := by decide
  rw [negative, toNat_nearest, decide_eq_false_iff_not, Nat.not_le]
  exact within.trans_lt small

theorem magnitude_nearest (numerator denominator : Nat) :
    (nearest numerator denominator).magnitude =
      min (nearestIndex numerator denominator) infinityIndex := by
  rw [magnitude_of_positive (negative_nearest numerator denominator), toNat_nearest]

theorem isNaN_nearest (numerator denominator : Nat) :
    (nearest numerator denominator).isNaN = false := by
  rw [isNaN, magnitude_nearest, decide_eq_false_iff_not, Nat.not_lt]
  exact Nat.min_le_right _ _

/-- The number at the index that a value is rounded to is the nearest of the numbers
of either sign. -/
theorem nearest_of_rounded (positive : x.negative = false) (notNegative : 0 ≤ value)
    (rounded : ∀ k, k < x.magnitude ↔ Passes value k) (y : Binary64) :
    |x.toRat - value| ≤ |y.toRat - value| ∧
      (y.toRat ≠ x.toRat → |x.toRat - value| = |y.toRat - value| → Even x.significand) := by
  obtain ⟨nearest, tie⟩ := nearest_of_passes rounded y.magnitude
  have apart := abs_abs_sub_abs_le y.toRat value
  rw [abs_toRat, abs_of_nonneg notNegative] at apart
  rw [toRat_of_positive positive, even_significand]
  refine ⟨nearest.trans apart, ?_⟩
  intro differs same
  by_cases opposite : y.magnitude = x.magnitude
  · -- Zero is at least as near as the opposite of the number, which is zero therefore.
    exfalso
    have none : number 0 = 0 := by simp [number, units]
    obtain ⟨nearer, -⟩ := nearest_of_passes rounded 0
    have signless := number_nonneg x.magnitude
    have negated : y.toRat = -number x.magnitude := by
      rcases abs_choice y.toRat with same | negated
      · rw [← same, abs_toRat, opposite] at differs
        exact absurd rfl differs
      · rw [← opposite, ← abs_toRat, negated, neg_neg]
    rw [none, zero_sub, abs_neg, abs_of_nonneg notNegative, same, negated,
      ← neg_add', abs_neg, abs_of_nonneg (add_nonneg signless notNegative)] at nearer
    apply differs
    linarith
  · exact tie (le_antisymm nearest (apart.trans same.ge)) opposite

/-- A quotient is rounded to the number that is computed for it. -/
theorem rounds_nearest (positive : 0 < denominator) :
    Rounds (numerator / denominator) (nearest numerator denominator) := by
  have magnitude := magnitude_nearest numerator denominator
  have positive' := negative_nearest numerator denominator
  have notNegative : (0 : ℚ) ≤ numerator / denominator :=
    div_nonneg (Nat.cast_nonneg _) (Nat.cast_nonneg _)
  have rounded : (nearest numerator denominator).IsFinite → ∀ k,
      k < (nearest numerator denominator).magnitude ↔ Passes (numerator / denominator) k := by
    intro finite k
    rw [isFinite_iff, magnitude, min_lt_iff, or_iff_left (Nat.lt_irrefl _)] at finite
    rw [magnitude, min_eq_left finite.le, lt_nearestIndex positive]
  have same : ∀ {x : Binary64}, x.negative = false →
      (nearest numerator denominator = x ↔
        min (nearestIndex numerator denominator) infinityIndex = x.magnitude) := by
    intro x positive
    rw [← magnitude]
    exact ⟨congrArg _, eq_of_magnitude positive' positive⟩
  refine ⟨positive', isNaN_nearest numerator denominator, ?_, ?_, ?_, ?_, ?_⟩
  · have last : Odd (infinityIndex - 1) := by decide
    have proper : 0 < infinityIndex := by decide
    have index : infinity.magnitude = infinityIndex := by decide
    rw [same (by decide), index, min_eq_right_iff, ← limit_last, ← passes_iff_of_odd last,
      ← lt_nearestIndex positive]
    omega
  · intro differs
    have index : infinity.magnitude = infinityIndex := by decide
    rw [isFinite_iff, magnitude]
    rw [Ne, same (by decide), index] at differs
    exact lt_of_le_of_ne (Nat.min_le_right _ _) differs
  · intro finite y _
    exact (nearest_of_rounded positive' notNegative (rounded finite) y).1
  · intro finite y _
    exact (nearest_of_rounded positive' notNegative (rounded finite) y).2
  · have index : (⟨0⟩ : Binary64).magnitude = 0 := rfl
    have proper : infinityIndex ≠ 0 := by decide
    rw [same rfl, index, ← limit_zero, ← not_lt, ← passes_iff_of_even Even.zero,
      ← lt_nearestIndex positive]
    omega

theorem exists_magnitude {index : Nat} (finite : y.IsFinite) (less : index < y.magnitude) :
    ∃ x : Binary64, x.negative = false ∧ x.IsFinite ∧ x.magnitude = index := by
  rw [isFinite_iff] at finite
  have small : infinityIndex < 2 ^ 63 := by decide
  have word : (2 : Nat) ^ 63 < UInt64.size := by decide
  have bits : (UInt64.ofNat index).toNat = index := UInt64.toNat_ofNat_of_lt' (by omega)
  have positive : (⟨UInt64.ofNat index⟩ : Binary64).negative = false := by
    rw [negative, bits, decide_eq_false_iff_not]
    omega
  have magnitude := (magnitude_of_positive positive).trans bits
  refine ⟨_, positive, ?_, magnitude⟩
  rw [isFinite_iff, magnitude]
  exact less.trans finite

theorem Rounds.not_lt (rounds : Rounds value x) (rounds' : Rounds value y) (finite : x.IsFinite)
    (finite' : y.IsFinite) : ¬ x.magnitude < y.magnitude := by
  intro less
  have far : x.toRat < y.toRat := by
    rw [toRat_of_positive rounds.positive, toRat_of_positive rounds'.positive]
    exact number_strictMono less
  have same : |x.toRat - value| = |y.toRat - value| :=
    le_antisymm (rounds.nearest finite y finite') (rounds'.nearest finite' x finite)
  have even := even_significand.mp (rounds.even finite y finite' far.ne' same)
  have even' := even_significand.mp (rounds'.even finite' x finite far.ne same.symm)
  rw [Nat.even_iff] at even even'
  -- There is a number between the two, which is nearer than they are.
  have between : x.magnitude + 1 < y.magnitude := by omega
  obtain ⟨z, positive, finiteBetween, index⟩ := exists_magnitude finite' between
  have above : x.toRat < z.toRat := by
    rw [toRat_of_positive rounds.positive, toRat_of_positive positive, index]
    exact number_strictMono (Nat.lt_succ_self _)
  have below : z.toRat < y.toRat := by
    rw [toRat_of_positive positive, toRat_of_positive rounds'.positive, index]
    exact number_strictMono between
  have nearest := rounds.nearest finite z finiteBetween
  have nearest' := rounds'.nearest finite' z finiteBetween
  rcases abs_choice (z.toRat - value) with up | down
  · have behind := le_abs_self (y.toRat - value)
    linarith
  · have ahead := neg_abs_le (x.toRat - value)
    linarith

theorem Rounds.unique (rounds : Rounds value x) (rounds' : Rounds value y) : x = y := by
  by_cases infinite : 2 ^ 1024 - 2 ^ 970 ≤ value
  · rw [rounds.infinite.mpr infinite, rounds'.infinite.mpr infinite]
  · have finite := rounds.finite (mt rounds.infinite.mp infinite)
    have finite' := rounds'.finite (mt rounds'.infinite.mp infinite)
    apply eq_of_magnitude rounds.positive rounds'.positive
    exact le_antisymm (Nat.not_lt.mp (rounds'.not_lt rounds finite' finite))
      (Nat.not_lt.mp (rounds.not_lt rounds' finite finite'))

end PascalFrontEnd.Binary64
