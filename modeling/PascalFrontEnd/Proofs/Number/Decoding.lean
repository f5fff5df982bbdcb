import Mathlib.Algebra.Order.Field.Power
import Mathlib.Data.Rat.Cast.Order
import Mathlib.Tactic.Ring
import PascalFrontEnd.Number.Binary64

/-!
The numbers from zero upwards are whole numbers of units of `2 ^ -1074`, and increase
with their bit patterns.
-/

namespace PascalFrontEnd.Binary64

def negative (x : Binary64) : Bool :=
  decide (2 ^ 63 ≤ x.bits.toNat)

def exponent (x : Binary64) : Nat :=
  x.magnitude / 2 ^ 52

/-- The bits behind the exponent, and a leading one in front of them unless the exponent
is zero. -/
def significand (x : Binary64) : Nat :=
  if x.exponent = 0 then x.magnitude % 2 ^ 52 else 2 ^ 52 + x.magnitude % 2 ^ 52

def IsFinite (x : Binary64) : Prop :=
  x.exponent < 0x7ff

instance (x : Binary64) : Decidable x.IsFinite :=
  inferInstanceAs (Decidable (x.exponent < 0x7ff))

/-- The number that a finite pattern stands for. -/
def toRat (x : Binary64) : ℚ :=
  (if x.negative then -1 else 1) * x.significand * 2 ^ ((max x.exponent 1 : ℤ) - 1075)

@[irreducible]
def scale : Nat := Nat.pow 2 1074

def units (index : Nat) : Nat :=
  (if index < 2 ^ 52 then index else 2 ^ 52 + index % 2 ^ 52) * 2 ^ (index / 2 ^ 52 - 1)

/-- The index of `r` units of `2 ^ b` each, which is written with 53 bits, or is the
first number that is not. -/
theorem units_eq {b r : Nat} (within : r ≤ 2 ^ 53) (normal : b = 0 ∨ 2 ^ 52 ≤ r) :
    units (b * 2 ^ 52 + r) = r * 2 ^ b := by
  unfold units
  rcases Nat.lt_or_ge r (2 ^ 52) with small | large
  · obtain rfl : b = 0 := by omega
    have quotient : (0 * 2 ^ 52 + r) / 2 ^ 52 = 0 := by omega
    rw [quotient, if_pos (by omega), Nat.zero_mul, Nat.zero_add]
  rw [if_neg (by omega)]
  rcases Nat.lt_or_ge r (2 ^ 53) with proper | full
  · have quotient : (b * 2 ^ 52 + r) / 2 ^ 52 - 1 = b := by omega
    have remainder : 2 ^ 52 + (b * 2 ^ 52 + r) % 2 ^ 52 = r := by omega
    rw [quotient, remainder]
  · obtain rfl : r = 2 ^ 53 := Nat.le_antisymm within full
    have quotient : (b * 2 ^ 52 + 2 ^ 53) / 2 ^ 52 - 1 = b + 1 := by omega
    have remainder : 2 ^ 52 + (b * 2 ^ 52 + 2 ^ 53) % 2 ^ 52 = 2 ^ 52 := by omega
    rw [quotient, remainder, Nat.pow_succ 2 b]
    ring

theorem exists_binade (index : Nat) :
    ∃ b r, index = b * 2 ^ 52 + r ∧ r < 2 ^ 53 ∧ (b = 0 ∨ 2 ^ 52 ≤ r) := by
  rcases Nat.lt_or_ge index (2 ^ 52) with small | large
  · exact ⟨0, index, by omega, by omega, .inl rfl⟩
  · exact ⟨index / 2 ^ 52 - 1, index % 2 ^ 52 + 2 ^ 52, by omega, by omega, .inr (by omega)⟩

theorem units_strictMono : StrictMono units := by
  apply strictMono_nat_of_lt_succ
  intro index
  obtain ⟨b, r, rfl, within, normal⟩ := exists_binade index
  rw [Nat.add_assoc, units_eq within.le normal, units_eq within (by omega)]
  exact Nat.mul_lt_mul_of_pos_right (Nat.lt_succ_self r) (Nat.two_pow_pos b)

-- The power is too large to be worked out, so that its exponent is put out of sight.
theorem scale_pos : 0 < scale := by
  unfold scale
  generalize 1074 = exponent
  exact Nat.two_pow_pos exponent

theorem cast_scale : (scale : ℚ) = 2 ^ 1074 := by
  unfold scale
  generalize 1074 = exponent
  exact Nat.cast_pow 2 exponent

def number (index : Nat) : ℚ :=
  units index / scale

theorem number_strictMono : StrictMono number := by
  intro index other less
  have positive : (0 : ℚ) < scale := Nat.cast_pos.mpr scale_pos
  exact div_lt_div_of_pos_right (Nat.cast_lt.mpr (units_strictMono less)) positive

theorem number_nonneg (index : Nat) : 0 ≤ number index :=
  div_nonneg (Nat.cast_nonneg _) (Nat.cast_nonneg _)

variable {x y : Binary64}

theorem isFinite_iff : x.IsFinite ↔ x.magnitude < infinityIndex := by
  simp only [IsFinite, exponent, infinityIndex, Nat.pow_eq]
  omega

theorem toRat_eq (x : Binary64) :
    x.toRat = (if x.negative then -1 else 1) * number x.magnitude := by
  have counted : units x.magnitude = x.significand * 2 ^ (x.exponent - 1) := by
    unfold units significand exponent
    congr 1
    split <;> split <;> omega
  have power : (2 : ℚ) ^ ((max x.exponent 1 : ℤ) - 1075) = 2 ^ (x.exponent - 1) / scale := by
    have split : (max x.exponent 1 : ℤ) - 1075 = (x.exponent - 1 : ℕ) - (1074 : ℕ) := by omega
    rw [split, zpow_sub₀ two_ne_zero, zpow_natCast, zpow_natCast, cast_scale]
  rw [toRat, power, number, counted]
  push_cast
  ring

theorem toRat_of_positive (positive : x.negative = false) : x.toRat = number x.magnitude := by
  rw [toRat_eq, positive, if_neg Bool.false_ne_true, one_mul]

theorem abs_toRat (x : Binary64) : |x.toRat| = number x.magnitude := by
  rw [toRat_eq]
  split
  · rw [neg_one_mul, abs_neg, abs_of_nonneg (number_nonneg _)]
  · rw [one_mul, abs_of_nonneg (number_nonneg _)]

theorem even_significand : Even x.significand ↔ Even x.magnitude := by
  simp only [significand, Nat.even_iff]
  split <;> omega

theorem magnitude_of_positive (positive : x.negative = false) : x.magnitude = x.bits.toNat := by
  rw [negative, decide_eq_false_iff_not, Nat.not_le] at positive
  exact Nat.mod_eq_of_lt positive

theorem eq_of_magnitude (positive : x.negative = false) (positive' : y.negative = false)
    (same : x.magnitude = y.magnitude) : x = y := by
  rw [magnitude_of_positive positive, magnitude_of_positive positive'] at same
  cases x
  cases y
  exact congrArg mk (UInt64.toNat_inj.mp same)

theorem toRat_le_of_bits_le (positive : x.negative = false) (positive' : y.negative = false)
    (finite : y.IsFinite) (le : x.bits ≤ y.bits) : x.IsFinite ∧ x.toRat ≤ y.toRat := by
  rw [UInt64.le_iff_toNat_le, ← magnitude_of_positive positive,
    ← magnitude_of_positive positive'] at le
  rw [isFinite_iff] at finite ⊢
  rw [toRat_of_positive positive, toRat_of_positive positive']
  exact ⟨le.trans_lt finite, number_strictMono.monotone le⟩

end PascalFrontEnd.Binary64
