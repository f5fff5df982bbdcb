import Mathlib.Tactic.Linarith
import PascalFrontEnd.Proofs.Number.Decoding

/-!
Between the numbers at an index and at the next one there is a limit halfway. The index
that a quotient is rounded to is the number of the limits that it passes; at a limit it
passes if the index before that is odd.
-/

namespace PascalFrontEnd.Binary64

variable {numerator denominator : Nat} {k : Nat}

theorem lt_roundHalfEven_iff (positive : 0 < denominator) :
    k < roundHalfEven numerator denominator ↔
      (2 * k + 1) * denominator < 2 * numerator ∨
        (2 * k + 1) * denominator = 2 * numerator ∧ Odd k := by
  have parts := Nat.div_add_mod numerator denominator
  have remainder := Nat.mod_lt numerator positive
  dsimp only [roundHalfEven]
  generalize numerator / denominator = quotient at *
  generalize numerator % denominator = rest at *
  have doubled : 2 * numerator = 2 * quotient * denominator + 2 * rest := by
    rw [← parts]
    ring
  rw [doubled, Nat.odd_iff]
  rcases Nat.lt_trichotomy k quotient with less | rfl | greater
  · have passed : (2 * k + 1) * denominator < 2 * quotient * denominator :=
      Nat.mul_lt_mul_of_pos_right (by omega) positive
    split_ifs <;> omega
  · have half : (2 * k + 1) * denominator = 2 * k * denominator + denominator := by ring
    rw [half]
    split_ifs <;> omega
  · have missed : (2 * quotient + 2) * denominator < (2 * k + 1) * denominator :=
      Nat.mul_lt_mul_of_pos_right (by omega) positive
    have next : (2 * quotient + 2) * denominator = 2 * quotient * denominator + 2 * denominator := by
      ring
    split_ifs <;> omega

theorem le_roundHalfEven (positive : 0 < denominator) (within : k * denominator ≤ numerator) :
    k ≤ roundHalfEven numerator denominator := by
  cases k with
  | zero => exact Nat.zero_le _
  | succ k =>
      apply Nat.succ_le_of_lt
      rw [lt_roundHalfEven_iff positive]
      left
      linarith

theorem roundHalfEven_le (positive : 0 < denominator) (within : numerator ≤ k * denominator) :
    roundHalfEven numerator denominator ≤ k := by
  rw [← Nat.not_lt, lt_roundHalfEven_iff positive]
  rintro (passed | ⟨passed, -⟩) <;> linarith

/-- The binade that is chosen for a quotient holds it, from both sides if it is not
the lowest one. -/
theorem within_binade (positive : 0 < denominator) {binade : Nat}
    (chosen : (numerator / denominator).log2 - 52 = binade) :
    numerator < 2 ^ 53 * (denominator * 2 ^ binade) ∧
      (binade = 0 ∨ 2 ^ 52 * (denominator * 2 ^ binade) ≤ numerator) := by
  have scaled : ∀ e, 2 ^ e * (denominator * 2 ^ binade) = denominator * 2 ^ (e + binade) := by
    intro e
    ring
  rw [scaled, scaled]
  constructor
  · rw [Nat.mul_comm, ← Nat.div_lt_iff_lt_mul positive]
    apply Nat.lt_log2_self.trans_le
    exact Nat.pow_le_pow_right two_pos (by omega)
  · rw [Nat.mul_comm, ← Nat.le_div_iff_mul_le positive]
    rcases Nat.eq_zero_or_pos binade with lowest | above
    · exact .inl lowest
    · right
      have proper : numerator / denominator ≠ 0 := by
        intro none
        rw [none, Nat.log2_zero] at chosen
        omega
      rw [← Nat.le_log2 proper]
      omega

/-- The index nearest to a quotient is above `k` if the quotient is above the limit
between the numbers at `k` and at the next index, and for the limit if `k` is odd. -/
theorem lt_nearestIndex_iff (positive : 0 < denominator) :
    k < nearestIndex numerator denominator ↔
      (units k + units (k + 1)) * denominator < 2 * (numerator * scale) ∨
        (units k + units (k + 1)) * denominator = 2 * (numerator * scale) ∧ Odd k := by
  unfold nearestIndex scale
  generalize numerator * Nat.pow 2 1074 = amount
  dsimp only [Nat.pow_eq]
  obtain ⟨below, above⟩ : amount < _ ∧ _ := within_binade positive rfl
  generalize (amount / denominator).log2 - 52 = binade at *
  have unit : 0 < denominator * 2 ^ binade := Nat.mul_pos positive (Nat.two_pow_pos binade)
  -- The index has 53 bits in the binade, or is the first one of the next.
  have upper := roundHalfEven_le unit below.le
  have lower := above.imp_right (le_roundHalfEven unit)
  rcases Nat.lt_or_ge k (binade * 2 ^ 52 + 2 ^ 53) with inside | beyond
  · by_cases low : binade = 0 ∨ binade * 2 ^ 52 + 2 ^ 52 ≤ k
    · obtain ⟨r, rfl⟩ : ∃ r, k = binade * 2 ^ 52 + r := ⟨k - binade * 2 ^ 52, by omega⟩
      rw [Nat.add_lt_add_iff_left, lt_roundHalfEven_iff unit]
      rw [Nat.add_assoc, units_eq (by omega) (by omega), units_eq (by omega) (by omega)]
      have same : (r * 2 ^ binade + (r + 1) * 2 ^ binade) * denominator =
          (2 * r + 1) * (denominator * 2 ^ binade) := by ring
      have odd : Odd (binade * 2 ^ 52 + r) ↔ Odd r := by
        rw [Nat.odd_iff, Nat.odd_iff]
        omega
      rw [same, odd]
    · -- The numbers at `k` and at the next index are below the binade, or begin it.
      have within : 2 ^ 52 * (denominator * 2 ^ binade) ≤ amount := by omega
      have first : units (k + 1) ≤ 2 ^ 52 * 2 ^ binade := by
        rw [← units_eq (by omega) (by omega)]
        exact units_strictMono.monotone (by omega)
      have less : units k < units (k + 1) := units_strictMono (Nat.lt_succ_self k)
      apply iff_of_true
      · omega
      · left
        have sum : units k + units (k + 1) < 2 * (2 ^ 52 * 2 ^ binade) := by omega
        calc
          (units k + units (k + 1)) * denominator < 2 * (2 ^ 52 * 2 ^ binade) * denominator :=
            Nat.mul_lt_mul_of_pos_right sum positive
          _ = 2 * (2 ^ 52 * (denominator * 2 ^ binade)) := by ring
          _ ≤ 2 * amount := Nat.mul_le_mul_left 2 within
  · -- The numbers at `k` and at the next index are those of the next binade.
    have first : 2 ^ 53 * 2 ^ binade ≤ units k := by
      rw [← units_eq (by omega) (by omega)]
      exact units_strictMono.monotone beyond
    have less : units k < units (k + 1) := units_strictMono (Nat.lt_succ_self k)
    have sum : 2 * (2 ^ 53 * 2 ^ binade) ≤ units k + units (k + 1) := by omega
    have missed : 2 * amount < (units k + units (k + 1)) * denominator :=
      calc
        2 * amount < 2 * (2 ^ 53 * (denominator * 2 ^ binade)) :=
          Nat.mul_lt_mul_of_pos_left below two_pos
        _ = 2 * (2 ^ 53 * 2 ^ binade) * denominator := by ring
        _ ≤ (units k + units (k + 1)) * denominator := Nat.mul_le_mul_right denominator sum
    apply iff_of_false
    · omega
    · rintro (passed | ⟨passed, -⟩) <;> omega

/-- The limit between the numbers at an index and at the next one. -/
def limit (k : Nat) : ℚ :=
  (number k + number (k + 1)) / 2

def Passes (value : ℚ) (k : Nat) : Prop :=
  limit k < value ∨ limit k = value ∧ Odd k

variable {value other : ℚ}

theorem Passes.mono (passes : Passes value k) (le : value ≤ other) : Passes other k := by
  rcases passes with above | ⟨meets, odd⟩
  · exact .inl (above.trans_le le)
  · rcases le.lt_or_eq with less | rfl
    · exact .inl (meets.trans_lt less)
    · exact .inr ⟨meets, odd⟩

theorem Passes.le (passes : Passes value k) : limit k ≤ value :=
  passes.elim le_of_lt (fun meets => meets.1.le)

theorem passes_iff_of_odd (odd : Odd k) : Passes value k ↔ limit k ≤ value := by
  rw [Passes, and_iff_left odd, le_iff_lt_or_eq]

theorem passes_iff_of_even (even : Even k) : Passes value k ↔ limit k < value := by
  rw [Passes, or_iff_left]
  rintro ⟨-, odd⟩
  exact Nat.not_even_iff_odd.mpr odd even

theorem not_passes_iff : ¬ Passes value k ↔ value ≤ limit k ∧ (limit k = value → Even k) := by
  rw [Passes, not_or, not_lt, not_and, Nat.not_odd_iff_even]

theorem lt_nearestIndex (positive : 0 < denominator) :
    k < nearestIndex numerator denominator ↔ Passes (numerator / denominator) k := by
  have one : (0 : ℚ) < 2 * scale := mul_pos two_pos (Nat.cast_pos.mpr scale_pos)
  have whole : (0 : ℚ) < denominator := Nat.cast_pos.mpr positive
  have turned : (numerator : ℚ) * (2 * scale) = (2 * (numerator * scale) : ℕ) := by
    push_cast
    ring
  have sum : ((units k : ℚ) + units (k + 1)) * denominator =
      ((units k + units (k + 1)) * denominator : ℕ) := by
    push_cast
    ring
  have half : limit k = (units k + units (k + 1)) / (2 * scale) := by
    rw [limit, number, number, ← add_div, div_div, mul_comm (scale : ℚ)]
  rw [lt_nearestIndex_iff positive, Passes, half, div_lt_div_iff₀ one whole,
    div_eq_div_iff one.ne' whole.ne', turned, sum, Nat.cast_lt, Nat.cast_inj]

theorem nearestIndex_mono {numerator' denominator' : Nat} (positive : 0 < denominator)
    (positive' : 0 < denominator')
    (le : (numerator / denominator : ℚ) ≤ numerator' / denominator') :
    nearestIndex numerator denominator ≤ nearestIndex numerator' denominator' := by
  by_contra less
  rw [Nat.not_le, lt_nearestIndex positive] at less
  exact Nat.lt_irrefl _ ((lt_nearestIndex positive').mpr (less.mono le))

/-- From a limit upwards the number behind it is nearer than those before. -/
theorem nearest_of_limit_le {m : Nat} (meets : limit k ≤ value) (before : m ≤ k) :
    |number (k + 1) - value| ≤ |number m - value| ∧
      (|number (k + 1) - value| = |number m - value| → limit k = value) := by
  have first : number m ≤ number k := number_strictMono.monotone before
  have next : number k < number (k + 1) := number_strictMono (Nat.lt_succ_self k)
  unfold limit at *
  rw [abs_sub_comm (number m), abs_of_pos (by linarith : 0 < value - number m)]
  refine ⟨abs_le.mpr ⟨by linarith, by linarith⟩, ?_⟩
  intro same
  rcases abs_choice (number (k + 1) - value) with up | down <;> linarith

theorem nearest_of_le_limit {m : Nat} (meets : value ≤ limit k) (behind : k < m) :
    |number k - value| ≤ |number m - value| ∧
      (|number k - value| = |number m - value| → limit k = value) := by
  have first : number (k + 1) ≤ number m := number_strictMono.monotone behind
  have next : number k < number (k + 1) := number_strictMono (Nat.lt_succ_self k)
  unfold limit at *
  rw [abs_of_pos (by linarith : 0 < number m - value)]
  refine ⟨abs_le.mpr ⟨by linarith, by linarith⟩, ?_⟩
  intro same
  rcases abs_choice (number k - value) with up | down <;> linarith

/-- No number is nearer than the one at the index that is rounded to, and where
another one is as near, the index is even. -/
theorem nearest_of_passes {index : Nat} (rounded : ∀ k, k < index ↔ Passes value k) (m : Nat) :
    |number index - value| ≤ |number m - value| ∧
      (|number index - value| = |number m - value| → m ≠ index → Even index) := by
  rcases Nat.lt_trichotomy m index with less | rfl | greater
  · obtain ⟨k, rfl⟩ := Nat.exists_eq_add_one_of_ne_zero (Nat.ne_zero_of_lt less)
    have passes := (rounded k).mp (Nat.lt_succ_self k)
    obtain ⟨nearest, tie⟩ := nearest_of_limit_le passes.le (Nat.le_of_lt_succ less)
    refine ⟨nearest, ?_⟩
    intro same _
    rcases passes with above | ⟨-, odd⟩
    · exact absurd (tie same) above.ne
    · exact odd.add_one
  · exact ⟨le_rfl, fun _ differs => absurd rfl differs⟩
  · have missed : ¬ Passes value index := (rounded index).not.mp (Nat.lt_irrefl index)
    rw [not_passes_iff] at missed
    obtain ⟨nearest, tie⟩ := nearest_of_le_limit missed.1 greater
    exact ⟨nearest, fun same _ => missed.2 (tie same)⟩

theorem limit_zero : limit 0 = 2 ^ (-1075 : ℤ) := by
  have first : units 0 = 0 := rfl
  have second : units 1 = 1 := rfl
  have power : (-1075 : ℤ) = -(1074 : ℕ) - 1 := rfl
  rw [limit, number, number, first, second, cast_scale, power, zpow_sub_one₀ two_ne_zero, zpow_neg,
    zpow_natCast, Nat.cast_zero, zero_div, zero_add, Nat.cast_one, one_div, div_eq_mul_inv]

theorem limit_last : limit (infinityIndex - 1) = 2 ^ 1024 - 2 ^ 970 := by
  have last : infinityIndex - 1 = 2045 * 2 ^ 52 + (2 ^ 53 - 1) := rfl
  have power : (2 : ℚ) ^ 2045 / scale = 2 * 2 ^ 970 := by
    have split : 2045 = 1 + 970 + 1074 := rfl
    rw [cast_scale, split, pow_add, pow_add, mul_div_assoc, div_self, mul_one, pow_one]
    exact pow_ne_zero 1074 two_ne_zero
  have whole : (2 : ℚ) ^ 1024 = 2 ^ 54 * 2 ^ 970 := by
    have split : 1024 = 54 + 970 := rfl
    rw [split, pow_add]
  rw [limit, number, number, last, Nat.add_assoc, units_eq (by omega) (by omega),
    units_eq (by omega) (by omega), Nat.cast_mul, Nat.cast_mul, mul_div_assoc, mul_div_assoc,
    Nat.cast_pow, Nat.cast_ofNat, power, whole]
  generalize (2 : ℚ) ^ 970 = place
  norm_num
  ring

end PascalFrontEnd.Binary64
