import PascalFrontEnd.Proofs.Number.Nearest
import PascalFrontEnd.Proofs.Token.Numbers

namespace PascalFrontEnd

namespace Decimal

variable {whole fraction whole' fraction' : List Char}

def quotient (whole fraction : List Char) : ℚ :=
  denoted whole + denoted fraction / 10 ^ fraction.length

theorem denoted_append (digits more : List Char) :
    denoted (digits ++ more) = denoted digits * 10 ^ more.length + denoted more := by
  simp only [denoted, List.reverse_append, List.map_append, Nat.ofDigits_append, List.length_map,
    List.length_reverse]
  ring

theorem denoted_zeros (count : Nat) : denoted (List.replicate count '0') = 0 := by
  induction count with
  | zero => rfl
  | succ count ih =>
      have zero : denoted ['0'] = 0 := rfl
      rw [List.replicate_succ', denoted_append, ih, zero, Nat.zero_mul]

theorem quotient_eq (whole fraction : List Char) :
    quotient whole fraction = value (whole ++ fraction) / (Nat.pow 10 fraction.length : ℕ) := by
  have places : (10 : ℚ) ^ fraction.length ≠ 0 := pow_ne_zero _ (by norm_num)
  rw [quotient, value_eq_denoted, denoted_append, Nat.pow_eq]
  push_cast
  rw [add_div, mul_div_cancel_right₀ _ places]

theorem rounds_toBinary64 (whole fraction : List Char) :
    Binary64.Rounds (quotient whole fraction) (toBinary64 whole fraction) := by
  rw [quotient_eq]
  exact Binary64.rounds_nearest (Nat.pow_pos (by decide))

-- Halfway between two numbers, of which the lower one has the even significand.
example : toBinary64 "9007199254740993".toList ['0'] = ⟨0x4340000000000000⟩ := by
  decide +kernel

theorem toBinary64_mono (le : quotient whole fraction ≤ quotient whole' fraction') :
    (toBinary64 whole fraction).bits ≤ (toBinary64 whole' fraction').bits := by
  rw [quotient_eq, quotient_eq] at le
  rw [UInt64.le_iff_toNat_le, toBinary64, toBinary64, Binary64.toNat_nearest,
    Binary64.toNat_nearest]
  apply min_le_min_right
  exact Binary64.nearestIndex_mono (Nat.pow_pos (by decide)) (Nat.pow_pos (by decide)) le

theorem quotient_zeros (leading trailing : Nat) (whole fraction : List Char) :
    quotient (List.replicate leading '0' ++ whole) (fraction ++ List.replicate trailing '0') =
      quotient whole fraction := by
  have places : (10 : ℚ) ^ trailing ≠ 0 := pow_ne_zero _ (by norm_num)
  rw [quotient, quotient, denoted_append, denoted_append, denoted_zeros, denoted_zeros,
    Nat.zero_mul, Nat.zero_add, Nat.add_zero, List.length_append, List.length_replicate, pow_add]
  push_cast
  rw [mul_div_mul_right _ _ places]

theorem toBinary64_zeros (leading trailing : Nat) (whole fraction : List Char) :
    toBinary64 (List.replicate leading '0' ++ whole) (fraction ++ List.replicate trailing '0') =
      toBinary64 whole fraction := by
  have rounds := rounds_toBinary64 (List.replicate leading '0' ++ whole)
    (fraction ++ List.replicate trailing '0')
  rw [quotient_zeros] at rounds
  exact rounds.unique (rounds_toBinary64 whole fraction)

end Decimal

/-- Digits, a point and digits, up to the last digit. -/
structure Lexeme.IsReal (whole fraction behind : List Char) : Prop where
  whole : IsDigits whole
  fraction : IsDigits fraction
  maximal : ∀ c ∈ behind.head?, c.isDigit = false

namespace Lexeme

variable {text whole fraction behind : List Char} {length : Nat}

theorem first?_real (isReal : IsReal whole fraction behind) :
    first? (whole ++ '.' :: fraction ++ behind) =
      some (.real, (whole ++ '.' :: fraction).length) := by
  have proper : whole.length ≠ 0 ∧ fraction.length ≠ 0 := by
    simpa using And.intro isReal.whole.1 isReal.fraction.1
  have shape : whole ++ '.' :: fraction ++ behind = whole ++ '.' :: (fraction ++ behind) := by
    simp
  have length : (whole ++ '.' :: fraction).length = whole.length + 1 + fraction.length := by
    simp only [List.length_append, List.length_cons]
    omega
  have real : Shape.real.reach (whole ++ '.' :: fraction ++ behind) =
      (whole ++ '.' :: fraction).length := by
    rw [shape, reach_real_eq (run_of_all isReal.whole.2),
      run_digits isReal.fraction.2 isReal.maximal, if_neg (not_or.mpr proper), length]
  have takes : Shape.real.reach (whole ++ '.' :: fraction ++ behind) ≠ 0 := by
    rw [real, length]
    omega
  obtain ⟨blanks, comment⟩ := no_gap_of_digit (lead_of_reach takes).symm
  rw [real] at takes
  simp only [first?, table, List.findSome?_cons, blanks, comment, real, takes, if_true, if_false]

theorem real_of_first? (first : first? text = some (.real, length)) :
    ∃ whole fraction, text.take length = whole ++ '.' :: fraction ∧
      IsReal whole fraction (text.drop length) := by
  obtain ⟨shape, listed, matched, longest⟩ := matched_of_first? first
  have real : shape = .real := by simpa [table] using listed
  subst real
  obtain ⟨whole, fraction, isWhole, isFraction, parts⟩ := matched
  refine ⟨whole, fraction, parts, isWhole, isFraction, ?_⟩
  intro c first
  rw [← Bool.not_eq_true]
  intro digit
  rcases List.head?_eq_some_iff.mp first with ⟨rest, behind⟩
  have longer : Shape.real.Matches (text.take length ++ [c]) :=
    ⟨whole, fraction ++ [c], isWhole, isFraction.append digit, by simp [parts]⟩
  have none := longest (.real, .real) (by decide) [c] ⟨rest, behind.symm⟩ longer
  cases none

end Lexeme

namespace Lexer

variable {lexer : Lexer} {whole fraction behind : List Char} {length line : Nat} {token : Token}

theorem realToken_eq (digits : ∀ c ∈ whole, c.isDigit = true) :
    realToken (whole ++ '.' :: fraction) line =
      ⟨.realLiteral, String.ofList (whole ++ '.' :: fraction),
        some (.real (Decimal.toBinary64 whole fraction)), line⟩ := by
  have none : ∀ {rest : List Char}, ('.' :: rest).takeWhile Char.isDigit = [] := rfl
  have all : ∀ {rest : List Char}, ('.' :: rest).dropWhile Char.isDigit = '.' :: rest := rfl
  simp only [realToken, List.takeWhile_append_of_pos digits, List.dropWhile_append_of_pos digits,
    none, all, List.append_nil, List.drop_one, List.tail_cons]

theorem scan_real (here : lexer.rest = whole ++ '.' :: fraction ++ behind)
    (isReal : Lexeme.IsReal whole fraction behind) :
    lexer.scan = (⟨.realLiteral, String.ofList (whole ++ '.' :: fraction),
      some (.real (Decimal.toBinary64 whole fraction)), lexer.line⟩,
      lexer.advance (whole ++ '.' :: fraction).length) := by
  have first : Lexeme.first? lexer.rest = some (.real, (whole ++ '.' :: fraction).length) := by
    rw [here, Lexeme.first?_real isReal]
  apply scan_token first
  rw [here, List.take_left, token?, realToken_eq isReal.whole.2]

theorem Makes.real {number : Binary64} (made : lexer.Makes token length)
    (carried : token.value = some (.real number)) :
    Lexeme.first? lexer.rest = some (.real, length) ∧
      token = realToken (lexer.rest.take length) lexer.line := by
  cases made with
  | ending | unknown => cases carried
  | @lexeme sort length token first made =>
      cases sort with
      | gap => cases made
      | real =>
          cases made
          exact ⟨first, rfl⟩
      | integer =>
          cases made
          unfold integerToken at carried
          split at carried <;> cases carried
      | word =>
          cases made
          rcases wordToken_value (lexer.rest.take length) lexer.line with none | ⟨name, named⟩
          · cases none.symm.trans carried
          · cases named.symm.trans carried
      | sign | fixed =>
          cases made
          cases carried

end Lexer

end PascalFrontEnd
