import Mathlib.Data.Nat.Digits.Defs
import PascalFrontEnd.Proofs.Token.Coverage
import PascalFrontEnd.Proofs.Token.MaximalMunch

namespace PascalFrontEnd

namespace Decimal

variable {digits : List Char}

/-- The number that digits denote by their places, the last one in the place of
units. -/
def denoted (digits : List Char) : Nat :=
  Nat.ofDigits 10 (digits.reverse.map digit)

theorem value_eq_denoted (digits : List Char) : value digits = denoted digits := by
  rw [value, denoted, List.foldl_eq_foldr_reverse, Nat.ofDigits_eq_foldr, List.foldr_map]
  simp only [Nat.add_comm, Nat.cast_id]

/-- An integer is found for the numbers within the limit, however many digits they
are written with, and it is exact. -/
theorem toInteger?_of_lt (fits : denoted digits < 2 ^ 63) :
    ∃ number, toInteger? digits = some number ∧ number.toInt = denoted digits := by
  have within : value digits ≤ maxInteger := by
    rw [value_eq_denoted]
    exact Nat.le_sub_one_of_lt fits
  refine ⟨Int64.ofNat (value digits), if_pos within, ?_⟩
  rw [value_eq_denoted, Int64.toInt_ofNat_of_lt fits]

theorem toInteger?_of_le (exceeds : 2 ^ 63 ≤ denoted digits) : toInteger? digits = none := by
  apply if_neg
  rw [value_eq_denoted, Nat.not_le]
  exact Nat.lt_of_lt_of_le (by decide) exceeds

end Decimal

/-- The token of a run of digits: a literal of the number that they denote, and an
unknown token where 63 bits do not hold that. -/
structure Token.Denotes (token : Token) (digits : List Char) : Prop where
  raw : token.raw = String.ofList digits
  within : Decimal.denoted digits < 2 ^ 63 → token.kind = .integerLiteral ∧
    ∃ number, token.value = some (.integer number) ∧ number.toInt = Decimal.denoted digits
  beyond : 2 ^ 63 ≤ Decimal.denoted digits → token.kind = .unknown ∧ token.value = none

theorem Token.Denotes.toInt {token : Token} {digits : List Char} {number : Int64}
    (denotes : token.Denotes digits) (carried : token.value = some (.integer number)) :
    number.toInt = Decimal.denoted digits := by
  by_cases fits : Decimal.denoted digits < 2 ^ 63
  · obtain ⟨-, exactly, value, denoted⟩ := denotes.within fits
    rw [carried, Option.some.injEq, Value.integer.injEq] at value
    rw [value, denoted]
  · obtain ⟨-, none⟩ := denotes.beyond (Nat.not_lt.mp fits)
    rw [carried] at none
    cases none

namespace Lexeme

/-- What stands behind digits that are read as an integer: no further digit, and no
point with a digit behind it. -/
structure EndsInteger (behind : List Char) : Prop where
  maximal : ∀ c ∈ behind.head?, c.isDigit = false
  whole {c : Char} {rest : List Char} : behind = '.' :: c :: rest → c.isDigit = false

variable {text digits behind : List Char} {length : Nat}

theorem run_digits (all : ∀ c ∈ digits, c.isDigit = true)
    (ends : ∀ c ∈ behind.head?, c.isDigit = false) :
    run Char.isDigit (digits ++ behind) = digits.length := by
  cases behind with
  | nil => rw [List.append_nil, run_of_all all]
  | cons c behind => rw [run_append (ends c rfl), run_of_all all]

theorem no_gap_of_digit (lead : text.head?.map Lead.of = some .digit) :
    Shape.blanks.reach text = 0 ∧ Shape.comment.reach text = 0 := by
  constructor
  · by_contra takes
    have blank := (lead_of_reach takes).trans lead
    cases blank
  · by_contra takes
    have brace := (lead_of_reach takes).trans lead
    exact absurd brace (by decide)

theorem first?_digits (isDigits : IsDigits digits) (ends : EndsInteger behind) :
    first? (digits ++ behind) = some (.integer, digits.length) := by
  have proper : digits.length ≠ 0 := by simpa using isDigits.1
  have integer : Shape.integer.reach (digits ++ behind) = digits.length :=
    run_digits isDigits.2 ends.maximal
  -- Nothing in front of the integers in the table takes any of them.
  have takes : Shape.integer.reach (digits ++ behind) ≠ 0 := by
    rw [integer]
    exact proper
  obtain ⟨blanks, comment⟩ := no_gap_of_digit (lead_of_reach takes).symm
  have real : Shape.real.reach (digits ++ behind) = 0 := by
    by_contra takes
    obtain ⟨whole, fraction, shape, allDigits⟩ := parts_of_reach_real takes
    have lengths : whole.length = digits.length := by
      rw [← integer, shape, Shape.reach, run_append (by rfl), allDigits]
    obtain ⟨-, rfl⟩ := List.append_inj shape lengths.symm
    rw [shape, reach_real_eq allDigits] at takes
    apply takes
    apply if_pos
    right
    cases fraction with
    | nil => rfl
    | cons c fraction => simp [run, ends.whole rfl]
  simp only [first?, table, List.findSome?_cons, blanks, comment, real, integer, proper, if_true,
    if_false]

theorem matched_of_first? {sort : Class} (first : first? text = some (sort, length)) :
    ∃ shape, (shape, sort) ∈ table ∧ shape.Matches (text.take length) ∧
      ∀ entry ∈ table, ∀ more, more <+: text.drop length →
        entry.1.Matches (text.take length ++ more) → more = [] := by
  obtain ⟨_, shape, _, split, _, found⟩ := longest_of_first? first
  refine ⟨shape, found.listed, found.matched, ?_⟩
  intro entry listed more begins matched
  have front : text.take length ++ more <+: text := by
    rcases begins with ⟨rest, whole⟩
    exact ⟨rest, by rw [List.append_assoc, whole, List.take_append_drop]⟩
  have short := found.longest entry listed _ front matched
  rw [List.length_append, List.length_take_of_le found.within] at short
  exact List.length_eq_zero_iff.mp (by omega)

theorem IsDigits.append {digit : Char} (isDigits : IsDigits digits) (more : digit.isDigit = true) :
    IsDigits (digits ++ [digit]) :=
  ⟨by simp, by simpa [or_imp, forall_and, more] using isDigits.2⟩

/-- What is read as an integer are digits by themselves. -/
theorem digits_of_first? (first : first? text = some (.integer, length)) :
    IsDigits (text.take length) ∧ EndsInteger (text.drop length) := by
  obtain ⟨shape, listed, matched, longest⟩ := matched_of_first? first
  have integer : shape = .integer := by simpa [table] using listed
  subst integer
  have isDigits : IsDigits (text.take length) := matched
  refine ⟨isDigits, ?_, ?_⟩
  · intro c first
    rw [← Bool.not_eq_true]
    intro digit
    rcases List.head?_eq_some_iff.mp first with ⟨rest, behind⟩
    have longer := isDigits.append digit
    have none := longest (.integer, .integer) (by decide) [c] ⟨rest, behind.symm⟩ longer
    cases none
  · intro c rest behind
    rw [← Bool.not_eq_true]
    intro digit
    have fraction : IsDigits [c] := ⟨by simp, by simpa using digit⟩
    have none := longest (.real, .real) (by decide) ['.', c] ⟨rest, behind.symm⟩
      ⟨text.take length, [c], isDigits, fraction, rfl⟩
    cases none

end Lexeme

namespace Lexer

variable {lexer : Lexer} {text digits behind : List Char} {length line : Nat} {token : Token}

theorem denotes_integerToken (digits : List Char) (line : Nat) :
    (integerToken digits line).Denotes digits := by
  have raw : (integerToken digits line).raw = String.ofList digits := by
    unfold integerToken
    cases Decimal.toInteger? digits <;> rfl
  refine ⟨raw, ?_, ?_⟩
  · intro fits
    obtain ⟨number, found, exactly⟩ := Decimal.toInteger?_of_lt fits
    rw [integerToken, found]
    exact ⟨rfl, number, rfl, exactly⟩
  · intro exceeds
    rw [integerToken, Decimal.toInteger?_of_le exceeds]
    exact ⟨rfl, rfl⟩

theorem scan_digits (here : lexer.rest = digits ++ behind) (isDigits : Lexeme.IsDigits digits)
    (ends : Lexeme.EndsInteger behind) :
    lexer.scan = (integerToken digits lexer.line, lexer.advance digits.length) := by
  have first : Lexeme.first? lexer.rest = some (.integer, digits.length) := by
    rw [here, Lexeme.first?_digits isDigits ends]
  apply scan_token first
  rw [here, List.take_left]
  rfl

theorem wordToken_value (text : List Char) (line : Nat) :
    (wordToken text line).value = none ∨
      ∃ name, (wordToken text line).value = some (.name name) := by
  unfold wordToken
  split
  · exact .inr ⟨_, rfl⟩
  · exact .inl rfl
  · exact .inr ⟨_, rfl⟩

inductive Carries (lexer : Lexer) (length : Nat) (token : Token) : Prop where
  | nothing : token.value = none → Carries lexer length token
  | name {name : String} : token.value = some (.name name) → Carries lexer length token
  | real {whole fraction : List Char} :
      token.value = some (.real (Decimal.toBinary64 whole fraction)) → Carries lexer length token
  | integer : Lexeme.first? lexer.rest = some (.integer, length) →
      token = integerToken (lexer.rest.take length) lexer.line → Carries lexer length token

theorem Makes.carries (made : lexer.Makes token length) : lexer.Carries length token := by
  cases made with
  | ending | unknown => exact .nothing rfl
  | @lexeme sort length token first made =>
      cases sort with
      | gap => cases made
      | real =>
          cases made
          exact .real rfl
      | integer =>
          cases made
          exact .integer first rfl
      | word =>
          cases made
          rcases wordToken_value (lexer.rest.take length) lexer.line with none | ⟨name, named⟩
          · exact .nothing none
          · exact .name named
      | sign | fixed =>
          cases made
          exact .nothing rfl

variable {source : String} {position : Nat}

theorem Resumes.scan_makes (resumes : Resumes source position lexer) :
    ∃ place maker length, Resumes source place maker ∧ maker.Makes lexer.scan.1 length := by
  fun_induction Lexer.scan lexer generalizing position with
  | case1 lexer ended => exact ⟨position, lexer, 0, resumes, .ending ended⟩
  | case2 lexer c tail shape none => exact ⟨position, lexer, 1, resumes, .unknown shape none⟩
  | case3 lexer c tail shape sort length first _ ih => exact ih (resumes.lexeme first)
  | case4 lexer c tail shape sort length first token made =>
      exact ⟨position, lexer, length, resumes, .lexeme first made⟩

theorem Resumes.made_of_mem (resumes : Resumes source position lexer)
    (present : token ∈ lexer.tokens) :
    ∃ place maker length, Resumes source place maker ∧ maker.Makes token length := by
  have makes : ∀ lexer : Lexer, (∃ place, Resumes source place lexer) →
      ∃ (maker : Lexer) (length : Nat),
        (∃ place, Resumes source place maker) ∧ maker.Makes lexer.next.1 length := by
    rintro lexer ⟨place, resumes⟩
    obtain ⟨later, maker, length, resumes, made⟩ := resumes.scan_makes
    exact ⟨maker, length, ⟨later, resumes⟩, made⟩
  have keeps : ∀ lexer : Lexer, (∃ place, Resumes source place lexer) →
      ∃ later, Resumes source later lexer.next.2 := by
    rintro lexer ⟨place, resumes⟩
    exact resumes.next
  obtain ⟨maker, length, ⟨place, resumes⟩, made⟩ :=
    made_of_mem_tokens_of makes keeps ⟨position, resumes⟩ present
  exact ⟨place, maker, length, resumes, made⟩

/-- Wherever the text is looked at, the tokens of the text are some that come before,
and those of what is left of it, up to how its signs are read. -/
theorem Resumes.reached (resumes : Resumes source position lexer) :
    ∃ (front : List Token) (other : Lexer), tokenize source = front ++ other.tokens ∧
      other.rest = lexer.rest ∧ other.line = lexer.line := by
  -- What is handed out here joins the tokens in front.
  have passed : ∀ {front : List Token} {other last : Lexer} {token : Token},
      tokenize source = front ++ other.tokens → other.scan = (token, last) →
      token.kind ≠ .endOfInput →
      tokenize source = (front ++ [token]) ++ (last.behind token.kind).tokens := by
    intro front other last token whole scanned notEnd
    rw [whole, tokens_of_scan scanned notEnd, List.append_assoc]
    rfl
  induction resumes with
  | start => exact ⟨[], ofSource source, rfl, rfl, rfl⟩
  | @lexeme position length lexer sort _ first ih =>
      obtain ⟨front, other, whole, rest, line⟩ := ih
      have advanced : (other.advance length).rest = (lexer.advance length).rest ∧
          (other.advance length).line = (lexer.advance length).line := by
        simp only [advance, rest, line, and_self]
      rw [← rest] at first
      cases made : other.token? sort (other.rest.take length) with
      | none =>
          rcases eq_gap_of_token? made with rfl
          rw [tokens_of_scan_eq (scan_gap first)] at whole
          exact ⟨front, _, whole, advanced⟩
      | some token =>
          have whole := passed whole (scan_token first made) (token?_ne_endOfInput first made)
          exact ⟨_, _, whole, advanced⟩
  | @unknown position lexer c tail _ shape none ih =>
      obtain ⟨front, other, whole, rest, line⟩ := ih
      rw [← rest] at shape none
      have whole := passed whole (scan_unknown shape none) Kind.noConfusion
      refine ⟨_, _, whole, ?_⟩
      simp only [behind, advance, rest, line, and_self]
  | context _ _ _ ih => exact ih

/-- What is read at a place of the text whatever has been handed out before is handed
out there next, and is one of the tokens of the text. -/
theorem Resumes.handed (resumes : Resumes source position lexer)
    (scans : ∀ other : Lexer, other.rest = lexer.rest → other.line = lexer.line →
      other.scan = (token, other.advance length))
    (notEnd : token.kind ≠ .endOfInput) :
    lexer.next.1 = token ∧ lexer.next.2.rest = lexer.rest.drop length ∧
      ∃ (front : List Token) (after : Lexer),
        tokenize source = front ++ token :: after.tokens ∧
        after.rest = lexer.rest.drop length := by
  refine ⟨?_, ?_, ?_⟩
  · rw [next_eq, scans lexer rfl rfl]
  · rw [next_eq, scans lexer rfl rfl]
    rfl
  · obtain ⟨front, other, whole, rest, line⟩ := resumes.reached
    rw [tokens_of_scan (scans other rest line) notEnd] at whole
    refine ⟨front, _, whole, ?_⟩
    rw [← rest]
    rfl

end Lexer

end PascalFrontEnd
