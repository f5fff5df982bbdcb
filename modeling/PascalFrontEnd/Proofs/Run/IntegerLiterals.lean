import PascalFrontEnd.Proofs.Run.Conservation
import PascalFrontEnd.Proofs.Token.Numbers

namespace PascalFrontEnd

namespace Lexer

variable {source : String} {position : Nat} {lexer : Lexer} {digits behind : List Char}

theorem Resumes.literal (resumes : Resumes source position lexer)
    (here : lexer.rest = digits ++ behind) (isDigits : Lexeme.IsDigits digits)
    (ends : Lexeme.EndsInteger behind) :
    lexer.next.1.Denotes digits ∧ lexer.next.2.rest = behind ∧
      ∃ (front : List Token) (after : Lexer),
        tokenize source = front ++ lexer.next.1 :: after.tokens ∧ after.rest = behind := by
  have scans : ∀ other : Lexer, other.rest = lexer.rest → other.line = lexer.line →
      other.scan = (integerToken digits lexer.line, other.advance digits.length) := by
    intro other rest line
    rw [scan_digits (rest.trans here) isDigits ends, line]
  have notEnd : (integerToken digits lexer.line).kind ≠ .endOfInput := by
    unfold integerToken
    cases Decimal.toInteger? digits <;> exact Kind.noConfusion
  have behind' : lexer.rest.drop digits.length = behind := by
    rw [here, List.drop_left]
  obtain ⟨next, rest, among⟩ := resumes.handed scans notEnd
  rw [behind'] at rest among
  rw [next]
  exact ⟨denotes_integerToken digits lexer.line, rest, among⟩

/-- Where a token carries an integer, there are digits by themselves in the text. -/
theorem digits_of_mem {token : Token} {number : Int64} (present : token ∈ tokenize source)
    (carried : token.value = some (.integer number)) :
    ∃ place maker behind, Resumes source place maker ∧ maker.rest = token.text ++ behind ∧
      Lexeme.IsDigits token.text ∧ Lexeme.EndsInteger behind ∧ maker.next.1 = token := by
  obtain ⟨place, maker, length, resumes, made⟩ := Resumes.start.made_of_mem present
  have text := made.reads.1
  cases made.carries with
  | nothing none =>
      rw [none] at carried
      cases carried
  | name named =>
      rw [named] at carried
      cases carried
  | real real =>
      rw [real] at carried
      cases carried
  | integer first shape =>
      obtain ⟨isDigits, ends⟩ := Lexeme.digits_of_first? first
      have here := (List.take_append_drop length maker.rest).symm
      rw [text, shape]
      refine ⟨place, maker, maker.rest.drop length, resumes, here, isDigits, ends, ?_⟩
      rw [next_eq, scan_digits here isDigits ends]

end Lexer

/-- In every source digits by themselves become one token, of the number that they
denote or unknown where that has more than 63 bits; no other token carries an integer,
so that none is negative; and the integers in a tree are what their characters denote. -/
theorem tokenize_integers (source : String) :
    (∀ {position lexer digits behind}, Lexer.Resumes source position lexer →
      lexer.rest = digits ++ behind → Lexeme.IsDigits digits → Lexeme.EndsInteger behind →
      lexer.next.1.Denotes digits ∧ lexer.next.2.rest = behind ∧
        ∃ (front : List Token) (after : Lexer),
          tokenize source = front ++ lexer.next.1 :: after.tokens ∧ after.rest = behind) ∧
    (∀ token ∈ tokenize source, ∀ number, token.value = some (.integer number) →
      (∃ position lexer behind, Lexer.Resumes source position lexer ∧
        lexer.rest = token.text ++ behind ∧ Lexeme.IsDigits token.text ∧
        Lexeme.EndsInteger behind ∧ lexer.next.1 = token) ∧
      0 ≤ number.toInt) ∧
    ∀ mode tree, parseSource source mode = .ok tree →
      ∀ token number, Mention.token token ∈ tree.mentions →
        token.value = some (.integer number) → number.toInt = Decimal.denoted token.text := by
  have exactly : ∀ token ∈ tokenize source, ∀ number, token.value = some (.integer number) →
      number.toInt = Decimal.denoted token.text := by
    intro token present number carried
    obtain ⟨place, maker, behind, resumes, here, isDigits, ends, rfl⟩ :=
      Lexer.digits_of_mem present carried
    exact (resumes.literal here isDigits ends).1.toInt carried
  refine ⟨?_, ?_, ?_⟩
  · intro position lexer digits behind resumes here isDigits ends
    exact resumes.literal here isDigits ends
  · intro token present number carried
    refine ⟨Lexer.digits_of_mem present carried, ?_⟩
    rw [exactly token present number carried]
    exact Int.natCast_nonneg _
  · intro mode tree parsed token number here carried
    exact exactly token (Session.mentioned_of_parseSource parsed here).1 number carried

def largest : Token :=
  ⟨.integerLiteral, "009223372036854775807", some (.integer 9223372036854775807), 1⟩

/-- The point in front of a letter ends the literal. -/
theorem tokenize_largest_integers :
    Lexeme.IsDigits largest.text ∧ Lexeme.EndsInteger ['.', 'x'] ∧
    ((Lexer.ofSource "009223372036854775807.x").next.1.Denotes largest.text ∧
      ∃ (front : List Token) (after : Lexer),
        tokenize "009223372036854775807.x" =
          front ++ (Lexer.ofSource "009223372036854775807.x").next.1 :: after.tokens ∧
        after.rest = ['.', 'x']) ∧
    parseSource "009223372036854775807.x" .loose = .ok (.number largest) ∧
    (∃ position lexer behind, Lexer.Resumes "009223372036854775807.x" position lexer ∧
      lexer.rest = largest.text ++ behind ∧ lexer.next.1 = largest) ∧
    (9223372036854775807 : Int64).toInt = Decimal.denoted largest.text := by
  obtain ⟨become, only, parsedOnly⟩ := tokenize_integers "009223372036854775807.x"
  have all : largest.text.all Char.isDigit = true := by decide
  have isDigits : Lexeme.IsDigits largest.text := ⟨by decide, List.all_eq_true.mp all⟩
  have ends : Lexeme.EndsInteger ['.', 'x'] := by
    constructor
    · rintro c ⟨⟩
      rfl
    · rintro c rest ⟨⟩
      rfl
  have parsed : parseSource "009223372036854775807.x" .loose = .ok (.number largest) := by
    with_unfolding_all rfl
  have here : Mention.token largest ∈ (Tree.number largest).mentions := List.mem_cons_self
  have present := (Session.mentioned_of_parseSource parsed here).1
  obtain ⟨denotes, -, among⟩ := become .start rfl isDigits ends
  obtain ⟨⟨position, lexer, behind, resumes, split, -, -, next⟩, -⟩ := only largest present _ rfl
  exact ⟨isDigits, ends, ⟨denotes, among⟩, parsed, ⟨position, lexer, behind, resumes, split, next⟩,
    parsedOnly .loose _ parsed largest _ here rfl⟩

end PascalFrontEnd
