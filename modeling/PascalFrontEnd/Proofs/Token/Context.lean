import PascalFrontEnd.Proofs.Token.Excerpt

/-!
Lexers that stand at the same place of a text make the same token of it, but for the
kind of a sign, and behind that token they read everything alike.
-/

namespace PascalFrontEnd

theorem Kind.endsOperand_iff {kind : Kind} : kind.endsOperand = true ↔
    kind ∈ [.integerLiteral, .realLiteral, .identifier, .closeParen] := by
  cases kind <;> decide

namespace Token

def sign? (token : Token) : Option Kind :=
  if token.raw = "+" then some .plus
  else if token.raw = "-" then some .minus
  else none

/-- The token, with a sign read as a prefix or as an operator. -/
def signed (unary : Bool) (token : Token) : Token :=
  match token.sign? with
  | some binary => { token with kind := if unary then .unarySign else binary }
  | none => token

variable {token : Token} {binary : Kind}

theorem signed_of_none (none : token.sign? = none) (unary : Bool) : token.signed unary = token := by
  rw [signed, none]

theorem signed_of_some (sign : token.sign? = some binary) (unary : Bool) :
    token.signed unary = { token with kind := if unary then .unarySign else binary } := by
  rw [signed, sign]

theorem isAdditive_of_sign? (sign : token.sign? = some binary) : binary.isAdditive = true := by
  unfold sign? at sign
  split at sign
  · cases sign
    rfl
  · split at sign
    · cases sign
      rfl
    · cases sign

theorem not_endsOperand_signed (sign : token.sign? = some binary) (unary : Bool) :
    (token.signed unary).kind.endsOperand = false := by
  have additive := isAdditive_of_sign? sign
  rw [signed_of_some sign]
  cases unary with
  | true => rfl
  | false => rcases Kind.eq_of_isAdditive additive with rfl | rfl <;> rfl

theorem endsOperand_signed (token : Token) (unary other : Bool) :
    (token.signed unary).kind.endsOperand = (token.signed other).kind.endsOperand := by
  cases sign : token.sign? with
  | none => rw [signed_of_none sign, signed_of_none sign]
  | some binary => rw [not_endsOperand_signed sign, not_endsOperand_signed sign]

theorem sign?_iff : token.sign? = some binary ↔
    Lexeme.first? token.text = some (.sign binary, token.text.length) := by
  constructor
  · intro sign
    unfold sign? at sign
    split at sign
    · rename_i plus
      cases sign
      rw [text, plus]
      decide
    · split at sign
      · rename_i minus
        cases sign
        rw [text, minus]
        decide
      · cases sign
  · intro first
    have raw : token.raw = String.ofList token.text := String.ofList_toList.symm
    have taken := Lexeme.take_of_first?_sign first
    rw [List.take_length] at taken
    rcases taken with ⟨rfl, mark⟩ | ⟨rfl, mark⟩ <;> simp [sign?, raw, mark]

theorem sign?_of_other (none : ∀ binary length,
    Lexeme.first? token.text ≠ some (.sign binary, length)) : token.sign? = .none := by
  rw [Option.eq_none_iff_forall_ne_some]
  intro binary sign
  exact none binary _ (sign?_iff.mp sign)

end Token

namespace Lexer

variable {lexer other : Lexer} {sort : Lexeme.Class} {text : List Char} {token : Token}
  {length : Nat}

structure Abreast (lexer other : Lexer) : Prop where
  rest : lexer.rest = other.rest
  line : lexer.line = other.line

theorem Abreast.token? (abreast : lexer.Abreast other)
    (first : Lexeme.first? text = some (sort, text.length))
    (made : lexer.token? sort text = some token) :
    other.token? sort text = some (token.signed other.signIsUnary) := by
  have reads := (token?_reads made).1
  rw [← reads] at first
  cases sort with
  | gap => cases made
  | sign binary =>
      rw [Token.signed_of_some (Token.sign?_iff.mpr first)]
      cases made
      rw [Lexer.token?, abreast.line]
  | real | integer | word | fixed =>
      have noSign : token.sign? = none := Token.sign?_of_other (by simp [first])
      rw [Token.signed_of_none noSign, ← made, Lexer.token?, Lexer.token?, abreast.line]

theorem Abreast.makes (abreast : lexer.Abreast other) (made : lexer.Makes token length) :
    other.Makes (token.signed other.signIsUnary) length := by
  have text := made.reads.1
  cases made with
  | ending ended =>
      rw [abreast.line]
      exact .ending (abreast.rest ▸ ended)
  | @unknown c tail shape none =>
      have same : Token.signed other.signIsUnary ⟨.unknown, String.singleton c, .none, lexer.line⟩ =
          ⟨.unknown, String.singleton c, .none, other.line⟩ := by
        have alone : Lexeme.first? [c] = .none := by
          have front : lexer.rest = [c] ++ tail := shape
          rw [front] at none
          exact Lexeme.first?_eq_none_of_append none
        rw [abreast.line, Token.signed_of_none]
        apply Token.sign?_of_other
        simp [Token.text, alone]
      rw [same]
      exact .unknown (abreast.rest ▸ shape) (abreast.rest ▸ none)
  | @lexeme sort length token first made =>
      have whole := Lexeme.first?_take first
      have size : (lexer.rest.take length).length = length :=
        List.length_take_of_le (Lexeme.first?_le first)
      apply Makes.lexeme (abreast.rest ▸ first)
      rw [← abreast.rest]
      exact abreast.token? (by rw [size]; exact whole) made

theorem abreast_refl (lexer : Lexer) : lexer.Abreast lexer :=
  ⟨rfl, rfl⟩

theorem Abreast.symm (abreast : lexer.Abreast other) : other.Abreast lexer :=
  ⟨abreast.rest.symm, abreast.line.symm⟩

theorem Agrees.abreast (agrees : lexer.Agrees other) : lexer.Abreast other :=
  ⟨agrees.rest, agrees.line⟩

theorem Makes.scan (made : lexer.Makes token length) :
    lexer.scan = (token, lexer.advance length) := by
  cases made with
  | ending ended => rw [scan_nil ended, advance_zero]
  | unknown shape none => exact scan_unknown shape none
  | lexeme first made => exact scan_token first made

theorem Abreast.advance (abreast : lexer.Abreast other) (length : Nat) :
    (lexer.advance length).Abreast (other.advance length) := by
  constructor
  · simp [Lexer.advance, abreast.rest]
  · simp [Lexer.advance, abreast.rest, abreast.line]

/-- Lexers that are abreast make the same token, each with its own reading of signs,
and are abreast behind it. -/
theorem Abreast.scan (abreast : lexer.Abreast other) :
    other.scan.1 = lexer.scan.1.signed other.signIsUnary ∧
      lexer.scan.2.Abreast other.scan.2 := by
  rcases lexer.scan_makes with ⟨gap, token, length, between, ⟨more, whole⟩, made, scanned⟩
  have advanced := abreast.advance gap.length
  have here : other.rest = gap ++ more := by
    rw [← abreast.rest, whole]
  have scanned' := (advanced.makes made).scan
  rw [← between.scan here] at scanned'
  rw [scanned, scanned']
  exact ⟨rfl, advanced.advance length⟩

/-- Behind a token lexers that have been abreast agree. -/
theorem Abreast.next (abreast : lexer.Abreast other) :
    other.next.1 = lexer.next.1.signed other.signIsUnary ∧ lexer.next.2.Agrees other.next.2 := by
  rcases abreast.scan with ⟨token, behind⟩
  have itself : lexer.scan.1 = lexer.scan.1.signed lexer.signIsUnary := (abreast_refl lexer).scan.1
  have operand : lexer.scan.1.kind.endsOperand = other.scan.1.kind.endsOperand := by
    have same := lexer.scan.1.endsOperand_signed lexer.signIsUnary other.signIsUnary
    rw [← itself, ← token] at same
    exact same
  rw [next_eq, next_eq]
  refine ⟨token, behind.rest, behind.line, ?_⟩
  simp [signIsUnary, operand]

theorem next_signed (lexer : Lexer) : lexer.next.1 = lexer.next.1.signed lexer.signIsUnary :=
  (abreast_refl lexer).next.1

theorem Abreast.ended (abreast : lexer.Abreast other) (ended : lexer.next.1.kind = .endOfInput) :
    other.next.1 = lexer.next.1 := by
  rcases lexer.exists_handsOut with ⟨gap, hands⟩
  rw [abreast.next.1, (hands.ended ended).1]
  rfl

theorem Agrees.tokens (agrees : lexer.Agrees other) : lexer.tokens = other.tokens := by
  rw [Lexer.tokens, Lexer.tokens.eq_def other, agrees.next]

theorem Abreast.tokens (abreast : lexer.Abreast other) :
    other.tokens = lexer.tokens.modifyHead (Token.signed other.signIsUnary) := by
  by_cases ended : lexer.next.1.kind = .endOfInput
  · have same := abreast.ended ended
    have ended' : other.next.1.kind = .endOfInput := by
      rw [same]
      exact ended
    rw [Lexer.tokens_last ended', Lexer.tokens_last ended, abreast.next.1]
    rfl
  · have proper : other.next.1.kind ≠ .endOfInput := by
      intro ended'
      rw [← abreast.symm.ended ended'] at ended'
      exact ended ended'
    rw [Lexer.tokens_cons proper, Lexer.tokens_cons ended, abreast.next.1,
      ← abreast.next.2.tokens]
    rfl

end Lexer

end PascalFrontEnd
