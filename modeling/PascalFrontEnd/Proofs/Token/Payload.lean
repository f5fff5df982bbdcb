import PascalFrontEnd.Proofs.Token.Handing
import PascalFrontEnd.Proofs.Tree.Writing

namespace PascalFrontEnd

namespace Token

def IsNumber (token : Token) : Prop :=
  (token.kind = .integerLiteral ∧ ∃ number, token.value = some (.integer number)) ∨
    (token.kind = .realLiteral ∧ ∃ number, token.value = some (.real number))

def IsVariable (token : Token) : Prop :=
  token.kind = .identifier ∧ token.value = some (.name token.raw) ∧ IsName token.raw

def IsSign (token : Token) : Prop :=
  token.kind = .unarySign ∧ (token.raw = "+" ∨ token.raw = "-")

def IsOperator (token : Token) : Prop :=
  (token.kind = .plus ∧ token.raw = "+") ∨ (token.kind = .minus ∧ token.raw = "-") ∨
    (token.kind = .times ∧ token.raw = "*") ∨ (token.kind = .realDivision ∧ token.raw = "/") ∨
    (token.kind = .integerDivision ∧ Spells "DIV" token.text)

/-- The characters and the payload of the token are what its kind promises;
most kinds promise nothing. -/
def Genuine (token : Token) : Prop :=
  match token.kind with
  | .integerLiteral | .realLiteral => token.IsNumber
  | .identifier => token.IsVariable
  | .unarySign => token.IsSign
  | .plus | .minus | .times | .realDivision | .integerDivision => token.IsOperator
  | .typeName => IsTypeName token.name
  | _ => True

variable {token : Token}

theorem Genuine.isNumber (genuine : token.Genuine)
    (kind : token.kind = .integerLiteral ∨ token.kind = .realLiteral) : token.IsNumber := by
  unfold Genuine at genuine
  rcases kind with kind | kind <;> rw [kind] at genuine <;> exact genuine

theorem Genuine.isVariable (genuine : token.Genuine) (kind : token.kind = .identifier) :
    token.IsVariable := by
  unfold Genuine at genuine
  rw [kind] at genuine
  exact genuine

theorem Genuine.isSign (genuine : token.Genuine) (kind : token.kind = .unarySign) :
    token.IsSign := by
  unfold Genuine at genuine
  rw [kind] at genuine
  exact genuine

theorem Genuine.isOperator (genuine : token.Genuine)
    (joins : token.kind.isAdditive = true ∨ token.kind.isMultiplicative = true) :
    token.IsOperator := by
  unfold Genuine at genuine
  generalize token.kind = kind at genuine joins
  rcases joins with additive | multiplicative
  · rcases Kind.eq_of_isAdditive additive with rfl | rfl <;> exact genuine
  · rcases Kind.eq_of_isMultiplicative multiplicative with rfl | rfl | rfl <;> exact genuine

theorem Genuine.isTypeName (genuine : token.Genuine) (kind : token.kind = .typeName) :
    IsTypeName token.name := by
  unfold Genuine at genuine
  rw [kind] at genuine
  exact genuine

theorem IsVariable.isName (variable' : token.IsVariable) : IsName token.name := by
  rcases variable' with ⟨-, value, named⟩
  rw [Token.name, value]
  exact named

end Token

namespace Lexeme

variable {text : List Char} {length : Nat}

theorem isWord_of_first? (first : first? text = some (.word, length)) :
    IsWord (text.take length) := by
  obtain ⟨shape, listed, reach, pos⟩ := reach_of_first? first
  have word : shape = .word := by
    simpa [table] using listed
  subst word
  cases text with
  | nil =>
      rw [← reach] at pos
      exact absurd rfl (Nat.ne_of_gt pos)
  | cons head rest =>
      rw [Shape.reach] at reach
      split at reach
      · rename_i starts
        rw [← reach, List.take_succ_cons]
        exact ⟨head, _, rfl, starts, all_take_run isWordPart rest⟩
      · omega

theorem take_reach_symbol {mark : List Char} (reach : (Shape.symbol mark).reach text = length)
    (pos : 0 < length) : text.take length = mark := by
  rw [Shape.reach] at reach
  split at reach
  · rename_i begins
    rw [← reach]
    exact (List.prefix_iff_eq_take.mp (List.isPrefixOf_iff_prefix.mp begins)).symm
  · omega

theorem take_of_first?_sign {binary : Kind} (first : first? text = some (.sign binary, length)) :
    (binary = .plus ∧ text.take length = ['+']) ∨ (binary = .minus ∧ text.take length = ['-']) := by
  obtain ⟨shape, listed, reach, pos⟩ := reach_of_first? first
  simp only [table, List.mem_cons, List.not_mem_nil, Prod.mk.injEq, Class.sign.injEq,
    reduceCtorEq, and_false, false_or, or_false] at listed
  rcases listed with ⟨rfl, rfl⟩ | ⟨rfl, rfl⟩
  · exact .inl ⟨rfl, take_reach_symbol reach pos⟩
  · exact .inr ⟨rfl, take_reach_symbol reach pos⟩

end Lexeme

namespace Lexer

variable {lexer : Lexer} {text : List Char} {length line : Nat} {token : Token}

theorem genuine_integerToken (text : List Char) (line : Nat) :
    (integerToken text line).Genuine := by
  unfold integerToken
  split
  · rename_i number _
    exact .inl ⟨rfl, number, rfl⟩
  · trivial

theorem genuine_wordToken (word : IsWord text) (line : Nat) : (wordToken text line).Genuine := by
  unfold wordToken
  split
  · rename_i found
    obtain ⟨type, listed, spelled⟩ := Spells.of_kind? found
    have types : type = "INTEGER" ∨ type = "REAL" := by
      simpa [Keyword.table] using listed
    have upper : Keyword.upperCase text = type.toList := spelled
    show IsTypeName (String.ofList (Keyword.upperCase text))
    rw [upper, String.ofList_toList]
    exact types
  · rename_i kind other found
    obtain ⟨reserved, listed, spelled⟩ := Spells.of_kind? found
    simp only [Keyword.table, List.mem_cons, Prod.mk.injEq, List.not_mem_nil, or_false] at listed
    rcases listed with ⟨-, rfl⟩ | ⟨rfl, rfl⟩ | ⟨-, rfl⟩ | ⟨-, rfl⟩ | ⟨-, rfl⟩ | ⟨-, rfl⟩ |
      ⟨-, rfl⟩ | ⟨-, rfl⟩
    case inr.inl =>
      have spelled : Spells "DIV" (String.ofList text).toList := by
        rw [String.toList_ofList]
        exact spelled
      exact .inr (.inr (.inr (.inr ⟨rfl, spelled⟩)))
    case inr.inr.inr.inl => exact absurd rfl other
    case inr.inr.inr.inr.inr.inr.inl => exact absurd rfl other
    all_goals trivial
  · rename_i free
    have named : IsName (String.ofList text) := by
      rw [IsName, String.toList_ofList]
      exact ⟨word, free⟩
    exact ⟨rfl, rfl, named⟩

theorem genuine_of_fixed {kind : Kind} (first : Lexeme.first? text = some (.fixed kind, length))
    (line : Nat) : (Token.mk kind (String.ofList (text.take length)) none line).Genuine := by
  obtain ⟨shape, listed, reach, pos⟩ := Lexeme.reach_of_first? first
  simp only [Lexeme.table, List.mem_cons, List.not_mem_nil, Prod.mk.injEq,
    Lexeme.Class.fixed.injEq, reduceCtorEq, and_false, false_or, or_false] at listed
  rcases listed with ⟨-, rfl⟩ | ⟨-, rfl⟩ | ⟨rfl, rfl⟩ | ⟨rfl, rfl⟩ | ⟨-, rfl⟩ | ⟨-, rfl⟩ |
    ⟨-, rfl⟩ | ⟨-, rfl⟩ | ⟨-, rfl⟩
  case inr.inr.inl =>
    rw [Lexeme.take_reach_symbol reach pos]
    exact .inr (.inr (.inl ⟨rfl, rfl⟩))
  case inr.inr.inr.inl =>
    rw [Lexeme.take_reach_symbol reach pos]
    exact .inr (.inr (.inr (.inl ⟨rfl, rfl⟩)))
  all_goals trivial

theorem Makes.genuine (made : lexer.Makes token length) : token.Genuine := by
  cases made with
  | ending => trivial
  | unknown => trivial
  | @lexeme sort length token first made =>
      cases sort with
      | gap => cases made
      | real =>
          cases made
          exact .inr ⟨rfl, _, rfl⟩
      | integer =>
          cases made
          exact genuine_integerToken _ _
      | word =>
          cases made
          exact genuine_wordToken (Lexeme.isWord_of_first? first) _
      | sign binary =>
          cases made
          rcases Lexeme.take_of_first?_sign first with ⟨rfl, mark⟩ | ⟨rfl, mark⟩ <;> rw [mark] <;>
            cases lexer.signIsUnary
          · exact .inl ⟨rfl, rfl⟩
          · exact ⟨rfl, .inl rfl⟩
          · exact .inr (.inl ⟨rfl, rfl⟩)
          · exact ⟨rfl, .inr rfl⟩
      | fixed kind =>
          cases made
          exact genuine_of_fixed first _

theorem genuine_of_mem_tokens (present : token ∈ lexer.tokens) : token.Genuine := by
  obtain ⟨maker, length, made⟩ := made_of_mem_tokens present
  exact made.genuine

end Lexer

end PascalFrontEnd
