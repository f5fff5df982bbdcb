import PascalFrontEnd.Proofs.Token.Excerpt

namespace PascalFrontEnd

def isDelimiter (c : Char) : Bool :=
  c == ',' || c == ')'

def Clear (text : List Char) : Prop :=
  ∀ c ∈ text, isDelimiter c = false

theorem Clear.of_all {text : List Char} (all : text.all (!isDelimiter ·) = true) : Clear text := by
  intro c inside
  simpa using List.all_eq_true.mp all c inside

theorem Clear.ofAll {property : Char → Bool} {text : List Char} (comma : property ',' = false)
    (closing : property ')' = false) (all : ∀ c ∈ text, property c = true) : Clear text := by
  intro c inside
  have has := all c inside
  rw [isDelimiter, Bool.or_eq_false_iff, beq_eq_false_iff_ne, beq_eq_false_iff_ne]
  constructor
  · rintro rfl
    rw [comma] at has
    cases has
  · rintro rfl
    rw [closing] at has
    cases has

theorem IsWord.clear {text : List Char} (word : IsWord text) : Clear text := by
  obtain ⟨head, rest, rfl, starts, parts⟩ := word
  exact .ofAll rfl rfl (List.forall_mem_cons.mpr ⟨isWordPart_of_isWordStart starts, parts⟩)

theorem IsName.clear {name : String} (named : IsName name) : Clear name.toList :=
  named.1.clear

namespace Lexeme

variable {text : List Char} {sort : Class}

theorem clear_of_reach_real (whole : Shape.real.reach text = text.length)
    (pos : 0 < text.length) : Clear text := by
  obtain ⟨front, fraction, rfl, digits⟩ :=
    parts_of_reach_real (show Shape.real.reach text ≠ 0 by omega)
  rw [reach_real_eq digits] at whole
  split at whole
  · omega
  · have fractionDigits : run Char.isDigit fraction = fraction.length := by
      simp only [List.length_append, List.length_cons] at whole
      omega
    intro c inside
    rcases List.mem_append.mp inside with inside | inside
    · exact Clear.ofAll rfl rfl (all_of_run digits) c inside
    · rcases List.mem_cons.mp inside with rfl | inside
      · rfl
      · exact Clear.ofAll rfl rfl (all_of_run fractionDigits) c inside

/-- A comma and a closing parenthesis are lexemes of their own, and no others
have them inside. -/
theorem clear_of_first? (first : first? text = some (sort, text.length)) (proper : sort ≠ .gap)
    (noComma : sort ≠ .fixed .comma) (noClosing : sort ≠ .fixed .closeParen) : Clear text := by
  obtain ⟨shape, listed, reach, pos⟩ := reach_of_first? first
  cases shape with
  | blanks | comment =>
      have gap : sort = .gap := by simpa [table] using listed
      exact absurd gap proper
  | real => exact clear_of_reach_real reach pos
  | integer => exact .ofAll rfl rfl (all_of_run reach)
  | word =>
      have word : sort = .word := by simpa [table] using listed
      subst word
      have read := isWord_of_first? first
      rw [List.take_length] at read
      exact read.clear
  | symbol mark =>
      have whole := take_reach_symbol reach pos
      rw [List.take_length] at whole
      rw [whole]
      simp only [table, List.mem_cons, List.not_mem_nil, Prod.mk.injEq, Shape.symbol.injEq,
        reduceCtorEq, false_and, false_or, or_false] at listed
      rcases listed with ⟨rfl, rfl⟩ | ⟨rfl, rfl⟩ | ⟨rfl, rfl⟩ | ⟨rfl, rfl⟩ | ⟨rfl, rfl⟩ |
        ⟨rfl, rfl⟩ | ⟨rfl, rfl⟩ | ⟨rfl, rfl⟩ | ⟨rfl, rfl⟩ | ⟨rfl, rfl⟩ | ⟨rfl, rfl⟩
      case inr.inr.inr.inr.inr.inr.inr.inl => exact absurd rfl noClosing
      case inr.inr.inr.inr.inr.inr.inr.inr.inr.inl => exact absurd rfl noComma
      all_goals exact .of_all rfl

end Lexeme

namespace Token

variable {token other : Token}

theorem Lexed.clear (lexed : token.Lexed) (noComma : token.kind ≠ .comma)
    (noClosing : token.kind ≠ .closeParen) : Clear token.text := by
  obtain ⟨maker, sort, first, made⟩ := lexed
  have kind : ∀ kind, sort = .fixed kind → token.kind = kind := by
    rintro kind rfl
    exact (congrArg Token.kind (Option.some.inj made)).symm
  refine Lexeme.clear_of_first? first ?_ (fun comma => noComma (kind _ comma))
    fun closing => noClosing (kind _ closing)
  rintro rfl
  cases made

theorem signIsUnary_of_made {maker : Lexer} {binary : Kind} {text : List Char} {length : Nat}
    (first : Lexeme.first? text = some (.sign binary, length))
    (made : maker.token? (.sign binary) text = some token) :
    maker.signIsUnary = decide (token.kind = .unarySign) := by
  have additive := Lexeme.isAdditive_of_first? first
  cases made
  cases maker.signIsUnary with
  | true => rfl
  | false =>
      symm
      apply decide_eq_false
      rintro rfl
      cases additive

/-- Tokens of the same characters differ in their lines at most, if a sign is a
prefix in both or in neither. -/
theorem Lexed.sameButLine (lexed : token.Lexed) (lexed' : other.Lexed)
    (raw : token.raw = other.raw) (sign : token.kind = .unarySign ↔ other.kind = .unarySign) :
    SameButLine token other := by
  obtain ⟨maker, sort, first, made⟩ := lexed
  obtain ⟨maker', sort', first', made'⟩ := lexed'
  have text : token.text = other.text := congrArg String.toList raw
  rw [text] at first made
  rw [first, Option.some.injEq, Prod.mk.injEq] at first'
  obtain ⟨rfl, -⟩ := first'
  have signs : ∀ binary, sort = .sign binary → maker.signIsUnary = maker'.signIsUnary := by
    rintro binary rfl
    rw [signIsUnary_of_made first made, signIsUnary_of_made first made', decide_eq_decide]
    exact sign
  obtain ⟨token', again, same⟩ := Lexer.token?_unlined made signs
  rw [made', Option.some.injEq] at again
  exact again ▸ same

end Token

theorem Lexer.Makes.lexed {maker : Lexer} {token : Token} {length : Nat}
    (made : maker.Makes token length) (known : token.kind ≠ .unknown)
    (notEnd : token.kind ≠ .endOfInput) : token.Lexed := by
  have text := made.reads.1
  cases made with
  | ending => exact absurd rfl notEnd
  | unknown => exact absurd rfl known
  | @lexeme sort _ _ first made =>
      have size : token.text.length = length := by
        rw [text, List.length_take_of_le (Lexeme.first?_le first)]
      refine ⟨maker, sort, ?_, ?_⟩
      · rw [size, text]
        exact Lexeme.first?_take first
      · rw [text]
        exact made

end PascalFrontEnd
