import PascalFrontEnd.Proofs.Grammar.Signs
import PascalFrontEnd.Proofs.Token.Boundary
import PascalFrontEnd.Proofs.Token.Scanning
import PascalFrontEnd.Proofs.Tree.Likeness

namespace PascalFrontEnd

namespace Token

def unlined (token : Token) : Token :=
  { token with line := 0 }

def text (token : Token) : List Char :=
  token.raw.toList

/-- The token is what the lexer makes of its characters: its payload is theirs,
and its kind is one that they may have. -/
def Lexed (token : Token) : Prop :=
  ∃ (lexer : Lexer) (sort : Lexeme.Class),
    Lexeme.first? token.text = some (sort, token.text.length) ∧
      lexer.token? sort token.text = some token

def IsOf (token : Token) (word : List Char) : Prop :=
  token.text = word ∧ token.Lexed

end Token

def SameButLine (token other : Token) : Prop :=
  token.unlined = other.unlined

instance : Likeness SameButLine where
  refl _ := rfl
  kind_eq {token other} same :=
    show token.unlined.kind = other.unlined.kind from congrArg Token.kind same

def Tree.unlined (tree : Tree) : Tree :=
  tree.map Token.unlined

theorem Tree.Alike.unlined_eq {tree other : Tree} (alike : tree.Alike SameButLine other) :
    tree.unlined = other.unlined := by
  have forgets : Forgets SameButLine Token.unlined := by
    refine ⟨id, fun {token other} same => ?_⟩
    have names := congrArg Token.name (show token.unlined = other.unlined from same)
    exact names
  exact map_eq_of_alike forgets alike

namespace Lexeme

theorem first?_blank {c : Char} (blank : isBlank c = true) (rest : List Char) :
    first? (c :: rest) = some (.gap, run isBlank (c :: rest)) := by
  have reach : Shape.blanks.reach (c :: rest) = run isBlank rest + 1 := by
    simp [Shape.reach, run, blank]
  simp only [first?, table, List.findSome?_cons, reach]
  simp [run, blank]

theorem first?_brace (rest : List Char) :
    first? ('{' :: rest) =
      if run (· != '}') rest < rest.length then some (.gap, run (· != '}') rest + 2) else none := by
  have blanks : run isBlank ('{' :: rest) = 0 := rfl
  have digits : run Char.isDigit ('{' :: rest) = 0 := rfl
  have noStart : isWordStart '{' = false := rfl
  by_cases closed : run (· != '}') rest < rest.length
  · simp [first?, table, Shape.reach, blanks, closed]
  · simp [first?, table, Shape.reach, blanks, digits, noStart, closed]

theorem begins_of_first? {text : List Char} {sort : Class} {length : Nat}
    (first : first? text = some (sort, length)) (proper : sort ≠ .gap) :
    ∃ head rest, text = head :: rest ∧ isSeparator head = false := by
  cases text with
  | nil =>
      have le := first?_le first
      have pos := first?_pos first
      rw [List.length_nil] at le
      omega
  | cons head rest =>
      refine ⟨head, rest, rfl, ?_⟩
      rw [← Bool.not_eq_true, isSeparator_iff]
      rintro (blank | rfl)
      · rw [first?_blank blank, Option.some.injEq, Prod.mk.injEq] at first
        exact proper first.1.symm
      · rw [first?_brace] at first
        split at first
        · rw [Option.some.injEq, Prod.mk.injEq] at first
          exact proper first.1.symm
        · cases first

theorem isAdditive_of_first? {text : List Char} {binary : Kind} {length : Nat}
    (first : first? text = some (.sign binary, length)) : binary.isAdditive = true := by
  obtain ⟨shape, present, -, -⟩ := reach_of_first? first
  simp only [table, List.mem_cons, List.not_mem_nil, or_false, Prod.mk.injEq] at present
  rcases present with ⟨-, sort⟩ | ⟨-, sort⟩ | ⟨-, sort⟩ | ⟨-, sort⟩ | ⟨-, sort⟩ | ⟨-, sort⟩ |
    ⟨-, sort⟩ | ⟨-, sort⟩ | ⟨-, sort⟩ | ⟨-, sort⟩ | ⟨-, sort⟩ | ⟨-, sort⟩ | ⟨-, sort⟩ |
    ⟨-, sort⟩ | ⟨-, sort⟩ | ⟨-, sort⟩ <;> cases sort <;> rfl

end Lexeme

namespace Lexer

theorem wordToken_unlined (text : List Char) (line line' : Nat) :
    SameButLine (wordToken text line) (wordToken text line') := by
  unfold wordToken
  rcases Keyword.kind? text with _ | kind
  · rfl
  · cases kind <;> rfl

theorem integerToken_unlined (text : List Char) (line line' : Nat) :
    SameButLine (integerToken text line) (integerToken text line') := by
  unfold integerToken
  cases Decimal.toInteger? text <;> rfl

theorem token?_unlined {lexer other : Lexer} {sort : Lexeme.Class} {text : List Char}
    {token : Token} (made : lexer.token? sort text = some token)
    (sign : ∀ binary, sort = .sign binary → lexer.signIsUnary = other.signIsUnary) :
    ∃ token', other.token? sort text = some token' ∧ SameButLine token token' := by
  cases sort with
  | gap => cases made
  | real =>
      cases made
      exact ⟨_, rfl, rfl⟩
  | integer =>
      cases made
      exact ⟨_, rfl, integerToken_unlined text lexer.line other.line⟩
  | word =>
      cases made
      exact ⟨_, rfl, wordToken_unlined text lexer.line other.line⟩
  | sign binary =>
      cases made
      refine ⟨_, rfl, ?_⟩
      rw [sign binary rfl]
      rfl
  | fixed kind =>
      cases made
      exact ⟨_, rfl, rfl⟩

end Lexer

def Separated (text : List Char) : Prop :=
  ∀ c ∈ text.head?, isSeparator c = true

/-- A lexeme is scanned again before any separator, where signs are read alike. -/
theorem Lexer.scan_again {maker lexer : Lexer} {sort : Lexeme.Class} {word rest : List Char}
    {token : Token} (first : Lexeme.first? word = some (sort, word.length))
    (made : maker.token? sort word = some token) (here : lexer.rest = word ++ rest)
    (ends : Separated rest)
    (sign : ∀ binary, sort = .sign binary → maker.signIsUnary = lexer.signIsUnary) :
    ∃ token', lexer.scan = (token', lexer.advance word.length) ∧ SameButLine token token' := by
  have proper : sort ≠ .gap := by
    rintro rfl
    cases made
  obtain ⟨head, tail, shape, begins⟩ := Lexeme.begins_of_first? first proper
  have found : Lexeme.first? lexer.rest = some (sort, word.length) := by
    rw [here, ← first]
    cases rest with
    | nil => rw [List.append_nil]
    | cons c rest =>
        rw [shape]
        exact Lexeme.first?_append begins (ends c rfl)
  obtain ⟨token', made', same⟩ := Lexer.token?_unlined made sign
  have taken : lexer.rest.take word.length = word := by
    rw [here, List.take_left]
  refine ⟨token', Lexer.scan_token found ?_, same⟩
  rw [taken]
  exact made'

/-- A token the lexer makes is scanned again from its characters. -/
theorem Token.Lexed.scan {token : Token} (lexed : token.Lexed) {lexer : Lexer}
    {rest : List Char} (here : lexer.rest = token.text ++ rest) (ends : Separated rest)
    (unbracketed : lexer.bracketed = false) (fits : SignFits lexer.previous token.kind) :
    ∃ token', lexer.scan = (token', lexer.advance token.text.length) ∧
      SameButLine token token' := by
  rcases lexed with ⟨maker, sort, first, made⟩
  -- The context calls for the sign that the token is.
  have sign : ∀ binary, sort = .sign binary → maker.signIsUnary = lexer.signIsUnary := by
    rintro binary rfl
    have additive := Lexeme.isAdditive_of_first? first
    have kind : token.kind = if maker.signIsUnary then .unarySign else binary := by
      have shape := Option.some.inj made
      exact (congrArg Token.kind shape).symm
    have unary : lexer.signIsUnary = !lexer.previous.any Kind.endsOperand := by
      rw [Lexer.signIsUnary, unbracketed, Bool.false_or]
    cases isUnary : maker.signIsUnary with
    | true =>
        rw [isUnary, if_pos rfl] at kind
        rw [unary, fits.1 kind]
        rfl
    | false =>
        rw [isUnary, if_neg Bool.false_ne_true] at kind
        rw [unary, fits.2 (kind ▸ additive)]
        rfl
  exact Lexer.scan_again first made here ends sign

end PascalFrontEnd
