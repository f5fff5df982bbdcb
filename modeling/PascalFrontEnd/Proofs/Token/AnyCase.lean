import PascalFrontEnd.Proofs.Token.UpperCase

namespace PascalFrontEnd

def foldCase (text : String) : String :=
  String.ofList (Keyword.upperCase text.toList)

def Value.folded : Value → Value
  | .name text => .name (foldCase text)
  | .integer number => .integer number
  | .real number => .real number

/-- The token in upper case. So is the payload of an identifier, its name as it is
written; the payloads of other tokens stay what they are. -/
def Token.folded (token : Token) : Token :=
  { token with
    raw := foldCase token.raw
    value := if token.kind = .identifier then token.value.map Value.folded else token.value }

def SameButCase (token other : Token) : Prop :=
  token.folded = other.folded

instance : Likeness SameButCase where
  refl _ := rfl
  kind_eq {token other} same :=
    show token.folded.kind = other.folded.kind from congrArg Token.kind same

theorem foldCase_ofList (text : List Char) :
    foldCase (String.ofList text) = String.ofList (Keyword.upperCase text) := by
  rw [foldCase, String.toList_ofList]

theorem foldCase_foldCase (text : String) : foldCase (foldCase text) = foldCase text := by
  rw [foldCase.eq_def text, foldCase_ofList, Keyword.upperCase_upperCase]

theorem Token.folded_bare (kind : Kind) (raw : String) (line : Nat) :
    Token.folded ⟨kind, raw, none, line⟩ = ⟨kind, foldCase raw, none, line⟩ := by
  unfold Token.folded
  split <;> rfl

theorem Token.folded_of_ne {kind : Kind} (other : kind ≠ .identifier) (raw : String)
    (value : Option Value) (line : Nat) :
    Token.folded ⟨kind, raw, value, line⟩ = ⟨kind, foldCase raw, value, line⟩ := by
  unfold Token.folded
  rw [if_neg other]

theorem foldCase_name_folded (token : Token) :
    foldCase token.folded.name = foldCase token.name := by
  rcases token with ⟨kind, raw, value, line⟩
  cases value with
  | none =>
      rw [Token.folded_bare]
      exact foldCase_foldCase raw
  | some value =>
      unfold Token.folded
      cases value with
      | integer | real => split <;> exact foldCase_foldCase raw
      | name text =>
          split
          · exact foldCase_foldCase text
          · rfl

theorem SameButCase.name_eq {token other : Token} (same : SameButCase token other) :
    foldCase token.name = foldCase other.name := by
  rw [← foldCase_name_folded token, ← foldCase_name_folded other,
    show token.folded = other.folded from same]

namespace Lexer

open Keyword

variable {lexer : Lexer} {text : List Char} {sort : Lexeme.Class} {length : Nat}

def folded (lexer : Lexer) : Lexer :=
  { lexer with rest := upperCase lexer.rest }

theorem advance_folded (lexer : Lexer) (length : Nat) :
    lexer.folded.advance length = (lexer.advance length).folded := by
  have lines : ((upperCase lexer.rest).take length).count '\n' =
      (lexer.rest.take length).count '\n' := by
    rw [upperCase, ← List.map_take]
    exact count_upperCase _
  have behind : (upperCase lexer.rest).drop length = upperCase (lexer.rest.drop length) :=
    List.map_drop.symm
  simp only [advance, folded, lines, behind]

theorem wordToken_folded (text : List Char) (line : Nat) :
    wordToken (upperCase text) line = (wordToken text line).folded := by
  unfold wordToken
  rw [kind?_upperCase]
  split
  · rw [Token.folded_of_ne (by decide), foldCase_ofList, upperCase_upperCase]
  · rw [Token.folded_bare, foldCase_ofList]
  · simp only [Token.folded, Option.map_some, Value.folded, foldCase_ofList, if_true]

theorem token?_folded (lexer : Lexer) (first : Lexeme.first? text = some (sort, length)) :
    lexer.folded.token? sort (upperCase (text.take length)) =
      (lexer.token? sort (text.take length)).map Token.folded := by
  cases sort with
  | gap => rfl
  | real =>
      have digits := upperCase_of_noLetters (Lexeme.noLetters_of_first? first (.inl rfl))
      rw [digits, token?, token?, Option.map_some, realToken, realToken,
        Token.folded_of_ne (by decide), foldCase_ofList, digits]
      rfl
  | integer =>
      have digits := upperCase_of_noLetters (Lexeme.noLetters_of_first? first (.inr rfl))
      rw [digits, token?, token?, Option.map_some, integerToken, integerToken]
      split
      · rw [Token.folded_of_ne (by decide), foldCase_ofList, digits]
        rfl
      · rw [Token.folded_bare, foldCase_ofList, digits]
        rfl
  | word => exact congrArg some (wordToken_folded _ lexer.line)
  | sign binary =>
      rw [token?, token?, Option.map_some, Token.folded_bare, foldCase_ofList]
      rfl
  | fixed kind =>
      rw [token?, token?, Option.map_some, Token.folded_bare, foldCase_ofList]
      rfl

theorem scan_folded (lexer : Lexer) :
    lexer.folded.scan = (lexer.scan.1.folded, lexer.scan.2.folded) := by
  have first' : Lexeme.first? lexer.folded.rest = Lexeme.first? lexer.rest :=
    Lexeme.first?_upperCase lexer.rest
  fun_induction scan lexer with
  | case1 lexer ended =>
      have ended' : lexer.folded.rest = [] := by
        rw [folded, ended]
        rfl
      rw [scan_nil ended', Token.endOfInput, Token.endOfInput, Token.folded_bare]
      rfl
  | case2 lexer c tail shape none =>
      have shape' : lexer.folded.rest = c.toUpper :: upperCase tail := by
        rw [folded, shape]
        rfl
      have upper : foldCase (String.singleton c) = String.singleton c.toUpper := by
        rw [String.singleton_eq_ofList, String.singleton_eq_ofList, foldCase_ofList]
        rfl
      rw [scan_unknown shape' (first'.trans none), advance_folded, Token.folded_bare, upper]
      rfl
  | case3 lexer c tail shape sort length first made ih =>
      have taken : lexer.folded.rest.take length = upperCase (lexer.rest.take length) :=
        List.map_take.symm
      have made' := lexer.token?_folded first
      rw [made, Option.map_none] at made'
      rw [scan_some (first'.trans first), taken, made', advance_folded]
      exact ih (Lexeme.first?_upperCase _)
  | case4 lexer c tail shape sort length first token made =>
      have taken : lexer.folded.rest.take length = upperCase (lexer.rest.take length) :=
        List.map_take.symm
      have made' := lexer.token?_folded first
      rw [made, Option.map_some] at made'
      rw [scan_some (first'.trans first), taken, made', advance_folded]

theorem next_folded (lexer : Lexer) :
    lexer.folded.next = (lexer.next.1.folded, lexer.next.2.folded) := by
  rw [next_eq, next_eq, scan_folded]
  rfl

theorem tokens_folded (lexer : Lexer) : lexer.folded.tokens = lexer.tokens.map Token.folded := by
  have kind : ∀ token : Token, token.folded.kind = token.kind := fun _ => rfl
  exact tokens_map kind next_folded lexer

end Lexer

theorem tokenize_foldCase (source : String) :
    tokenize (foldCase source) = (tokenize source).map Token.folded := by
  have start : Lexer.ofSource (foldCase source) = (Lexer.ofSource source).folded := by
    rw [Lexer.ofSource, foldCase, String.toList_ofList]
    rfl
  rw [tokenize, start, Lexer.tokens_folded]
  rfl

end PascalFrontEnd
