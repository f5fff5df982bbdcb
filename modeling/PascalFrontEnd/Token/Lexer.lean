import PascalFrontEnd.Token.Basic
import PascalFrontEnd.Token.Keyword
import PascalFrontEnd.Token.Lexeme
import PascalFrontEnd.Number.Decimal

/-!
The lexer. Its state is the text not yet read, the current line, the kind of
the token handed out last, and whether a bracket has been announced since. The
last two decide how a sign is read: as a prefix of an operand or as an operator
between two.
-/

namespace PascalFrontEnd

structure Lexer where
  rest : List Char
  line : Nat
  previous : Option Kind
  bracketed : Bool
  deriving Repr

namespace Lexer

def ofSource (source : String) : Lexer :=
  ⟨source.toList, 1, none, false⟩

def advance (lexer : Lexer) (length : Nat) : Lexer :=
  { lexer with
    rest := lexer.rest.drop length
    line := lexer.line + (lexer.rest.take length).count '\n' }

/-- A sign belongs to the operand after it, unless an operand ends before it
and no bracket has been announced since. -/
def signIsUnary (lexer : Lexer) : Bool :=
  lexer.bracketed || !lexer.previous.any Kind.endsOperand

def wordToken (text : List Char) (line : Nat) : Token :=
  let raw := String.ofList text
  match Keyword.kind? text with
  | some .typeName =>
      ⟨.typeName, raw, some (.name (String.ofList (Keyword.upperCase text))), line⟩
  | some kind => ⟨kind, raw, none, line⟩
  | none => ⟨.identifier, raw, some (.name raw), line⟩

def integerToken (text : List Char) (line : Nat) : Token :=
  match Decimal.toInteger? text with
  | some number => ⟨.integerLiteral, String.ofList text, some (.integer number), line⟩
  | none => ⟨.unknown, String.ofList text, none, line⟩

def realToken (text : List Char) (line : Nat) : Token :=
  let whole := text.takeWhile Char.isDigit
  let fraction := (text.dropWhile Char.isDigit).drop 1
  ⟨.realLiteral, String.ofList text, some (.real (Decimal.toBinary64 whole fraction)), line⟩

def token? (lexer : Lexer) (sort : Lexeme.Class) (text : List Char) : Option Token :=
  match sort with
  | .gap => none
  | .real => some (realToken text lexer.line)
  | .integer => some (integerToken text lexer.line)
  | .word => some (wordToken text lexer.line)
  | .sign binary =>
      let kind := if lexer.signIsUnary then .unarySign else binary
      some ⟨kind, String.ofList text, none, lexer.line⟩
  | .fixed kind => some ⟨kind, String.ofList text, none, lexer.line⟩

/-- The next token and the state behind its last character. Gaps are passed
over, and a character that begins no lexeme is an unknown token by itself. -/
def scan (lexer : Lexer) : Token × Lexer :=
  match _hrest : lexer.rest with
  | [] => (Token.endOfInput lexer.line, lexer)
  | c :: _ =>
      match _hfirst : Lexeme.first? lexer.rest with
      | none => (⟨.unknown, String.singleton c, none, lexer.line⟩, lexer.advance 1)
      | some (sort, length) =>
          match lexer.token? sort (lexer.rest.take length) with
          | none => scan (lexer.advance length)
          | some token => (token, lexer.advance length)
termination_by lexer.rest.length
decreasing_by
  have := Lexeme.first?_pos _hfirst
  simp only [advance, List.length_drop, _hrest, List.length_cons]
  omega

def next (lexer : Lexer) : Token × Lexer :=
  let (token, after) := lexer.scan
  (token, { after with previous := some token.kind, bracketed := false })

/-- Announce that a bracket opens: a sign that comes next is a prefix. -/
def enterBracket (lexer : Lexer) : Lexer :=
  { lexer with bracketed := true }

theorem length_advance (lexer : Lexer) (length : Nat) :
    (lexer.advance length).rest.length = lexer.rest.length - length := by
  simp [advance]

/-- A token other than the end of input takes at least one character. -/
theorem scan_shortens (lexer : Lexer) (h : lexer.scan.1.kind ≠ .endOfInput) :
    lexer.scan.2.rest.length < lexer.rest.length := by
  fun_induction scan lexer with
  | case1 => exact absurd rfl h
  | case2 lexer c tail hrest =>
      simp only [length_advance, hrest, List.length_cons]
      omega
  | case3 lexer c tail hrest sort length hfirst _ ih =>
      exact Nat.lt_of_lt_of_le (ih h) (by simp [length_advance])
  | case4 lexer c tail hrest sort length hfirst =>
      have := Lexeme.first?_pos hfirst
      simp only [length_advance, hrest, List.length_cons]
      omega

theorem next_shortens (lexer : Lexer) (h : lexer.next.1.kind ≠ .endOfInput) :
    lexer.next.2.rest.length < lexer.rest.length :=
  lexer.scan_shortens h

def tokens (lexer : Lexer) : List Token :=
  if _h : lexer.next.1.kind = .endOfInput then [lexer.next.1]
  else lexer.next.1 :: tokens lexer.next.2
termination_by lexer.rest.length
decreasing_by exact lexer.next_shortens _h

end Lexer

def tokenize (source : String) : List Token :=
  (Lexer.ofSource source).tokens

end PascalFrontEnd
