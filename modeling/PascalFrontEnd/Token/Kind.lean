/-!
A kind has two texts: `label` in token listings and in the journal, `describe` in
error messages.
-/

namespace PascalFrontEnd

inductive Kind where
  | integerLiteral
  | realLiteral
  | unarySign
  | openParen
  | closeParen
  | times
  | integerDivision
  | realDivision
  | plus
  | minus
  | programWord
  | beginWord
  | endWord
  | period
  | semicolon
  | identifier
  | becomes
  | varWord
  | colon
  | comma
  | typeName
  | procedureWord
  | endOfInput
  | unknown
  deriving DecidableEq, Repr, Inhabited

namespace Kind

def all : List Kind :=
  [integerLiteral, realLiteral, unarySign, openParen, closeParen, times,
    integerDivision, realDivision, plus, minus, programWord, beginWord, endWord,
    period, semicolon, identifier, becomes, varWord, colon, comma, typeName,
    procedureWord, endOfInput, unknown]

def label : Kind → String
  | integerLiteral => "IntegerConst"
  | realLiteral => "RealConst"
  | unarySign => "Unary"
  | openParen => "LParen"
  | closeParen => "RParen"
  | times => "Multiply"
  | integerDivision => "IntegerDivision"
  | realDivision => "FloatDivision"
  | plus => "Plus"
  | minus => "Minus"
  | programWord => "Program"
  | beginWord => "Begin"
  | endWord => "End"
  | period => "Dot"
  | semicolon => "Semicolon"
  | identifier => "Ident"
  | becomes => "Assign"
  | varWord => "Var"
  | colon => "Colon"
  | comma => "Comma"
  | typeName => "TypeName"
  | procedureWord => "Procedure"
  | endOfInput => "Eof"
  | unknown => "Unknown"

def ofLabel? (text : String) : Option Kind :=
  all.find? (·.label == text)

def describe : Kind → String
  | integerLiteral => "integer literal"
  | realLiteral => "real literal"
  | unarySign => "unary sign"
  | openParen => "("
  | closeParen => ")"
  | times => "*"
  | integerDivision => "DIV"
  | realDivision => "/"
  | plus => "+"
  | minus => "-"
  | programWord => "PROGRAM"
  | beginWord => "BEGIN"
  | endWord => "END"
  | period => "."
  | semicolon => ";"
  | identifier => "identifier"
  | becomes => ":="
  | varWord => "VAR"
  | colon => ":"
  | comma => ","
  | typeName => "type name"
  | procedureWord => "PROCEDURE"
  | endOfInput => "end of input"
  | unknown => "unknown"

/-- After a token of such a kind an operand is complete, so that a sign which
follows it joins two operands. -/
def endsOperand : Kind → Bool
  | integerLiteral | realLiteral | identifier | closeParen => true
  | _ => false

def isAdditive : Kind → Bool
  | plus | minus => true
  | _ => false

def isMultiplicative : Kind → Bool
  | times | integerDivision | realDivision => true
  | _ => false

theorem eq_of_isAdditive {kind : Kind} (additive : kind.isAdditive = true) :
    kind = plus ∨ kind = minus := by
  cases kind with
  | plus => exact .inl rfl
  | minus => exact .inr rfl
  | _ => cases additive

theorem eq_of_isMultiplicative {kind : Kind} (multiplicative : kind.isMultiplicative = true) :
    kind = times ∨ kind = integerDivision ∨ kind = realDivision := by
  cases kind with
  | times => exact .inl rfl
  | integerDivision => exact .inr (.inl rfl)
  | realDivision => exact .inr (.inr rfl)
  | _ => cases multiplicative

end Kind

end PascalFrontEnd
