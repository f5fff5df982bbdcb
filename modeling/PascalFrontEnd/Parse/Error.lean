import PascalFrontEnd.Token.Basic

namespace PascalFrontEnd

inductive ParseError where
  | unknownToken (text : String) (expected : Kind) (line : Nat)
  | unexpected (expected : Kind) (found : Token)
  | missingSeparator (found : Token)
  | trailing (found : Token)
  deriving DecidableEq, Repr

namespace ParseError

def ofMismatch (expected : Kind) (found : Token) : ParseError :=
  if found.kind = .unknown then unknownToken found.raw expected found.line
  else unexpected expected found

def line : ParseError → Nat
  | unknownToken _ _ line => line
  | unexpected _ found => found.line
  | missingSeparator found => found.line
  | trailing found => found.line

def name : ParseError → String
  | unknownToken _ _ _ => "UnknownTokenError"
  | unexpected _ _ => "SyntaxError"
  | missingSeparator _ => "MissingSeparatorError"
  | trailing _ => "UnterminatedProgramError"

def message : ParseError → String
  | unknownToken text expected line =>
      s!"Unknown char '{text}' at line {line} (expected {expected.describe})"
  | unexpected expected found =>
      s!"Invalid syntax at line {found.line}: expected {expected.describe}, " ++
        s!"found '{found.display}'"
  | missingSeparator found =>
      s!"Missing ';' before '{found.display}' at line {found.line}"
  | trailing found =>
      s!"Code not ended at line {found.line}: found '{found.display}' after the final '.'"

theorem line_ofMismatch (expected : Kind) (found : Token) :
    (ofMismatch expected found).line = found.line := by
  unfold ofMismatch
  split <;> rfl

end ParseError

end PascalFrontEnd
