import PascalFrontEnd.Token.Kind
import PascalFrontEnd.Number.Binary64

namespace PascalFrontEnd

inductive Value where
  | integer (number : Int64)
  | real (number : Binary64)
  | name (text : String)
  deriving DecidableEq, Repr

structure Token where
  kind : Kind
  raw : String
  value : Option Value
  line : Nat
  deriving DecidableEq, Repr

namespace Value

def same : Value → Value → Bool
  | integer a, integer b => a == b
  | real a, real b => a.same b
  | name a, name b => a == b
  | _, _ => false

end Value

namespace Token

def endOfInput (line : Nat) : Token :=
  ⟨.endOfInput, "", none, line⟩

/-- The name a token stands for: its payload, or the characters themselves. -/
def name (token : Token) : String :=
  match token.value with
  | some (.name text) => text
  | _ => token.raw

def display (token : Token) : String :=
  if token.kind = .endOfInput then Kind.endOfInput.describe else token.raw

def same (a b : Token) : Bool :=
  a.kind == b.kind && a.raw == b.raw && a.line == b.line &&
    match a.value, b.value with
    | none, none => true
    | some x, some y => x.same y
    | _, _ => false

end Token

end PascalFrontEnd
