import PascalFrontEnd.Parse.Session
import PascalFrontEnd.Tree.Basic

namespace PascalFrontEnd.Rule

variable {σ : Type} [TokenStream σ]

def literal (kind : Kind) : Rule σ Tree := do
  return .number (← take kind)

def variableRef : Rule σ Tree := do
  return .varRef (← take .identifier)

/-- The bracket is announced while its parenthesis is still the current token,
before the stream hands out what stands behind it. -/
def parenthesised (inner : Rule σ Tree) : Rule σ Tree := do
  announceBracket
  skip .openParen
  let tree ← inner
  skip .closeParen
  return tree

def unsignedFactor (inner : Rule σ Tree) : Rule σ Tree := do
  match ← currentKind with
  | .integerLiteral => literal .integerLiteral
  | .realLiteral => literal .realLiteral
  | .openParen => parenthesised inner
  | _ => variableRef

def factor (inner : Rule σ Tree) (steps : Nat) : Rule σ Tree := do
  let signs ← repeatWhile (· == .unarySign) (take .unarySign) steps
  let operand ← unsignedFactor inner
  return signs.foldr .unaryOp operand

def operation (operand : Rule σ Tree) : Rule σ (Token × Tree) := do
  let op ← take (← currentKind)
  return (op, ← operand)

/-- Operands joined by operators of one level, grouped from the left. -/
def chain (joins : Kind → Bool) (operand : Rule σ Tree) (steps : Nat) : Rule σ Tree := do
  let first ← operand
  let operations ← repeatWhile joins (operation operand) steps
  return operations.foldl (fun left (op, right) => .binOp left op right) first

def term (inner : Rule σ Tree) (steps : Nat) : Rule σ Tree :=
  chain Kind.isMultiplicative (factor inner steps) steps

def expression : Nat → Rule σ Tree
  | 0 => mismatch .identifier
  | steps + 1 => chain Kind.isAdditive (term (expression steps) steps) steps

end PascalFrontEnd.Rule
