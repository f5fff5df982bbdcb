import PascalFrontEnd.Token.Basic

namespace PascalFrontEnd

inductive Tree where
  | number (token : Token)
  | varRef (token : Token)
  | unaryOp (op : Token) (operand : Tree)
  | binOp (left : Tree) (op : Token) (right : Tree)
  | assign (target : Token) (value : Tree)
  | compound (statements : List Tree)
  | noOp
  | varDecl (name typeName : String)
  | block (declarations statements : List Tree)
  | procedure (name : String) (declarations statements : List Tree)
  | program (name : String) (declarations statements : List Tree)
  deriving Inhabited, Repr

namespace Tree

def kindName : Tree → String
  | number _ => "Number"
  | varRef _ => "Variable"
  | unaryOp _ _ => "UnaryOp"
  | binOp _ _ _ => "BinOp"
  | assign _ _ => "Assign"
  | compound _ => "Compound"
  | noOp => "NoOp"
  | varDecl _ _ => "VarDecl"
  | block _ _ => "Block"
  | procedure _ _ _ => "Procedure"
  | program _ _ _ => "Program"

/-- The part of a tree that is of one fixed sort: the block of a program or a
procedure, the compound statement of a block, the target of an assignment. -/
def typedChild? : Tree → Option Tree
  | assign target _ => some (varRef target)
  | block _ statements => some (compound statements)
  | procedure _ declarations statements => some (block declarations statements)
  | program _ declarations statements => some (block declarations statements)
  | _ => none

end Tree

end PascalFrontEnd
