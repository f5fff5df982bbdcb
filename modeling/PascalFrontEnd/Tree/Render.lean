import PascalFrontEnd.Tree.Basic

namespace PascalFrontEnd

def Tree.separator : String := ", "

def Tree.emptyStatement : String := "NoOp"

structure Printer where
  output : String
  deriving DecidableEq, Repr

namespace Printer

def empty : Printer := ⟨""⟩

def finish (printer : Printer) : String := printer.output

def put (printer : Printer) (text : String) : Printer :=
  ⟨printer.output ++ text⟩

def putBlock (printer : Printer) (declarations statements : Printer → Printer) : Printer :=
  let declared := declarations (printer.put "Block([")
  (statements (declared.put ("]" ++ Tree.separator ++ "Compound(["))).put "]))"

mutual

def write (printer : Printer) : Tree → Printer
  | .number token => printer.put ("Number(" ++ token.raw ++ ")")
  | .varRef token => printer.put ("Variable(" ++ token.name ++ ")")
  | .unaryOp op operand =>
      ((printer.put ("UnaryOp(" ++ op.raw ++ Tree.separator)).write operand).put ")"
  | .binOp left op right =>
      ((((printer.put ("BinOp(" ++ op.raw ++ Tree.separator)).write left).put
        Tree.separator).write right).put ")"
  | .assign target value =>
      ((printer.put ("Assign(Variable(" ++ target.name ++ ")" ++ Tree.separator)).write
        value).put ")"
  | .compound statements => ((printer.put "Compound([").writeAll statements).put "])"
  | .noOp => printer.put Tree.emptyStatement
  | .varDecl name typeName =>
      printer.put ("VarDecl(" ++ name ++ Tree.separator ++ typeName ++ ")")
  | .block declarations statements =>
      printer.putBlock (·.writeAll declarations) (·.writeAll statements)
  | .procedure name declarations statements =>
      ((printer.put ("Procedure(" ++ name ++ Tree.separator)).putBlock
        (·.writeAll declarations) (·.writeAll statements)).put ")"
  | .program name declarations statements =>
      ((printer.put ("Program(" ++ name ++ Tree.separator)).putBlock
        (·.writeAll declarations) (·.writeAll statements)).put ")"

def writeAll (printer : Printer) : List Tree → Printer
  | [] => printer
  | [tree] => printer.write tree
  | tree :: next :: trees =>
      ((printer.write tree).put Tree.separator).writeAll (next :: trees)

end

def succeeded : Int32 := 0

def visit (printer : Printer) (tree : Tree) : Int32 × Printer :=
  (succeeded, printer.write tree)

end Printer

def Tree.render (tree : Tree) : String :=
  (Printer.empty.write tree).output

end PascalFrontEnd
