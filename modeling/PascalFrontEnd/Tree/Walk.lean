import PascalFrontEnd.Tree.Basic

/-!
The pre-order walk. The target of an assignment, the compound statement of a block
and the block of a procedure or a program are nodes of their own.
-/

namespace PascalFrontEnd.Tree

abbrev Visit := Nat × Tree

mutual

def walkAt (depth : Nat) : Tree → List Visit
  | number token => [(depth, number token)]
  | varRef token => [(depth, varRef token)]
  | unaryOp op operand => (depth, unaryOp op operand) :: walkAt (depth + 1) operand
  | binOp left op right =>
      (depth, binOp left op right) ::
        (walkAt (depth + 1) left ++ walkAt (depth + 1) right)
  | assign target value =>
      (depth, assign target value) :: (depth + 1, varRef target) ::
        walkAt (depth + 1) value
  | compound statements =>
      (depth, compound statements) :: walkAllAt (depth + 1) statements
  | noOp => [(depth, noOp)]
  | varDecl name typeName => [(depth, varDecl name typeName)]
  | block declarations statements =>
      (depth, block declarations statements) ::
        (walkAllAt (depth + 1) declarations ++
          (depth + 1, compound statements) :: walkAllAt (depth + 2) statements)
  | procedure name declarations statements =>
      (depth, procedure name declarations statements) ::
        (depth + 1, block declarations statements) ::
          (walkAllAt (depth + 2) declarations ++
            (depth + 2, compound statements) :: walkAllAt (depth + 3) statements)
  | program name declarations statements =>
      (depth, program name declarations statements) ::
        (depth + 1, block declarations statements) ::
          (walkAllAt (depth + 2) declarations ++
            (depth + 2, compound statements) :: walkAllAt (depth + 3) statements)

def walkAllAt (depth : Nat) : List Tree → List Visit
  | [] => []
  | tree :: trees => walkAt depth tree ++ walkAllAt depth trees

end

def walk (tree : Tree) : List Visit :=
  walkAt 0 tree

def depthSum (tree : Tree) : Nat :=
  tree.walk.foldl (fun total visit => total + visit.1) 0

end PascalFrontEnd.Tree
