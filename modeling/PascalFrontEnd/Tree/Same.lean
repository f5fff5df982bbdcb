import PascalFrontEnd.Tree.Basic

namespace PascalFrontEnd.Tree

mutual

def same : Tree → Tree → Bool
  | number a, number b => a.same b
  | varRef a, varRef b => a.same b
  | unaryOp op a, unaryOp op' b => op.same op' && a.same b
  | binOp a op b, binOp a' op' b' => a.same a' && op.same op' && b.same b'
  | assign target value, assign target' value' =>
      target.same target' && value.same value'
  | compound statements, compound statements' => sameAll statements statements'
  | noOp, noOp => true
  | varDecl name typeName, varDecl name' typeName' =>
      name == name' && typeName == typeName'
  | block declarations statements, block declarations' statements' =>
      sameAll declarations declarations' && sameAll statements statements'
  | procedure name declarations statements, procedure name' declarations' statements' =>
      name == name' && sameAll declarations declarations' &&
        sameAll statements statements'
  | program name declarations statements, program name' declarations' statements' =>
      name == name' && sameAll declarations declarations' &&
        sameAll statements statements'
  | _, _ => false

def sameAll : List Tree → List Tree → Bool
  | [], [] => true
  | tree :: trees, tree' :: trees' => tree.same tree' && sameAll trees trees'
  | _, _ => false

end

end PascalFrontEnd.Tree
