import PascalFrontEnd.Proofs.Grammar.Repetition
import PascalFrontEnd.Tree.Walk

namespace PascalFrontEnd

inductive Scope where
  | program (name : String)
  | declarations
  | procedure (name : String)
  | compound
  deriving DecidableEq, Repr

namespace Tree

def opened : Tree → List Scope
  | program name _ _ => [.program name, .declarations]
  | procedure name _ _ => [.procedure name, .declarations]
  | compound _ => [.compound]
  | _ => []

mutual

def scopes : Tree → List Scope
  | number _ | varRef _ | noOp | varDecl _ _ => []
  | unaryOp _ operand => scopes operand
  | binOp left _ right => scopes left ++ scopes right
  | assign _ value => scopes value
  | compound statements => .compound :: scopesAll statements
  | block declarations statements => scopesAll declarations ++ .compound :: scopesAll statements
  | procedure name declarations statements =>
      .procedure name :: .declarations ::
        (scopesAll declarations ++ .compound :: scopesAll statements)
  | program name declarations statements =>
      .program name :: .declarations ::
        (scopesAll declarations ++ .compound :: scopesAll statements)

def scopesAll : List Tree → List Scope
  | [] => []
  | tree :: trees => scopes tree ++ scopesAll trees

end

mutual

/-- On whatever depth a walk begins, the scopes of a tree are those that begin at the
nodes that are visited. -/
theorem scopes_eq_walkAt (depth : Nat) : ∀ tree : Tree,
    tree.scopes = (tree.walkAt depth).flatMap fun visit => visit.2.opened
  | .number _ | .varRef _ | .noOp | .varDecl _ _ => rfl
  | .unaryOp _ operand => scopes_eq_walkAt (depth + 1) operand
  | .binOp left _ right => by
      rw [scopes, walkAt, scopes_eq_walkAt (depth + 1) left, scopes_eq_walkAt (depth + 1) right,
        List.flatMap_cons, List.flatMap_append]
      rfl
  | .assign _ value => scopes_eq_walkAt (depth + 1) value
  | .compound statements => by
      rw [scopes, walkAt, scopesAll_eq_walkAllAt (depth + 1) statements, List.flatMap_cons]
      rfl
  | .block declarations statements => by
      rw [scopes, walkAt, scopesAll_eq_walkAllAt (depth + 1) declarations,
        scopesAll_eq_walkAllAt (depth + 2) statements, List.flatMap_cons, List.flatMap_append,
        List.flatMap_cons]
      rfl
  | .procedure name declarations statements | .program name declarations statements => by
      rw [scopes, walkAt, scopesAll_eq_walkAllAt (depth + 2) declarations,
        scopesAll_eq_walkAllAt (depth + 3) statements, List.flatMap_cons, List.flatMap_cons,
        List.flatMap_append, List.flatMap_cons]
      rfl

theorem scopesAll_eq_walkAllAt (depth : Nat) : ∀ trees : List Tree,
    scopesAll trees = (walkAllAt depth trees).flatMap fun visit => visit.2.opened
  | [] => rfl
  | tree :: trees => by
      rw [scopesAll, walkAllAt, scopes_eq_walkAt depth tree, scopesAll_eq_walkAllAt depth trees,
        List.flatMap_append]

end

end Tree

end PascalFrontEnd
