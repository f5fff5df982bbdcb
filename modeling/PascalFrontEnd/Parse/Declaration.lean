import PascalFrontEnd.Parse.Statement

namespace PascalFrontEnd.Rule

variable {σ : Type} [TokenStream σ]

def identifierName : Rule σ String := do
  return (← take .identifier).name

def variableList (steps : Nat) : Rule σ (List Tree) := do
  let first ← identifierName
  let others ← repeatWhile (· == .comma) (do skip .comma; identifierName) steps
  skip .colon
  let type ← take .typeName
  return (first :: others).map (.varDecl · type.name)

def variableGroup (steps : Nat) : Rule σ (List Tree) := do
  let declared ← variableList steps
  skip .semicolon
  return declared

def variableSection (steps : Nat) : Rule σ (List Tree) := do
  if ← sees .varWord then
    skip .varWord
    let first ← variableGroup steps
    let others ← repeatWhile (· == .identifier) (variableGroup steps) steps
    return first ++ others.flatten
  else
    return []

def procedure (block : Rule σ (List Tree × List Tree)) : Rule σ Tree := do
  skip .procedureWord
  let name ← identifierName
  note (.entersProcedure name (← current).line)
  skip .semicolon
  let (declarations, statements) ← block
  skip .semicolon
  return .procedure name declarations statements

def declarations (block : Rule σ (List Tree × List Tree)) (steps : Nat) :
    Rule σ (List Tree) := do
  note (.entersDeclarations (← current).line)
  let vars ← variableSection steps
  let procedures ← repeatWhile (· == .procedureWord) (procedure block) steps
  match vars ++ procedures with
  | [] => return [.noOp]
  | declared => return declared

def block : Nat → Rule σ (List Tree × List Tree)
  | 0 => mismatch .beginWord
  | steps + 1 => do
      let declared ← declarations (block steps) steps
      return (declared, ← compound (steps + 1))

end PascalFrontEnd.Rule
