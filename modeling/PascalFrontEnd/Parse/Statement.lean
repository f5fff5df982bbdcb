import PascalFrontEnd.Parse.Expression

namespace PascalFrontEnd.Rule

variable {σ : Type} [TokenStream σ]

def assignment (steps : Nat) : Rule σ Tree := do
  let target ← take .identifier
  skip .becomes
  return .assign target (← expression steps)

def statement (compound : Rule σ (List Tree)) (steps : Nat) : Rule σ Tree := do
  match ← currentKind with
  | .beginWord => return .compound (← compound)
  | .identifier => assignment steps
  | _ => return .noOp

/-- Statements between semicolons, in the order in which they stand. What
follows a semicolon is itself a list of statements. An identifier behind the
last statement means that a semicolon is missing. -/
def statements (one : Rule σ Tree) : Nat → Rule σ (List Tree)
  | 0 => return [.noOp]
  | steps + 1 => do
      let first ← one
      let others ← repeatWhile (· == .semicolon)
        (do skip .semicolon; statements one steps) steps
      if ← sees .identifier then
        fail (.missingSeparator (← current))
      else
        return first :: others.flatten

def compound : Nat → Rule σ (List Tree)
  | 0 => mismatch .beginWord
  | steps + 1 => do
      note (.entersCompound (← current).line)
      skip .beginWord
      let body ← statements (statement (compound steps) steps) steps
      skip .endWord
      return body

end PascalFrontEnd.Rule
