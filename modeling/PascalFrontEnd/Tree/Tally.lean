import PascalFrontEnd.Tree.Basic

/-! The number of nodes of a tree, kept in 32 bits. Every partial sum is checked. -/

namespace PascalFrontEnd.Tree

def checkedAdd (a b : Int32) : Option Int32 :=
  let sum := a.toInt + b.toInt
  if Int32.minValue.toInt ≤ sum ∧ sum ≤ Int32.maxValue.toInt then
    some (Int32.ofInt sum)
  else none

def countNode (parts : Option Int32) : Option Int32 := do
  checkedAdd 1 (← parts)

def countBlock (declarations statements : Option Int32) : Option Int32 := do
  checkedAdd (← countNode declarations) (← countNode statements)

mutual

def tally : Tree → Option Int32
  | number _ => some 1
  | varRef _ => some 1
  | unaryOp _ operand => countNode (tally operand)
  | binOp left _ right => do checkedAdd (← countNode (tally left)) (← tally right)
  | assign _ value => do checkedAdd (← countNode (some 1)) (← tally value)
  | compound statements => countNode (tallyAll 0 statements)
  | noOp => some 1
  | varDecl _ _ => some 1
  | block declarations statements =>
      countBlock (tallyAll 0 declarations) (tallyAll 0 statements)
  | procedure _ declarations statements =>
      countNode (countBlock (tallyAll 0 declarations) (tallyAll 0 statements))
  | program _ declarations statements =>
      countNode (countBlock (tallyAll 0 declarations) (tallyAll 0 statements))

def tallyAll (total : Int32) : List Tree → Option Int32
  | [] => some total
  | tree :: trees => do tallyAll (← checkedAdd total (← tally tree)) trees

end

end PascalFrontEnd.Tree
