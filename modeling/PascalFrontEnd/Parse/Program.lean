import PascalFrontEnd.Parse.Declaration

/-!
In loose mode the leading token decides what is parsed, and parsing ends where that
phrase ends. In whole-program mode nothing may stand behind the program.
-/

namespace PascalFrontEnd

inductive Mode where
  | loose
  | wholeProgram
  deriving DecidableEq, Repr, Inhabited

namespace Rule

variable {σ : Type} [TokenStream σ]

def headedProgram (steps : Nat) : Rule σ Tree := do
  skip .programWord
  let name ← identifierName
  note (.entersProgram name)
  skip .semicolon
  let (declarations, statements) ← block steps
  return .program name declarations statements

def headlessProgram (steps : Nat) : Rule σ Tree := do
  return .block [.noOp] (← compound steps)

def headedOrHeadless (steps : Nat) : Rule σ Tree := do
  if ← sees .programWord then headedProgram steps else headlessProgram steps

def program (steps : Nat) : Rule σ Tree := do
  let tree ← headedOrHeadless steps
  skip .period
  return tree

def phrase (steps : Nat) : Rule σ Tree := do
  match ← currentKind with
  | .integerLiteral | .realLiteral | .openParen | .unarySign => expression steps
  | .programWord => program steps
  | .beginWord => return .compound (← compound steps)
  | _ => mismatch .beginWord

def loose (steps : Nat) : Rule σ Tree := do
  note (.startedFrom (← current))
  let tree ← phrase steps
  note (.parsed tree.kindName)
  return tree

def wholeProgram (steps : Nat) : Rule σ Tree := do
  note .startedProgram
  let tree ← program steps
  if ← sees .endOfInput then
    note (.parsed tree.kindName)
    return tree
  else
    fail (.trailing (← current))

def inMode : Mode → Nat → Rule σ Tree
  | .loose => loose
  | .wholeProgram => wholeProgram

end Rule

def Session.parse {σ : Type} [TokenStream σ] (session : Session σ) (mode : Mode) :
    Except ParseError Tree × Session σ :=
  match Rule.inMode mode session.budget session with
  | .ok tree after => (.ok tree, after)
  | .error error after => (.error error, after)

def parseSource (source : String) (mode : Mode) : Except ParseError Tree :=
  ((Session.start (Lexer.ofSource source)).parse mode).1

end PascalFrontEnd
