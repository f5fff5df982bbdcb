import PascalFrontEnd.Parse.Error
import PascalFrontEnd.Text.Quoted

/-! What lexer and parser report about their work. -/

namespace PascalFrontEnd

inductive Level where
  | error
  | warn
  | info
  | debug
  | trace
  deriving DecidableEq, Repr

namespace Level

def all : List Level := [error, warn, info, debug, trace]

def label : Level → String
  | error => "ERROR"
  | warn => "WARN"
  | info => "INFO"
  | debug => "DEBUG"
  | trace => "TRACE"

def rank : Level → Nat
  | error => 1
  | warn => 2
  | info => 3
  | debug => 4
  | trace => 5

end Level

inductive Event where
  | scanned (token : Token)
  | startedFrom (token : Token)
  | startedProgram
  | entersCompound (line : Nat)
  | entersDeclarations (line : Nat)
  | entersProcedure (name : String) (line : Nat)
  | entersProgram (name : String)
  | failed (error : ParseError)
  | parsed (kindName : String)
  deriving DecidableEq, Repr

namespace Event

def level : Event → Level
  | scanned _ => .trace
  | startedFrom _ | startedProgram | parsed _ => .info
  | entersCompound _ | entersDeclarations _ | entersProcedure _ _ | entersProgram _
  | failed _ => .debug

def origin : Event → String
  | scanned _ => "pasc::frontend::lexer"
  | _ => "pasc::frontend::parser"

def message : Event → String
  | scanned token =>
      s!"line {token.line}: {token.kind.label} {Quoted.encode token.raw}"
  | startedFrom token => s!"parsing from {token.kind.label} at line {token.line}"
  | startedProgram => "parsing whole program"
  | entersCompound line => s!"compound statement at line {line}"
  | entersDeclarations line => s!"declarations at line {line}"
  | entersProcedure name line => s!"procedure {name} at line {line}"
  | entersProgram name => s!"program {name}"
  | failed error => error.message
  | parsed kindName => s!"parsed {kindName}"

/-- Whether a journal kept up to the given level holds the event. -/
def isWithin (limit : Level) (event : Event) : Bool :=
  event.level.rank ≤ limit.rank

end Event

end PascalFrontEnd
