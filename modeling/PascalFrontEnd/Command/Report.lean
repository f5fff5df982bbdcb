import PascalFrontEnd.Command.Arguments
import PascalFrontEnd.Text.Plain
import PascalFrontEnd.Tree.Render
import PascalFrontEnd.Tree.Tally

/-!
What the command prints. Standard output is a list of pieces, in which the
times taken are left open.
-/

namespace PascalFrontEnd

def version : String := "0.1.0"

namespace Report

def versionText : String := s!"pasc {version}\n"

def helpText : String :=
  "Pascal front-end that parses programs into an abstract syntax tree\n\n" ++
  "Usage: pasc [OPTIONS] [PATH]\n\n" ++
  "Options:\n" ++
  "  -c, --source <TEXT>  Text to parse instead of a file\n" ++
  "      --mode <MODE>    loose or whole-program [default: whole-program]\n" ++
  "      --show-ast       Print the syntax tree\n" ++
  "      --tokens         Print the tokens\n" ++
  "  -t, --timing         Print statistics\n" ++
  "  -v, --verbose        Print what is done\n" ++
  "  -h, --help           Print this text\n" ++
  "  -V, --version        Print the version\n"

end Report

inductive Phase where
  | lexing
  | parsing
  | whole
  deriving DecidableEq, Repr

/-- A piece of output: text, or the seconds of a phase in at least `width`
characters. -/
inductive Piece where
  | text (text : String)
  | seconds (phase : Phase) (width : Nat)
  deriving DecidableEq, Repr

def Piece.shown (clock : Phase → Nat → String) : Piece → String
  | .text printed => printed
  | .seconds phase width => clock phase width

def Piece.join (clock : Phase → Nat → String) (pieces : List Piece) : String :=
  String.join (pieces.map (shown clock))

structure Outcome where
  exitCode : UInt32
  output : List Piece
  events : List Event
  error : Option Failure
  deriving DecidableEq, Repr

structure Transcript where
  exitCode : UInt32
  stdout : String
  stderr : String
  deriving DecidableEq, Repr

namespace Report

def padRight (width : Nat) (text : String) : String :=
  text ++ "".pushn ' ' (width - text.length)

def padLeft (width : Nat) (text : String) : String :=
  "".pushn ' ' (width - text.length) ++ text

def line (text : String) : List Piece :=
  [.text (text ++ "\n")]

def timedLine (label : String) (phase : Phase) (width : Nat) : List Piece :=
  [.text label, .seconds phase width, .text "\n"]

def only (condition : Bool) (pieces : List Piece) : List Piece :=
  if condition then pieces else []

def sourceSize (source : String) : List Piece :=
  line s!"Read {source.utf8ByteSize} bytes of source"

def tokenLine (token : Token) : String :=
  "  " ++ padLeft 4 (toString token.line) ++ "  " ++ padRight 16 token.kind.label ++ " " ++
    token.raw

def tokenList (tokens : List Token) : List Piece :=
  line "\n Tokens:" ++ tokens.flatMap fun token => line (tokenLine token)

def lexingSummary (count : Nat) : List Piece :=
  timedLine "Lexical analysis completed in " .lexing 0 ++
    line s!"  Generated {count} tokens"

def parsingSummary : List Piece :=
  timedLine "Parsing completed in " .parsing 0

def treeText (tree : Tree) : List Piece :=
  line "\n Abstract Syntax Tree:" ++ line tree.render

def nodeCount (tree : Tree) : Nat :=
  (tree.tally.map (·.toInt.toNat)).getD 0

def statistics (tokens nodes : Nat) : List Piece :=
  line "\n Parse Statistics:" ++
    timedLine "  Lexical Analysis   " .lexing 8 ++
    timedLine "  Parsing            " .parsing 8 ++
    timedLine "  Total Time         " .whole 8 ++
    line ("  Tokens             " ++ padLeft 8 (toString tokens)) ++
    line ("  AST Nodes          " ++ padLeft 8 (toString nodes))

def beforeParsing (options : Options) (source : String) (tokens : List Token) :
    List Piece :=
  only options.verbose (sourceSize source) ++
    only options.listTokens (tokenList tokens) ++
    only options.verbose (lexingSummary tokens.length)

def afterParsing (options : Options) (tokens : List Token) (tree : Tree) : List Piece :=
  only options.verbose parsingSummary ++
    only options.showTree (treeText tree) ++
    only options.timing (statistics tokens.length (nodeCount tree)) ++
    only options.verbose (line "Parse successful!")

/-- The run on one text: its tokens are listed by a pass of their own, and the
parser then draws them once more. -/
def ofSource (options : Options) (source : String) : Outcome :=
  let tokens := tokenize source
  let (result, session) :=
    (Session.start (Lexer.ofSource source)).parse options.mode
  let events := tokens.map Event.scanned ++ session.journal.toList
  let before := beforeParsing options source tokens
  match result with
  | .ok tree => ⟨0, before ++ afterParsing options tokens tree, events, none⟩
  | .error error => ⟨1, before, events, some (.parse error)⟩

def ofInput (options : Options) (source : Except Failure String) : Outcome :=
  match source with
  | .ok source => ofSource options source
  | .error failure => ⟨1, [], [], some failure⟩

/-- The level up to which the journal is printed; `setting` names one in the
environment and, where it does, goes before the options. -/
def level (options : Options) (setting : Option String) : Option Level :=
  let usual := if options.verbose then Level.debug else Level.warn
  match setting with
  | none => some usual
  | some name =>
      let upper := String.ofList (Keyword.upperCase name.toList)
      if upper = "OFF" then none
      else some ((Level.all.find? (·.label == upper)).getD usual)

def eventLine (stamp : String) (event : Event) : String :=
  Plain.text s!"[{stamp} {padRight 5 event.level.label} {event.origin}] {event.message}" ++ "\n"

def errorLine (failure : Failure) : String :=
  s!"Error: {failure.message} ({failure.name})\n"

def errorOutput (outcome : Outcome) (limit : Option Level) (stamp : String) : String :=
  let shown := match limit with
    | none => []
    | some limit => outcome.events.filter (Event.isWithin limit)
  String.join (shown.map (eventLine stamp)) ++
    (outcome.error.map errorLine).getD ""

def transcript (options : Options) (outcome : Outcome) (clock : Phase → Nat → String)
    (setting : Option String) (stamp : String) : Transcript where
  exitCode := outcome.exitCode
  stdout := Piece.join clock outcome.output
  stderr := errorOutput outcome (level options setting) stamp

end Report

end PascalFrontEnd
