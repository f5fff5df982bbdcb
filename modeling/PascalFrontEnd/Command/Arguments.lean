import PascalFrontEnd.Command.Options

namespace PascalFrontEnd

inductive Request where
  | parse (options : Options)
  | version
  | help
  | rejected
  deriving DecidableEq, Repr

namespace Request

inductive Flag where
  | showTree
  | listTokens
  | timing
  | verbose
  deriving DecidableEq, Repr

inductive Setting where
  | source
  | mode
  deriving DecidableEq, Repr

structure Draft where
  path : Option String
  source : Option String
  mode : Option Mode
  flags : List Flag
  deriving DecidableEq, Repr

namespace Draft

def empty : Draft := ⟨none, none, none, []⟩

def raise? (draft : Draft) (flag : Flag) : Option Draft :=
  if draft.flags.contains flag then none
  else some { draft with flags := flag :: draft.flags }

def modeOf? : String → Option Mode
  | "loose" => some .loose
  | "whole-program" => some .wholeProgram
  | _ => none

def set? (draft : Draft) (setting : Setting) (value : String) : Option Draft :=
  match setting, draft.source, draft.mode with
  | .source, none, _ => some { draft with source := some value }
  | .mode, _, none => (modeOf? value).map fun mode => { draft with mode := some mode }
  | _, _, _ => none

def place? (draft : Draft) (path : String) : Option Draft :=
  if draft.path.isSome ∨ path = "" then none
  else some { draft with path := some path }

def request (draft : Draft) : Request :=
  let options (input : Input) : Options :=
    { input
      mode := draft.mode.getD .wholeProgram
      showTree := draft.flags.contains .showTree
      listTokens := draft.flags.contains .listTokens
      timing := draft.flags.contains .timing
      verbose := draft.flags.contains .verbose }
  match draft.source, draft.path with
  | some text, none => .parse (options (.inline text))
  | none, some path => .parse (options (.file path))
  | _, _ => .rejected

end Draft

/-- One option of an argument. A setting without a value takes the next
argument as its value. -/
inductive Item where
  | flag (flag : Flag)
  | setting (setting : Setting) (value : Option String)
  | version
  | help
  | invalid
  deriving DecidableEq, Repr

def longItem : String → Option String → Item
  | "show-ast", none => .flag .showTree
  | "tokens", none => .flag .listTokens
  | "timing", none => .flag .timing
  | "verbose", none => .flag .verbose
  | "source", value => .setting .source value
  | "mode", value => .setting .mode value
  | "version", none => .version
  | "help", none => .help
  | _, _ => .invalid

/-- The value joined to a short option; one equals sign in front is dropped. -/
def joinedValue : List Char → Option String
  | [] => none
  | '=' :: value => some (String.ofList value)
  | value => some (String.ofList value)

def shortItems : List Char → List Item
  | [] => []
  | 't' :: letters => .flag .timing :: shortItems letters
  | 'v' :: letters => .flag .verbose :: shortItems letters
  | 'V' :: _ => [.version]
  | 'h' :: _ => [.help]
  | 'c' :: value => [.setting .source (joinedValue value)]
  | _ => [.invalid]

/-- The options an argument consists of, or `none` for an argument that stands
for itself. -/
def items? : List Char → Option (List Item)
  | '-' :: '-' :: text =>
      let name := String.ofList (text.takeWhile (· != '='))
      match text.dropWhile (· != '=') with
      | [] => some [longItem name none]
      | _ :: value => some [longItem name (some (String.ofList value))]
  | '-' :: letter :: letters => some (shortItems (letter :: letters))
  | _ => none

inductive Progress where
  | goesOn (draft : Draft)
  | wants (setting : Setting) (draft : Draft)
  | ends (request : Request)

def follow (draft : Draft) : List Item → Progress
  | [] => .goesOn draft
  | .flag flag :: items =>
      match draft.raise? flag with
      | some raised => follow raised items
      | none => .ends .rejected
  | .setting setting none :: _ => .wants setting draft
  | .setting setting (some value) :: items =>
      match draft.set? setting value with
      | some set => follow set items
      | none => .ends .rejected
  | .version :: _ => .ends .version
  | .help :: _ => .ends .help
  | .invalid :: _ => .ends .rejected

def readPaths (draft : Draft) : List String → Request
  | [] => draft.request
  | path :: paths =>
      match draft.place? path with
      | some placed => readPaths placed paths
      | none => .rejected

def readFrom (draft : Draft) : List String → Request
  | [] => draft.request
  | "--" :: paths => readPaths draft paths
  | argument :: arguments =>
      match items? argument.toList with
      | none =>
          match draft.place? argument with
          | some placed => readFrom placed arguments
          | none => .rejected
      | some items =>
          match follow draft items with
          | .goesOn followed => readFrom followed arguments
          | .ends request => request
          | .wants setting wanting =>
              match arguments with
              | [] => .rejected
              | value :: others =>
                  if (items? value.toList).isSome then .rejected
                  else
                    match wanting.set? setting value with
                    | some set => readFrom set others
                    | none => .rejected

def ofArguments (arguments : List String) : Request :=
  readFrom .empty arguments

end Request

end PascalFrontEnd
