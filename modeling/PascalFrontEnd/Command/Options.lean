import PascalFrontEnd.Parse.Program
import PascalFrontEnd.Source.Read

namespace PascalFrontEnd

inductive Input where
  | inline (text : String)
  | file (path : String)
  deriving DecidableEq, Repr

structure Options where
  input : Input
  mode : Mode
  showTree : Bool
  listTokens : Bool
  timing : Bool
  verbose : Bool
  deriving DecidableEq, Repr

def Input.text {m : Type → Type} [Monad m] (opened : String → m (Except AccessError Entry)) :
    Input → m (Except Failure String)
  | .inline text => return .ok text
  | .file path => return Source.readExisting path (← opened path)

end PascalFrontEnd
