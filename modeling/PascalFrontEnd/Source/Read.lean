import PascalFrontEnd.Source.Folder

namespace PascalFrontEnd.Source

def hasExtension (path : String) : Bool :=
  match Path.extension? path with
  | some extension => sourceExtensions.contains extension
  | none => false

def content (opened : Except AccessError Entry) : Except Failure String :=
  match opened with
  | .error error => .error (.access error)
  | .ok .directory => .error (.access .isADirectory)
  | .ok (.file bytes) =>
      match String.fromUTF8? bytes with
      | some text => .ok text
      | none => .error (.access .notUtf8)

/-- The text of the source file at a path, where `opened` is what opening that
path finds. -/
def read (path : String) (opened : Except AccessError Entry) : Except Failure String :=
  if hasExtension path then content opened
  else .error (.refused .wrongExtension)

/-- As `read`, for a path given by a user: it has to lead somewhere. -/
def readExisting (path : String) (opened : Except AccessError Entry) :
    Except Failure String :=
  match opened with
  | .error error =>
      if error.isAbsence then .error (.refused (.missing path)) else read path opened
  | .ok _ => read path opened

end PascalFrontEnd.Source
