import PascalFrontEnd.Source.Failure
import PascalFrontEnd.Source.Path

/-! The files and directories that can be reached from a working directory. -/

namespace PascalFrontEnd

inductive Entry where
  | directory
  | file (content : ByteArray)

/-- A directory that is always there: the root, the working directory, or one
that many levels above it. -/
inductive Origin where
  | root
  | working (above : Nat)
  deriving DecidableEq, Repr

namespace Origin

def parent : Origin → Origin
  | root => root
  | working above => working (above + 1)

end Origin

/-- A place in the file system, by the names that lead to it, none of them
empty or made of one or two dots alone. -/
structure Location where
  origin : Origin
  names : List String
  deriving DecidableEq, Repr

namespace Location

def child (location : Location) (name : String) : Location :=
  { location with names := location.names ++ [name] }

def parent (location : Location) : Location :=
  match location.names with
  | [] => { location with origin := location.origin.parent }
  | names => { location with names := names.dropLast }

end Location

structure Folder where
  directories : List Location
  files : List (Location × ByteArray)

namespace Folder

def maxNameBytes : Nat := 255

def maxPathBytes : Nat := 4095

def empty : Folder :=
  ⟨[], []⟩

def entry? (folder : Folder) (location : Location) : Option Entry :=
  if location.names = [] ∨ folder.directories.contains location then some .directory
  else (folder.files.lookup location).map .file

def route (path : String) : Except AccessError (Location × List String) := do
  if path.toList.contains '\x00' then throw .nulInName
  if path = "" then throw .noSuchFile
  if path.utf8ByteSize > maxPathBytes then throw .nameTooLong
  let origin := if path.startsWith "/" then Origin.root else .working 0
  return (⟨origin, []⟩, (Path.split path.toList).map String.ofList)

def step (folder : Folder) (location : Location) (name : String) :
    Except AccessError Location :=
  match folder.entry? location with
  | none => .error .noSuchFile
  | some (.file _) => .error .notADirectory
  | some .directory =>
      if name = "" ∨ name = "." then .ok location
      else if name = ".." then .ok location.parent
      else if name.utf8ByteSize > maxNameBytes then .error .nameTooLong
      else .ok (location.child name)

def find (folder : Folder) (path : String) : Except AccessError Entry := do
  let (start, names) ← route path
  let location ← names.foldlM folder.step start
  match folder.entry? location with
  | some entry => return entry
  | none => throw .noSuchFile

def stepMaking : Folder × Location → String → Except AccessError (Folder × Location)
  | (folder, location), name => do
      let next ← folder.step location name
      match folder.entry? next with
      | some _ => return (folder, next)
      | none => return ({ folder with directories := next :: folder.directories }, next)

def makeDirectory (folder : Folder) (path : String) : Except AccessError Folder := do
  let (start, names) ← route path
  let (made, location) ← names.foldlM stepMaking (folder, start)
  match made.entry? location with
  | some (.file _) => throw .notADirectory
  | _ => return made

/-- Writes a file, over the one that is there, and makes the directories that
are missing on the way to it. -/
def writeFile (folder : Folder) (path : String) (content : ByteArray) :
    Except AccessError Folder := do
  let (start, names) ← route path
  let (made, parent) ← names.dropLast.foldlM stepMaking (folder, start)
  let location ← made.step parent (names.getLast?.getD "")
  match made.entry? location with
  | some .directory => throw .isADirectory
  | _ => return { made with files := (location, content) :: made.files }

/-- A folder in which these directories are made and then these files written,
one after the other; what cannot be made is left out. -/
def ofEntries (directories : List String) (files : List (String × ByteArray)) : Folder :=
  let made := directories.foldl
    (fun folder path => (folder.makeDirectory path).toOption.getD folder) empty
  files.foldl
    (fun folder (path, content) => (folder.writeFile path content).toOption.getD folder) made

end Folder

end PascalFrontEnd
