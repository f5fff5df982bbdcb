import PascalFrontEnd.Parse.Error
import PascalFrontEnd.Text.Quoted

namespace PascalFrontEnd

/-- Why a file is refused without being opened. -/
inductive Refusal where
  | wrongExtension
  | missing (path : String)
  | other (reason : String)
  deriving DecidableEq, Repr

inductive AccessError where
  | noSuchFile
  | notADirectory
  | isADirectory
  | nameTooLong
  | notUtf8
  | nulInName
  | other (reason : String)
  deriving DecidableEq, Repr

inductive Failure where
  | refused (refusal : Refusal)
  | access (error : AccessError)
  | parse (error : ParseError)
  deriving DecidableEq, Repr

def sourceExtensions : List String := ["pas", "pp"]

namespace Refusal

def message : Refusal → String
  | wrongExtension =>
      let quoted := sourceExtensions.map Quoted.encode
      "File must have one of the extensions [" ++ ", ".intercalate quoted ++ "]"
  | missing path => s!"Input file does not exist: {path}"
  | other reason => reason

end Refusal

namespace AccessError

def isAbsence : AccessError → Bool
  | noSuchFile | notADirectory | nameTooLong | nulInName => true
  | isADirectory | notUtf8 | other _ => false

def message : AccessError → String
  | noSuchFile => "No such file or directory (os error 2)"
  | notADirectory => "Not a directory (os error 20)"
  | isADirectory => "Is a directory (os error 21)"
  | nameTooLong => "File name too long (os error 36)"
  | notUtf8 => "stream did not contain valid UTF-8"
  | nulInName => "file name contained an unexpected NUL byte"
  | other reason => reason

end AccessError

namespace Failure

def line? : Failure → Option Nat
  | parse error => some error.line
  | refused _ | access _ => none

def name : Failure → String
  | refused _ => "FileReadError"
  | access _ => "IoError"
  | parse error => error.name

def message : Failure → String
  | refused refusal => s!"File read error: {refusal.message}"
  | access error => s!"I/O error: {error.message}"
  | parse error => error.message

end Failure

end PascalFrontEnd
