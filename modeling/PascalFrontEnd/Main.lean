import PascalFrontEnd.Command.Report
import Std.Time

namespace PascalFrontEnd.Command

def accessError : IO.Error → AccessError
  | .noFileOrDirectory _ _ _ => .noSuchFile
  | .inappropriateType _ 21 _ => .isADirectory
  | .inappropriateType _ _ _ => .notADirectory
  | .invalidArgument _ _ _ => .nameTooLong
  | error => .other (toString error)

def openPath (path : String) : IO (Except AccessError Entry) := do
  try
    return .ok (.file (← IO.FS.readBinFile path))
  catch error =>
    match accessError error with
    | .isADirectory => return .ok .directory
    | other => return .error other

def seconds (nanoseconds width : Nat) : String :=
  let milliseconds := (nanoseconds + 500000) / 1000000
  let places := toString (1000 + milliseconds % 1000)
  Report.padLeft width s!"{milliseconds / 1000}.{places.drop 1}" ++ "s"

def timed {α : Type} (compute : Unit → α) : IO Nat := do
  let before ← IO.monoNanosNow
  let _ ← IO.lazyPure compute
  return (← IO.monoNanosNow) - before

def now : IO String := do
  let stamp ← Std.Time.Timestamp.now
  let date := Std.Time.DateTime.ofTimestamp stamp Std.Time.TimeZone.ZoneRules.UTC
  return date.format "uuuu-MM-dd'T'HH:mm:ss'Z'"

def perform (options : Options) : IO UInt32 := do
  let begun ← IO.monoNanosNow
  let source ← options.input.text openPath
  let text := source.toOption.getD ""
  let lexing ← timed fun _ => (tokenize text).length
  let parsing ← timed fun _ => (parseSource text options.mode).isOk
  let outcome := Report.ofInput options source
  let whole := (← IO.monoNanosNow) - begun
  let clock (phase : Phase) (width : Nat) : String :=
    match phase with
    | .lexing => seconds lexing width
    | .parsing => seconds parsing width
    | .whole => seconds whole width
  let shown := Report.transcript options outcome clock (← IO.getEnv "RUST_LOG") (← now)
  IO.print shown.stdout
  IO.eprint shown.stderr
  return shown.exitCode

end PascalFrontEnd.Command

open PascalFrontEnd in
def main (arguments : List String) : IO UInt32 := do
  match Request.ofArguments arguments with
  | .parse options => Command.perform options
  | .version => IO.print Report.versionText; return 0
  | .help => IO.print Report.helpText; return 0
  | .rejected => IO.eprint Report.helpText; return 2
