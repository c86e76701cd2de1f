import Microcode.Command.Arguments
import Microcode.Command.Run
/-!
# The Command Line

The simulator as a program: the system as a host, and the entry point.

## Main definitions

* `FileError.ofSystem`: An error of the system as a file error.
* `main`: Carrying out the command line.
-/

namespace Microcode

/-- An error of the system as a file error. -/
def FileError.ofSystem (e : IO.Error) : FileError :=
  let report (code : UInt32) (details : String) : FileError :=
    .other (details ++ " (os error " ++ toString code ++ ")")
  match e with
  | .noFileOrDirectory .. => .notFound
  | .inappropriateType _ 21 _ => .isADirectory
  | .inappropriateType .. => .notADirectory
  | .invalidArgument _ 36 _ => .nameTooLong
  | .permissionDenied _ code details => report code details
  | .resourceExhausted _ code details => report code details
  | e => .other (toString e)

/-- A file operation of the system with its errors as values. -/
def attempt {α : Type} (path : String) (action : IO α) : IO (Except FileError α) := do
  if path.toList.contains (Char.ofNat 0) then return .error .zeroInPath
  try return .ok (← action)
  catch e => return .error (.ofSystem e)

instance : Host IO where
  readText path := do
    let bytes ← attempt path (IO.FS.readBinFile path)
    return bytes.bind fun bytes => match Content.ofBytes bytes with
      | .text s => .ok s
      | .binary _ => .error .notText
  writeText path s := attempt path (IO.FS.writeFile path s)
  appendText path s := attempt path (IO.FS.withFile path .append (fun file => file.putStr s))
  print := IO.print
  report := IO.eprint

end Microcode

/-- Carries out the command line. -/
def main (arguments : List String) : IO UInt32 := do
  match Microcode.Invocation.ofArguments? arguments with
  | some invocation => invocation.carryOut
  | none =>
    IO.eprintln "error: the arguments make no sense; see --help"
    return 2
