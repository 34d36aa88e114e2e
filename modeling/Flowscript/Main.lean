import Flowscript.Command.Run

/-!
# The program

The command on the files and streams of the system.
-/

namespace Flowscript.Command

/-- The failure that the system has this number for. -/
def FileError.ofNumber? : UInt32 → Option FileError
  | 2 => some .notFound
  | 13 => some .permissionDenied
  | 20 => some .notDirectory
  | 21 => some .isDirectory
  | 28 => some .noSpace
  | 36 => some .nameTooLong
  | _ => none

/-- What the system says about a failure. Some of its calls give the number with a minus. -/
def systemReason (code : UInt32) (details : String) : String :=
  match FileError.ofNumber? code <|> FileError.ofNumber? (0 - code) with
  | some e => e.message
  | none => details ++ " (os error " ++ toString code ++ ")"

/-- What is said about a failure. -/
def reasonOf : IO.Error → String
  | .noFileOrDirectory _ code details => systemReason code details
  | .noSuchThing _ code details => systemReason code details
  | .inappropriateType _ code details => systemReason code details
  | .permissionDenied _ code details => systemReason code details
  | .invalidArgument _ code details => systemReason code details
  | .resourceExhausted _ code details => systemReason code details
  | .otherError code details => systemReason code details
  | other => toString other

/-- Runs a file operation and catches its failure. -/
def attempt {α : Type} (action : IO α) : IO (Except String α) := do
  match ← action.toBaseIO with
  | .ok a => return .ok a
  | .error e => return .error (reasonOf e)

/-- Reads the text in a file. -/
def readText (path : String) : IO (Except String String) := do
  match ← attempt (IO.FS.readBinFile path) with
  | .error reason => return .error reason
  | .ok bytes =>
    match String.fromUTF8? bytes with
    | some text => return .ok text
    | none => return .error FileError.notText.message

/-- Writes a text to a file, and waits until it is there. -/
def writeText (path content : String) : IO (Except String Unit) :=
  attempt do
    let handle ← IO.FS.Handle.mk path .write
    handle.putStr content
    handle.flush

/-- The nanoseconds since this moment. -/
def stopwatch : IO (Nat → IO Nat) := do
  let started ← IO.monoNanosNow
  return fun _ => return (← IO.monoNanosNow) - started

/-- The host that works on the system. -/
def systemHost : Host IO where
  read := readText
  write := writeText
  print text := do (← IO.getStdout).putStr text
  report text := do (← IO.getStderr).putStr text
  startClock := stopwatch

end Flowscript.Command

def main (arguments : List String) : IO UInt32 :=
  Flowscript.Command.run Flowscript.Command.systemHost arguments
