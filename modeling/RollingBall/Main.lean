import RollingBall.CommandLine

/-!
# The program

Reads files and arguments, and prints what `RollingBall.CommandLine.run` says.
-/

namespace RollingBall.Main

/-- The reason the system gives for not reading a file. -/
def readFailure : IO.Error → String
  | .noFileOrDirectory _ code details => details ++ " (os error " ++ toString code ++ ")"
  | .permissionDenied _ code details => details ++ " (os error " ++ toString code ++ ")"
  | .inappropriateType _ code details => details ++ " (os error " ++ toString code ++ ")"
  | e => toString e

/-- The contents of a file as text, or why they cannot be read. -/
def readText (name : String) : IO (Except String String) := do
  try
    let bytes ← IO.FS.readBinFile name
    match String.fromUTF8? bytes with
    | some text => return .ok text
    | none => return .error "stream did not contain valid UTF-8"
  catch e => return .error (readFailure e)

/-- The contents of the file that the arguments name, if they name one. -/
def readLevel : List String → IO (Except String String)
  | [] => return .error ""
  | level :: _ =>
    match CommandLine.levelId? level with
    | some _ => return .error ""
    | none => readText level

end RollingBall.Main

/-- Plays a level with the equations given as arguments. -/
def main (args : List String) : IO UInt32 := do
  let contents ← RollingBall.Main.readLevel args
  let outcome := RollingBall.CommandLine.run (fun _ => contents) args
  (← IO.getStdout).putStr outcome.out
  (← IO.getStderr).putStr outcome.err
  return outcome.code.toUInt32
