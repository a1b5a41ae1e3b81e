import MiniPascal.CommandLine.Process

/-!
# The program

Runs the command line on the real files, input and output.
-/

namespace MiniPascal.CommandLine

/-- The error of a system call. -/
def systemError (error : IO.Error) : Error :=
  match error with
  | .alreadyExists _ code details | .otherError code details | .resourceBusy code details
  | .resourceVanished code details | .unsupportedOperation code details
  | .hardwareFault code details | .unsatisfiedConstraints code details
  | .illegalOperation code details | .protocolError code details | .timeExpired code details
  | .interrupted _ code details | .noFileOrDirectory _ code details
  | .invalidArgument _ code details | .permissionDenied _ code details
  | .resourceExhausted _ code details | .inappropriateType _ code details
  | .noSuchThing _ code details => .io s!"{details} (os error {code})"
  | .unexpectedEof => .io "unexpected end of file"
  | .userError details => .io details

instance : Host IO where
  print text := do
    let stdout ← IO.getStdout
    stdout.putStr text
    stdout.flush
  complain text := do (← IO.getStderr).putStr text
  source path := do
    try
      return sourceText (← IO.FS.readBinFile path).toList
    catch error =>
      match error with
      | .noFileOrDirectory .. | .inappropriateType _ 20 _ => return .error (sourceMissing path)
      | .inappropriateType .. => return .error (sourceIsFolder path)
      | error => return .error (systemError error)
  input := do return (← (← IO.getStdin).readBinToEnd).toList
  save path text := do
    try
      IO.FS.writeFile path text
      return .ok ()
    catch error => return .error (systemError error)
  clock := IO.monoMsNow
  compute := IO.lazyPure

end MiniPascal.CommandLine

/-- Runs the command line with more fuel than any program can use up. -/
def main (args : List String) : IO UInt32 := do
  let ending : MiniPascal.CommandLine.Ending ← MiniPascal.CommandLine.run (1 <<< 62) args
  return ending.code
