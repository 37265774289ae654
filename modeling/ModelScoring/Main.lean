import ModelScoring.CommandLine.Program

/-!
# The command line

Answers the files that the program asks for, prints what it leaves behind, and ends with its exit
code.  No clock is read, so that every length of time is shown as zero.
-/

namespace ModelScoring.CommandLine

/-- The number of a fault; the system may give it with a minus sign. -/
def faultNumber (code : UInt32) : Nat := code.toInt32.toInt.natAbs

/-- Why a file is not read, in the words of the operating system and with its number for it. -/
def faultText (e : IO.Error) : String :=
  match e with
  | .noFileOrDirectory .. => "No such file or directory (os error 2)"
  | .permissionDenied .. => "Permission denied (os error 13)"
  | .inappropriateType none .. => "Is a directory (os error 21)"
  | .inappropriateType (some _) .. => "Not a directory (os error 20)"
  | .invalidArgument _ code _ =>
    if faultNumber code = 36 then "File name too long (os error 36)"
    else "file name contained an unexpected NUL byte"
  | .otherError code details => s!"{details} (os error {faultNumber code})"
  | e => toString e

/-- Reads a file. -/
def readFile (path : String) : IO FileAnswer := do
  try
    return .ok (← IO.FS.readBinFile ⟨path⟩)
  catch e =>
    return .error (faultText e)

end ModelScoring.CommandLine

open ModelScoring CommandLine in
def main (arguments : List String) : IO UInt32 := do
  let outcome ← (program (fun _ => Clock.still) arguments).run readFile
  (← IO.getStdout).putStr outcome.output
  (← IO.getStderr).putStr outcome.errors
  return outcome.exitCode.toUInt32
