import UriTemplate.CommandLine

/-!
# The program

Reads the context file that the arguments name, if any, and prints the output of the command, or
its failure on the error stream.
-/

namespace UriTemplate

/-- The bytes of a file, if it can be read. -/
def readBytes? (file : Text) : IO (Option ByteArray) :=
  try some <$> IO.FS.readBinFile (String.ofList file) catch _ => pure none

/-- Runs the program on its arguments and answers with its exit code. -/
def runProgram (args : List Text) : IO UInt32 := do
  let file := match Command.ofArgs args with
    | .ok command => command.contextFile?
    | .error _ => none
  let bytes ← match file with
    | some file => readBytes? file
    | none => pure none
  match Command.runArgs (fun _ => bytes) args with
  | .ok output =>
    IO.println (String.ofList output)
    return 0
  | .error (.usage .displayHelp) =>
    IO.println "Usage: [-v] expand TEMPLATE [-c FILE] [--var NAME=VALUE]... | [-v] parse TEMPLATE"
    return 0
  | .error (.usage fault) =>
    IO.eprintln (String.ofList fault.name)
    return 2
  | .error failure =>
    IO.eprintln ("Error: " ++ String.ofList failure.message)
    return 1

end UriTemplate

/-- Runs the program. -/
def main (args : List String) : IO UInt32 := UriTemplate.runProgram (args.map String.toList)
