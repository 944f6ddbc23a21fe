import ConstructorInjection.Run

/-!
The program. It reads the working directory, runs the command on it, and writes back the files that
have changed.
-/

namespace ConstructorInjection

def contentOfBytes (bytes : ByteArray) : Content :=
  match String.fromUTF8? bytes with
  | some characters => .text characters.toList
  | none => .undecodable bytes.toList

/-- Reads directory entries down to some depth. -/
def readEntries : Nat → List IO.FS.DirEntry → IO Listing
  | 0, _ => return .empty
  | _, [] => return .empty
  | depth + 1, entry :: entries => do
    let name := entry.fileName.toList
    if ← entry.path.isDir then
      let inside ← readEntries depth (← entry.path.readDir).toList
      return .directory name inside (← readEntries (depth + 1) entries)
    else
      let content := contentOfBytes (← IO.FS.readBinFile entry.path)
      return .file name content (← readEntries (depth + 1) entries)

/-- Paths have no more than so many directories. -/
def maxDepth : Nat :=
  2048

def usageText : String :=
  "Convert Magento 1 PHP classes to Magento 2 constructor injection\n\n" ++
  "Usage: m2c [-v] <COMMAND>\n\n" ++
  "Commands:\n" ++
  "  convert [PATHS]...  Convert files and directories in place\n" ++
  "  lex <FILE>          Dump the tokens of a file\n" ++
  "  locate <FILE>       Show the class and constructor a conversion would edit\n" ++
  "  help [COMMAND]      Print this message\n\n" ++
  "Options of convert:\n" ++
  "  --mapping <FILE>    JSON file with class and alias mapping tables\n" ++
  "  --check             Report files that would change; exit 1 if any would\n" ++
  "  --diff              Print a diff instead of writing files\n" ++
  "  --stdout            Print converted sources instead of writing files\n" ++
  "  --namer <NAMER>     How injected variables are named: module or trailing\n" ++
  "  --no-properties     Do not declare properties for injected dependencies\n" ++
  "  --json              Print a JSON report\n" ++
  "  -j, --jobs <N>      Worker threads\n"

def UsageError.text : UsageError → String
  | argumentConflict => "error: the argument cannot be used with another one"
  | invalidValue => "error: a value is missing or invalid"
  | valueValidation => "error: invalid number of jobs"
  | unknownArgument => "error: unexpected argument"
  | tooManyValues => "error: unexpected value for an option"
  | missingArgument => "error: a file is required"
  | missingCommand => "error: a command is required"
  | unknownCommand => "error: unrecognized command"
  | nothingGiven => usageText
  | helpRequested => usageText
  | versionRequested => "m2c 0.1.0"

end ConstructorInjection

open ConstructorInjection

def main (arguments : List String) : IO UInt32 := do
  match Command.ofArguments (arguments.map String.toList) with
  | .error error =>
    if error.exitCode = 0 then IO.println error.text else IO.eprintln error.text
    return error.exitCode.toUInt32
  | .ok command =>
    let directory ← IO.currentDir
    let tree ← readEntries maxDepth (← directory.readDir).toList
    let outcome := command.run tree
    for ((path, old), (_, new)) in (tree.files []).zip (outcome.tree.files []) do
      match new with
      | .text characters =>
        if old ≠ new then IO.FS.writeFile (String.ofList path) (String.ofList characters)
      | .undecodable _ => pure ()
    IO.print (String.ofList outcome.printed.stdout)
    IO.eprint (String.ofList outcome.printed.stderr)
    return outcome.exitCode.toUInt32
