import ConstructorInjection.CommandLine
import ConstructorInjection.Conversion
import ConstructorInjection.FileTree
import ConstructorInjection.MappingTables.Reader

/-!
What the program tells: errors, the outcome of each file, the totals of a run, the tokens of a file
and the description of a class.
-/

namespace ConstructorInjection

inductive CommandError where
  | unreadableMapping (path : Text) (cause : FileError)
  | invalidMapping (path : Text) (cause : ReadError)
  | missingPath (path : Text)
  | unreadable (path : Text) (cause : FileError)
  | unconvertible (path : Text) (cause : ConversionError)
  deriving DecidableEq

def CommandError.message : CommandError → Text
  | unreadableMapping path cause => "cannot read mapping file `" ++ path ++ "`: " ++ cause.message
  | invalidMapping path cause => "invalid mapping file `" ++ path ++ "`: " ++ cause.message
  | missingPath path => "path not found: `" ++ path ++ "`"
  | unreadable path cause => "cannot read `" ++ path ++ "`: " ++ cause.message
  | unconvertible path cause => path ++ ": " ++ cause.message

def CommandError.line? : CommandError → Option Nat
  | unconvertible _ cause => cause.line?
  | _ => none

def textLine (text : Text) : Text :=
  text ++ ['\n']

def errorLine (error : CommandError) : Text :=
  textLine ("error: " ++ error.message)

inductive FileStatus where
  | unchanged
  | converted
  /-- Would change, in a run that does not write. -/
  | wouldConvert
  | failed
  deriving DecidableEq

def FileStatus.name : FileStatus → Text
  | unchanged => "unchanged"
  | converted => "converted"
  | wouldConvert => "would_convert"
  | failed => "failed"

structure FileReport where
  path : Text
  status : FileStatus
  convertedCalls : Nat
  injected : List Dependency
  duplicates : Nat
  error : Option CommandError
  /-- The converted source or its patch, where these are asked for. -/
  output : Option Text
  deriving DecidableEq

structure RunSummary where
  files : Nat
  converted : Nat
  unchanged : Nat
  /-- Files that failed, and arguments that denote nothing. -/
  failed : Nat
  convertedCalls : Nat
  deriving DecidableEq

def RunSummary.ofReports (reports : List FileReport) (missing : Nat) : RunSummary :=
  let having (status : FileStatus) : Nat := reports.countP (·.status == status)
  { files := reports.length
    converted := having .converted + having .wouldConvert
    unchanged := having .unchanged
    failed := missing + having .failed
    convertedCalls := reports.foldl (fun total report => total + report.convertedCalls) 0 }

/-- A run fails when anything failed, and when it checks and a file would change. -/
def RunSummary.exitCode (summary : RunSummary) (check : Bool) : Nat :=
  if summary.failed ≠ 0 ∨ (check ∧ summary.converted ≠ 0) then 1 else 0

structure Printed where
  stdout : Text
  stderr : Text
  deriving DecidableEq

namespace Printed

def nothing : Printed :=
  ⟨[], []⟩

def append (first second : Printed) : Printed :=
  ⟨first.stdout ++ second.stdout, first.stderr ++ second.stderr⟩

end Printed

def duplicatesWarning (count : Nat) : Text :=
  Text.decimal count ++ " extra constructor declaration(s) ignored"

def FileReport.printed (report : FileReport) (settings : ConvertSettings) : Printed :=
  let error :=
    match report.error with
    | some error => errorLine error
    | none => []
  let warning :=
    if report.duplicates = 0 then []
    else textLine ("warning: " ++ report.path ++ ": " ++ duplicatesWarning report.duplicates)
  let status :=
    match report.status with
    | .converted =>
      textLine ("Converted: " ++ report.path ++ " (" ++ Text.decimal report.convertedCalls ++
        " call sites)")
    | .wouldConvert => if settings.check then textLine ("Would convert: " ++ report.path) else []
    | _ => []
  ⟨report.output.getD [] ++ status, error ++ warning⟩

def RunSummary.text (summary : RunSummary) (settings : ConvertSettings) : Text :=
  if summary.files = 0 ∧ summary.failed = 0 then textLine "No PHP sources found"
  else
    let verb : Text := if settings.writesFiles then "converted" else "would convert"
    textLine (['\n'] ++ Text.decimal summary.converted ++ " " ++ verb ++ ", " ++
      Text.decimal summary.unchanged ++ " unchanged, " ++ Text.decimal summary.failed ++
      " failed (" ++ Text.decimal summary.convertedCalls ++ " call sites)")

namespace JsonText

/-- Items between two brackets, each on a line of its own and indented behind `indent`. -/
def block (opening closing : Char) (indent : Text) (items : List Text) : Text :=
  if items = [] then [opening, closing]
  else
    [opening, '\n'] ++ Text.joinWith [',', '\n'] (items.map fun item => indent ++ "  " ++ item) ++
      ['\n'] ++ indent ++ [closing]

def list (indent : Text) (items : List Text) : Text :=
  block '[' ']' indent items

def object (indent : Text) (members : List (Text × Text)) : Text :=
  block '\x7b' '\x7d' indent
    (members.map fun (key, value) => jsonString key ++ ": " ++ value)

def dependency (indent : Text) (dependency : Dependency) : Text :=
  object indent
    [("class", jsonString dependency.className),
     ("variable", jsonString dependency.variableName)]

def fileReport (indent : Text) (report : FileReport) : Text :=
  let inner := indent ++ "  "
  let error :=
    match report.error with
    | some error => [("error".toList, jsonString error.message)]
    | none => []
  let line :=
    match report.error.bind CommandError.line? with
    | some line => [("line".toList, Text.decimal line)]
    | none => []
  object indent
    ([("path".toList, jsonString report.path),
      ("status".toList, jsonString report.status.name),
      ("converted_calls".toList, Text.decimal report.convertedCalls),
      ("injected".toList,
        list inner (report.injected.map (dependency (inner ++ "  ")))),
      ("duplicate_constructors".toList, Text.decimal report.duplicates)] ++ error ++ line)

def summary (indent : Text) (summary : RunSummary) : Text :=
  object indent
    [("files", Text.decimal summary.files),
     ("converted", Text.decimal summary.converted),
     ("unchanged", Text.decimal summary.unchanged),
     ("failed", Text.decimal summary.failed),
     ("converted_calls", Text.decimal summary.convertedCalls)]

def run (reports : List FileReport) (totals : RunSummary) : Text :=
  object []
    [("files", list "  " (reports.map (fileReport "    "))),
     ("summary", summary "  " totals)]

end JsonText

/-- One line for each token: its line, its kind and its text. -/
def tokenListing (path : Text) (stream : TokenStream) : Text :=
  textLine ("Tokens for '" ++ path ++ "' (" ++ Text.decimal stream.length ++ " tokens):") ++
    stream.flatMap fun token =>
      textLine ("  " ++ Text.padLeft 4 (Text.decimal token.line) ++ "  " ++
        Text.padRight 20 token.kind.name ++ " " ++ shown token.text)

def describeParameter (parameter : Parameter) : Text :=
  let kind : Text :=
    if parameter.isVariadic then "variadic"
    else if parameter.hasDefault then "optional"
    else "mandatory"
  let promoted : Text := if parameter.isPromoted then ", promoted" else ""
  "  $" ++ parameter.name ++ ": " ++ parameter.typeName.getD "untyped" ++ " (" ++ kind ++
    promoted ++ ")"

def lineAt (stream : TokenStream) (index : Nat) : Text :=
  match stream[index]? with
  | some token => Text.decimal token.line
  | none => "0"

def describeSite (stream : TokenStream) (site : ConstructorSite) : Text :=
  let declaration := site.declaration
  let head := textLine ("class " ++ declaration.name.getD "<anonymous>" ++ " (line " ++
    lineAt stream declaration.keyword ++ ")")
  let parent :=
    match declaration.parent with
    | some parent => textLine ("extends " ++ parent)
    | none => textLine "no parent class"
  let body :=
    match site.constructor? with
    | some found =>
      let shape : Text := if found.bodyOpen.isNone then "no body" else "with body"
      textLine ("constructor: line " ++ lineAt stream found.start ++ " (" ++ shape ++ "), " ++
        Text.decimal found.parameters.length ++ " parameter(s)") ++
      found.parameters.flatMap fun parameter => textLine (describeParameter parameter)
    | none =>
      textLine ("constructor: none, class body opens on line " ++
        lineAt stream declaration.bodyOpen)
  let warning :=
    if site.duplicates = 0 then []
    else textLine ("warning: " ++ duplicatesWarning site.duplicates)
  head ++ parent ++ body ++ warning

end ConstructorInjection
