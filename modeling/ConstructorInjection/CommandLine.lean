import ConstructorInjection.Dependency

/-!
The arguments of the program: a command, options before or behind its paths, and the ways in which
arguments can be refused. An option that takes a value is settled by the argument behind it, and
only then is its value looked at.
-/

namespace ConstructorInjection

/-- How a run of `convert` is set up. -/
structure ConvertSettings where
  /-- Report files that would change, and fail if there are any. -/
  check : Bool
  diff : Bool
  stdout : Bool
  json : Bool
  declareProperties : Bool
  naming : NamingScheme
  mapping : Option Text
  /-- How many files to work on at a time; of no effect on the result. -/
  jobs : Option Nat
  deriving DecidableEq

/-- Files are written unless the run only tells what it would do. -/
def ConvertSettings.writesFiles (settings : ConvertSettings) : Bool :=
  !settings.check && !settings.diff && !settings.stdout

inductive Command where
  | convert (paths : List Text) (settings : ConvertSettings)
  /-- List the tokens of a file. -/
  | lex (path : Text)
  /-- Describe the class and the constructor of a file. -/
  | locate (path : Text)
  deriving DecidableEq

inductive UsageError where
  /-- An option that is given twice, or beside one that excludes it. -/
  | argumentConflict
  /-- A value that is missing or none of the possible ones. -/
  | invalidValue
  /-- A value of the wrong form. -/
  | valueValidation
  | unknownArgument
  /-- A value for an option that takes none. -/
  | tooManyValues
  | missingArgument
  | missingCommand
  | unknownCommand
  | nothingGiven
  | helpRequested
  | versionRequested
  deriving DecidableEq

def UsageError.exitCode : UsageError → Nat
  | helpRequested | versionRequested => 0
  | _ => 2

inductive Switch where
  | verbose
  | help
  | version
  | check
  | diff
  | stdout
  | noProperties
  | json
  deriving DecidableEq

inductive Setting where
  | mapping
  | namer
  | jobs
  deriving DecidableEq

inductive OptionName where
  | switch (name : Switch)
  | setting (name : Setting)
  deriving DecidableEq

/-- What an argument list is read for: the program itself, `convert`, or a command with one file. -/
inductive ArgumentScope where
  | program
  | convert
  | oneFile
  deriving DecidableEq

namespace ArgumentScope

/-- The options that stand in a scope, with their long and short names. -/
def options : ArgumentScope → List (Text × Option Char × OptionName)
  | program =>
    [("verbose", some 'v', .switch .verbose), ("help", some 'h', .switch .help),
     ("version", some 'V', .switch .version)]
  | oneFile => [("verbose", some 'v', .switch .verbose), ("help", some 'h', .switch .help)]
  | convert =>
    [("verbose", some 'v', .switch .verbose), ("help", some 'h', .switch .help),
     ("mapping", none, .setting .mapping), ("check", none, .switch .check),
     ("diff", none, .switch .diff), ("stdout", none, .switch .stdout),
     ("namer", none, .setting .namer), ("no-properties", none, .switch .noProperties),
     ("json", none, .switch .json), ("jobs", some 'j', .setting .jobs)]

def ofLong? (scope : ArgumentScope) (name : Text) : Option OptionName :=
  (scope.options.find? fun (long, _, _) => long = name).map fun (_, _, found) => found

def ofShort? (scope : ArgumentScope) (name : Char) : Option OptionName :=
  (scope.options.find? fun (_, short, _) => short = some name).map fun (_, _, found) => found

end ArgumentScope

/-- What has been read but not looked at yet. -/
inductive Pending where
  | nothing
  /-- An option, with its value if that has come. -/
  | value (setting : Setting) (given : Option Text)
  | paths (given : List Text)
  deriving DecidableEq

structure ArgumentState where
  switches : List Switch
  naming : Option NamingScheme
  mapping : Option Text
  jobs : Option Nat
  paths : List Text
  pending : Pending
  escaped : Bool
  deriving DecidableEq

def ArgumentState.initial : ArgumentState :=
  ⟨[], none, none, none, [], .nothing, false⟩

/-- Numbers of jobs are below two to the power of 64. -/
def countLimit : Nat :=
  18446744073709551616

/-- A number in decimal digits, perhaps after a plus sign, below the limit. -/
def readCount? (text : Text) : Option Nat :=
  let digits := (Text.dropStart? ['+'] text).getD text
  if digits ≠ [] ∧ digits.all Char.isDigit then
    let value := digits.foldl (fun total digit => 10 * total + (digit.toNat - '0'.toNat)) 0
    if value < countLimit then some value else none
  else none

namespace ArgumentState

/-- Takes the value of an option, which must not have one already. -/
def assign (state : ArgumentState) (setting : Setting) (value : Text) :
    Except UsageError ArgumentState :=
  match setting with
  | .mapping =>
    if state.mapping.isSome then .error .argumentConflict
    else if value = [] then .error .invalidValue
    else .ok { state with mapping := some value }
  | .namer =>
    if state.naming.isSome then .error .argumentConflict
    else if value = "module" then .ok { state with naming := some .moduleQualified }
    else if value = "trailing" then .ok { state with naming := some .trailingSegment }
    else .error .invalidValue
  | .jobs =>
    if state.jobs.isSome then .error .argumentConflict
    else
      match readCount? value with
      | some count => .ok { state with jobs := some count }
      | none => .error .valueValidation

def settle (state : ArgumentState) : Except UsageError ArgumentState :=
  let settled := { state with pending := .nothing }
  match state.pending with
  | .nothing => .ok settled
  | .value _ none => .error .invalidValue
  | .value setting (some value) => settled.assign setting value
  | .paths given =>
    if given.contains [] then .error .invalidValue
    else .ok { settled with paths := settled.paths ++ given }

def switchOn (state : ArgumentState) (name : Switch) : Except UsageError ArgumentState := do
  let state ← state.settle
  match name with
  | .help => throw .helpRequested
  | .version => throw .versionRequested
  | name =>
    if state.switches.contains name then throw .argumentConflict
    else return { state with switches := state.switches ++ [name] }

/-- An option that is given with its value, or that waits for it. -/
def give (state : ArgumentState) (setting : Setting) (value : Option Text) :
    Except UsageError ArgumentState := do
  let state ← state.settle
  match value with
  | some value => state.assign setting value
  | none => return { state with pending := .value setting none }

/-- An argument `--name` or `--name=value`, without the hyphens. -/
def long (state : ArgumentState) (scope : ArgumentScope) (text : Text) :
    Except UsageError ArgumentState :=
  let (name, value) :=
    match Text.splitAtFirst? '=' text with
    | some (name, value) => (name, some value)
    | none => (text, none)
  match scope.ofLong? name with
  | none => .error .unknownArgument
  | some (.setting setting) => state.give setting value
  | some (.switch switch) =>
    if value.isSome then .error .tooManyValues else state.switchOn switch

/-- Short options in one argument, without the hyphen. A value may follow directly. -/
def short (state : ArgumentState) (scope : ArgumentScope) :
    Text → Except UsageError ArgumentState
  | [] => .ok state
  | first :: rest =>
    match scope.ofShort? first with
    | none => .error .unknownArgument
    | some (.setting setting) =>
      if rest = [] then state.give setting none
      else state.give setting (some ((Text.dropStart? ['='] rest).getD rest))
    | some (.switch switch) => do
      let state ← state.switchOn switch
      state.short scope rest

/-- A path. Commands with one file take no second one. -/
def positional (state : ArgumentState) (scope : ArgumentScope) (text : Text) :
    Except UsageError ArgumentState :=
  match state.pending with
  | .paths given =>
    if scope = .oneFile then .error .unknownArgument
    else .ok { state with pending := .paths (given ++ [text]) }
  | _ =>
    if scope = .oneFile ∧ state.paths ≠ [] then .error .unknownArgument
    else do
      let state ← state.settle
      return { state with pending := .paths [text] }

def read (scope : ArgumentScope) (state : ArgumentState) (text : Text) :
    Except UsageError ArgumentState :=
  if state.escaped then state.positional scope text
  else
    match text with
    | ['-', '-'] => .ok { state with escaped := true }
    | '-' :: '-' :: name => state.long scope name
    | '-' :: first :: rest => state.short scope (first :: rest)
    | text =>
      match state.pending with
      | .value setting none => .ok { state with pending := .value setting (some text) }
      | _ => state.positional scope text

def excludes (left right : Switch) : Bool :=
  match left, right with
  | .check, .diff | .check, .stdout | .diff, .stdout | .json, .diff | .json, .stdout => true
  | _, _ => false

def hasConflict (state : ArgumentState) : Bool :=
  state.switches.any fun left => state.switches.any fun right => excludes left right

end ArgumentState

namespace Command

def readConvert (arguments : List Text) : Except UsageError Command := do
  let read ← arguments.foldlM (ArgumentState.read .convert) ArgumentState.initial
  let state ← read.settle
  if state.hasConflict then throw .argumentConflict
  let given (switch : Switch) : Bool := state.switches.contains switch
  return .convert state.paths {
    check := given .check
    diff := given .diff
    stdout := given .stdout
    json := given .json
    declareProperties := !given .noProperties
    naming := state.naming.getD .moduleQualified
    mapping := state.mapping
    jobs := state.jobs }

def readFile (command : Text → Command) (arguments : List Text) : Except UsageError Command := do
  let read ← arguments.foldlM (ArgumentState.read .oneFile) ArgumentState.initial
  let state ← read.settle
  match state.paths with
  | [] => throw .missingArgument
  | path :: _ => return command path

def readers : List (Text × (List Text → Except UsageError Command)) :=
  [("convert", readConvert), ("lex", readFile lex), ("locate", readFile locate)]

/-- The argument of `help` names a command. -/
def readHelp : List Text → UsageError
  | [] => .helpRequested
  | [name] =>
    if name = "help" ∨ (readers.lookup name).isSome then .helpRequested else .unknownCommand
  | _ => .unknownCommand

def readFrom (state : ArgumentState) : List Text → Except UsageError Command
  | [] => .error (if state.switches = [] then .nothingGiven else .missingCommand)
  | text :: rest =>
    if state.escaped then
      .error (if text = "help" ∨ (readers.lookup text).isSome then .unknownArgument
        else .unknownCommand)
    else
      match text with
      | ['-', '-'] => readFrom { state with escaped := true } rest
      | '-' :: '-' :: name => do readFrom (← state.long .program name) rest
      | '-' :: first :: others => do readFrom (← state.short .program (first :: others)) rest
      | name =>
        if name = "help" then .error (readHelp rest)
        else
          match readers.lookup name with
          | some reader => reader rest
          | none => .error .unknownCommand

def ofArguments (arguments : List Text) : Except UsageError Command :=
  readFrom ArgumentState.initial arguments

end Command

end ConstructorInjection
