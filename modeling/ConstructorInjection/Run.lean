import ConstructorInjection.Discovery
import ConstructorInjection.Patch
import ConstructorInjection.Report

/-!
The program on a tree of files: what a command prints, how it ends, and the tree that it leaves.
-/

namespace ConstructorInjection

structure Outcome where
  exitCode : Nat
  printed : Printed
  tree : Listing
  deriving DecidableEq

def loadMapping (tree : Listing) : Option Text → Except CommandError MappingTables
  | none => .ok MappingTables.empty
  | some path =>
    match tree.readText path with
    | .error cause => .error (.unreadableMapping path cause)
    | .ok text => (MappingTables.read text).mapError (.invalidMapping path)

def converterOf (tables : MappingTables) (settings : ConvertSettings) : Converter :=
  ⟨⟨tables, settings.naming⟩,
    { InjectionOptions.default with declareProperties := settings.declareProperties }⟩

def FileReport.ofError (path : Text) (error : CommandError) : FileReport :=
  ⟨path, .failed, 0, [], 0, some error, none⟩

/-- The report of a file whose source has been converted. -/
def FileReport.ofConverted (path source : Text) (converted : ConvertedSource)
    (settings : ConvertSettings) : FileReport :=
  let status : FileStatus :=
    if !converted.changed then .unchanged
    else if settings.writesFiles then .converted
    else .wouldConvert
  let output :=
    if converted.changed && settings.diff then
      some (Patch.render path source converted.output)
    else if settings.stdout then some converted.output
    else none
  ⟨path, status, converted.convertedCalls, converted.added, converted.duplicates, none, output⟩

/-- Converts one file of a tree, and writes it if it changes in a run that writes. -/
def convertFile (converter : Converter) (settings : ConvertSettings) (tree : Listing)
    (path : Text) : FileReport × Listing :=
  match tree.readText path with
  | .error cause => (.ofError path (.unreadable path cause), tree)
  | .ok source =>
    match converter.convertSource source with
    | .error cause => (.ofError path (.unconvertible path cause), tree)
    | .ok converted =>
      let report := FileReport.ofConverted path source converted settings
      (report,
        if report.status = .converted then tree.writeText path converted.output else tree)

/-- Converts files one after the other. -/
def convertFiles (converter : Converter) (settings : ConvertSettings) (tree : Listing) :
    List Text → List FileReport × Listing
  | [] => ([], tree)
  | path :: paths =>
    let (report, changed) := convertFile converter settings tree path
    let (reports, final) := convertFiles converter settings changed paths
    (report :: reports, final)

/-- What a run prints about its files. -/
def printReports (reports : List FileReport) (summary : RunSummary)
    (settings : ConvertSettings) : Printed :=
  if settings.json then ⟨textLine (JsonText.run reports summary), []⟩
  else
    let files := reports.foldl (fun printed report => printed.append (report.printed settings))
      Printed.nothing
    if settings.stdout then files else files.append ⟨summary.text settings, []⟩

/-- Converts the sources that the paths ask for; without a path, those in the working directory. -/
def runConvert (tree : Listing) (paths : List Text) (settings : ConvertSettings) : Outcome :=
  match loadMapping tree settings.mapping with
  | .error error => ⟨1, ⟨[], errorLine error⟩, tree⟩
  | .ok tables =>
    let discovered := discover tree (if paths = [] then ["."] else paths)
    let missing := discovered.missing.flatMap fun path => errorLine (.missingPath path)
    let (reports, final) :=
      convertFiles (converterOf tables settings) settings tree discovered.files
    let summary := RunSummary.ofReports reports discovered.missing.length
    ⟨summary.exitCode settings.check,
      Printed.append ⟨[], missing⟩ (printReports reports summary settings), final⟩

/-- Prints what there is to tell about the tokens of a file. -/
def runOnTokens (tree : Listing) (path : Text) (describe : TokenStream → Text) : Outcome :=
  match tree.readText path with
  | .error cause => ⟨1, ⟨[], errorLine (.unreadable path cause)⟩, tree⟩
  | .ok source =>
    match tokenize source with
    | .error error => ⟨1, ⟨[], errorLine (.unconvertible path (.lexical error))⟩, tree⟩
    | .ok stream => ⟨0, ⟨describe stream, []⟩, tree⟩

def describeFile (path : Text) (stream : TokenStream) : Text :=
  match stream.locate? defaultMarker with
  | some site => describeSite stream site
  | none => textLine (path ++ ": no class declared")

def Command.run (tree : Listing) : Command → Outcome
  | convert paths settings => runConvert tree paths settings
  | lex path => runOnTokens tree path (tokenListing path)
  | locate path => runOnTokens tree path (describeFile path)

end ConstructorInjection
