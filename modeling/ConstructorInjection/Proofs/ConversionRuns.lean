import ConstructorInjection.Run
import ConstructorInjection.Proofs.InjectionEdits
import ConstructorInjection.Proofs.SourcePaths

/-!
What a run of the conversion does to the tree. It changes the files that it reports as converted,
into what their sources are converted to, and nothing else.
-/

namespace ConstructorInjection

/-- What a run does with a file, by what is read from it, its content before and after the run, and
the report on it. -/
structure FileEffect (converter : Converter) (settings : ConvertSettings)
    (read : Except FileError Text) (before after : Option Content) (report : FileReport) :
    Prop where
  unreadable : ∀ cause, read = .error cause → report.status = .failed ∧ after = before
  unconvertible : ∀ source cause, read = .ok source →
    converter.convertSource source = .error cause → report.status = .failed ∧ after = before
  convertible : ∀ source converted, read = .ok source →
    converter.convertSource source = .ok converted →
      report.status ≠ .failed ∧ (report.status = .unchanged ↔ converted.output = source) ∧
        (settings.writesFiles = true → after = some (.text converted.output))
  changed : after ≠ before → ∃ source converted, before = some (.text source) ∧
    converter.convertSource source = .ok converted ∧ after = some (.text converted.output)
  converted_iff : report.status = .converted ↔ after ≠ before

/-- What becomes of a tree in a run on some of its files. -/
structure RunEffect (converter : Converter) (settings : ConvertSettings) (tree final : Listing)
    (paths : List Text) (reports : List FileReport) : Prop where
  /-- No entry comes, goes or moves. -/
  shape : final.shape = tree.shape
  /-- Files that none of the paths leads to stay as they are. -/
  kept : ∀ names, (∀ path ∈ paths, tree.namesOf path ≠ .ok names) →
    final.fileAt? names = tree.fileAt? names
  reported : reports.map FileReport.path = paths
  files : ∀ report ∈ reports, FileEffect converter settings (tree.readText report.path)
    (tree.contentAt? report.path) (final.contentAt? report.path) report

theorem Converter.changed_of_convertSource {converter : Converter} {source : Text}
    {converted : ConvertedSource} (done : converter.convertSource source = .ok converted) :
    converted.changed = (converted.output != source) := by
  obtain ⟨stream, -, done⟩ := exists_of_bind_eq_ok done
  obtain ⟨conversion, -, done⟩ := exists_of_bind_eq_ok done
  cases done
  rfl

theorem FileReport.status_ofConverted {converter : Converter} {source : Text}
    {converted : ConvertedSource} (done : converter.convertSource source = .ok converted)
    (path : Text) (settings : ConvertSettings) :
    (ofConverted path source converted settings).status =
      if converted.output = source then .unchanged
      else if settings.writesFiles then .converted
      else .wouldConvert := by
  rw [ofConverted, Converter.changed_of_convertSource done]
  by_cases same : converted.output = source <;> simp [same]

section File

variable (converter : Converter) (settings : ConvertSettings) (tree : Listing) (path : Text)

theorem convertFile_path : (convertFile converter settings tree path).1.path = path := by
  rw [convertFile]
  cases tree.readText path with
  | error cause => rfl
  | ok source =>
      simp only
      cases converter.convertSource source <;> rfl

/-- A file is written only with what its source is converted to. -/
theorem convertFile_tree :
    (convertFile converter settings tree path).2 = tree ∨
      ∃ names source converted, tree.namesOf path = .ok names ∧
        tree.fileAt? names = some (.text source) ∧
        converter.convertSource source = .ok converted ∧ settings.writesFiles = true ∧
        (convertFile converter settings tree path).2 =
          tree.write (.text converted.output) names := by
  rw [convertFile]
  cases read : tree.readText path with
  | error cause => exact .inl rfl
  | ok source =>
      simp only
      cases done : converter.convertSource source with
      | error cause => exact .inl rfl
      | ok converted =>
          simp only
          split
          next written =>
            obtain ⟨names, leads, content⟩ := Listing.readText_eq_ok_iff.mp read
            refine .inr ⟨names, source, converted, leads, content, done, ?_, ?_⟩
            · rw [FileReport.status_ofConverted done] at written
              split_ifs at written
              assumption
            · rw [Listing.writeText, leads]
          next => exact .inl rfl

theorem convertFile_shape : (convertFile converter settings tree path).2.shape = tree.shape := by
  obtain same | ⟨names, source, converted, -, content, -, -, written⟩ :=
    convertFile_tree converter settings tree path
  · rw [same]
  · rw [written, Listing.shape_write _ content]

theorem convertFile_kept {names : List Text} (apart : tree.namesOf path ≠ .ok names) :
    (convertFile converter settings tree path).2.fileAt? names = tree.fileAt? names := by
  obtain same | ⟨others, source, converted, leads, content, -, -, written⟩ :=
    convertFile_tree converter settings tree path
  · rw [same]
  · have different : names ≠ others := by
      rintro rfl
      exact apart leads
    rw [written, Listing.fileAt?_write _ content, if_neg different]

theorem convertFile_tree_of_dry (dry : settings.writesFiles = false) :
    (convertFile converter settings tree path).2 = tree := by
  obtain same | ⟨-, -, -, -, -, -, writes, -⟩ := convertFile_tree converter settings tree path
  · exact same
  · rw [dry] at writes
    contradiction

theorem convertFile_of_unreadable {cause : FileError}
    (unreadable : tree.readText path = .error cause) :
    convertFile converter settings tree path =
      (.ofError path (.unreadable path cause), tree) := by
  rw [convertFile, unreadable]

theorem convertFile_of_unconvertible {source : Text} {cause : ConversionError}
    (read : tree.readText path = .ok source)
    (unconvertible : converter.convertSource source = .error cause) :
    convertFile converter settings tree path =
      (.ofError path (.unconvertible path cause), tree) := by
  rw [convertFile, read]
  simp only [unconvertible]

theorem convertFile_of_converted {source : Text} {converted : ConvertedSource}
    (read : tree.readText path = .ok source)
    (done : converter.convertSource source = .ok converted) :
    convertFile converter settings tree path =
      (.ofConverted path source converted settings,
        if converted.output ≠ source ∧ settings.writesFiles = true then
          tree.writeText path converted.output
        else tree) := by
  rw [convertFile, read]
  simp only [done, FileReport.status_ofConverted done]
  by_cases same : converted.output = source
  · simp [same]
  · cases writes : settings.writesFiles <;> simp [same]

end File

section Effects

variable {converter : Converter} {settings : ConvertSettings} {read : Except FileError Text}
  {before after : Option Content} {report : FileReport} {source : Text}
  {converted : ConvertedSource}

theorem FileEffect.of_failed (failed : report.status = .failed)
    (fails : ∀ source converted, read = .ok source →
      converter.convertSource source ≠ .ok converted) :
    FileEffect converter settings read before before report where
  unreadable _ _ := ⟨failed, rfl⟩
  unconvertible _ _ _ _ := ⟨failed, rfl⟩
  convertible source converted isRead done := absurd done (fails source converted isRead)
  changed different := absurd rfl different
  converted_iff := by simp [failed]

theorem FileEffect.of_converted (isRead : read = .ok source)
    (content : before = some (.text source))
    (done : converter.convertSource source = .ok converted)
    (status : report.status =
      if converted.output = source then .unchanged
      else if settings.writesFiles then .converted
      else .wouldConvert)
    (result : after =
      if settings.writesFiles then some (.text converted.output) else before) :
    FileEffect converter settings read before after report where
  unreadable cause unread := by simp [isRead] at unread
  unconvertible other cause readOther fails := by
    cases isRead.symm.trans readOther
    simp [done] at fails
  convertible other again readOther doneOther := by
    cases isRead.symm.trans readOther
    cases done.symm.trans doneOther
    refine ⟨?_, ?_, fun writes => by rw [result, if_pos writes]⟩
    · rw [status]
      split_ifs <;> simp
    · rw [status]
      split_ifs with same <;> simp [same]
  changed different := by
    refine ⟨source, converted, content, done, ?_⟩
    rw [result] at different ⊢
    split_ifs at different ⊢
    · rfl
    · contradiction
  converted_iff := by
    rw [status, result, content]
    split_ifs with same <;> simp [same]

end Effects

section File

variable (converter : Converter) (settings : ConvertSettings) (tree : Listing) (path : Text)

theorem fileEffect_convertFile :
    FileEffect converter settings (tree.readText path) (tree.contentAt? path)
      ((convertFile converter settings tree path).2.contentAt? path)
      (convertFile converter settings tree path).1 := by
  cases read : tree.readText path with
  | error cause =>
      rw [convertFile_of_unreadable _ _ _ _ read]
      exact FileEffect.of_failed rfl (by simp)
  | ok source =>
      cases done : converter.convertSource source with
      | error cause =>
          rw [convertFile_of_unconvertible _ _ _ _ read done]
          refine FileEffect.of_failed rfl ?_
          rintro _ converted ⟨⟩
          simp [done]
      | ok converted =>
          have content := Listing.readText_eq_ok_iff_contentAt?.mp read
          rw [convertFile_of_converted _ _ _ _ read done]
          refine FileEffect.of_converted rfl content done
            (FileReport.status_ofConverted done path settings) ?_
          by_cases same : converted.output = source
          · rw [if_neg (by simp [same]), content, same, ite_self]
          · cases writes : settings.writesFiles
            · simp
            · rw [if_pos ⟨same, rfl⟩, if_pos rfl, Listing.contentAt?_writeText _ read]

end File

section Runs

variable {converter : Converter} {settings : ConvertSettings} {tree : Listing}
  {path : Text} {paths : List Text}

theorem Listing.Apart.of_shape {first second : Listing} {left right : Text}
    (same : first.shape = second.shape) (apart : first.Apart left right) :
    second.Apart left right := by
  intro names leads
  rw [← namesOf_eq_of_shape same] at leads ⊢
  exact apart names leads

/-- A file keeps its content when the paths that are worked on lead to other files. -/
theorem RunEffect.contentAt?_eq {final : Listing} {reports : List FileReport}
    (effect : RunEffect converter settings tree final paths reports)
    (apart : ∀ other ∈ paths, tree.Apart path other) :
    final.contentAt? path = tree.contentAt? path := by
  cases leads : tree.namesOf path with
  | error cause =>
      rw [Listing.contentAt?, Listing.contentAt?, Listing.namesOf_eq_of_shape effect.shape, leads]
      rfl
  | ok names =>
      rw [Listing.contentAt?_of_namesOf leads, Listing.contentAt?_of_namesOf
        ((Listing.namesOf_eq_of_shape effect.shape path).trans leads)]
      exact effect.kept names fun other isMember => apart other isMember names leads

theorem RunEffect.isTree {final : Listing} {reports : List FileReport}
    (effect : RunEffect converter settings tree final paths reports) (isTree : tree.IsTree) :
    final.IsTree := by
  rw [← Listing.isTree_shape, effect.shape]
  exact tree.isTree_shape.mpr isTree

theorem runEffect_nil : RunEffect converter settings tree tree [] [] where
  shape := rfl
  kept _ _ := rfl
  reported := rfl
  files := by simp

theorem runEffect_convertFile :
    RunEffect converter settings tree (convertFile converter settings tree path).2 [path]
      [(convertFile converter settings tree path).1] where
  shape := convertFile_shape converter settings tree path
  kept names apart := convertFile_kept converter settings tree path (apart path (by simp))
  reported := by simp [convertFile_path]
  files := by
    simp only [List.mem_singleton, forall_eq, convertFile_path]
    exact fileEffect_convertFile converter settings tree path

theorem RunEffect.exists_report {final : Listing} {reports : List FileReport}
    (effect : RunEffect converter settings tree final paths reports) (isPath : path ∈ paths) :
    ∃ report ∈ reports, report.path = path ∧
      FileEffect converter settings (tree.readText path) (tree.contentAt? path)
        (final.contentAt? path) report := by
  rw [← effect.reported, List.mem_map] at isPath
  obtain ⟨report, isReport, rfl⟩ := isPath
  exact ⟨report, isReport, rfl, effect.files report isReport⟩

/-- Runs on different files make one run. -/
theorem RunEffect.append {middle final : Listing} {first second : List Text}
    {firstReports secondReports : List FileReport}
    (starts : RunEffect converter settings tree middle first firstReports)
    (continues : RunEffect converter settings middle final second secondReports)
    (apart : (first ++ second).Pairwise tree.Apart) :
    RunEffect converter settings tree final (first ++ second)
      (firstReports ++ secondReports) := by
  rw [List.pairwise_append] at apart
  obtain ⟨-, -, apart⟩ := apart
  have path_mem {paths : List Text} {reports : List FileReport} {report : FileReport}
      (reported : reports.map FileReport.path = paths) (isReport : report ∈ reports) :
      report.path ∈ paths := reported ▸ List.mem_map_of_mem isReport
  refine ⟨continues.shape.trans starts.shape, ?_, ?_, ?_⟩
  · intro names avoided
    rw [List.forall_mem_append] at avoided
    refine (continues.kept names ?_).trans (starts.kept names avoided.1)
    simpa only [Listing.namesOf_eq_of_shape starts.shape] using avoided.2
  · rw [List.map_append, starts.reported, continues.reported]
  · refine List.forall_mem_append.mpr ⟨?_, ?_⟩
    · intro report isReport
      have isPath := path_mem starts.reported isReport
      rw [continues.contentAt?_eq fun other isOther =>
        (apart _ isPath other isOther).of_shape starts.shape.symm]
      exact starts.files report isReport
    · intro report isReport
      have isPath := path_mem continues.reported isReport
      have before := starts.contentAt?_eq fun other isOther =>
        (apart other isOther _ isPath).symm
      rw [← before, ← Listing.readText_eq_of_shape starts.shape before]
      exact continues.files report isReport

theorem runEffect_convertFiles (apart : paths.Pairwise tree.Apart) :
    RunEffect converter settings tree (convertFiles converter settings tree paths).2 paths
      (convertFiles converter settings tree paths).1 := by
  induction paths generalizing tree with
  | nil => exact runEffect_nil
  | cons path paths ih =>
      have first := @runEffect_convertFile converter settings tree path
      have later := ih (apart.of_cons.imp (Listing.Apart.of_shape first.shape.symm))
      exact first.append later apart

theorem convertFiles_tree_of_dry (dry : settings.writesFiles = false) :
    (convertFiles converter settings tree paths).2 = tree := by
  induction paths with
  | nil => rfl
  | cons path paths ih =>
      rw [convertFiles]
      simp only [convertFile_tree_of_dry converter settings tree path dry]
      exact ih

end Runs

/-! The exit code. -/

theorem FileStatus.eq_unchanged_iff (status : FileStatus) :
    status = .unchanged ↔ status ≠ .failed ∧ status ≠ .converted ∧ status ≠ .wouldConvert := by
  cases status <;> simp

theorem RunSummary.exitCode_eq_zero_iff (summary : RunSummary) (check : Bool) :
    summary.exitCode check = 0 ↔
      summary.failed = 0 ∧ (check = true → summary.converted = 0) := by
  rw [exitCode]
  split_ifs with fails
  · simp only [false_iff, not_and]
    intro sound checked
    obtain failed | ⟨checks, pending⟩ := fails
    · exact failed sound
    · exact pending (checked checks)
  · simpa [not_or] using fails

theorem exitCode_ofReports_eq_zero_iff (reports : List FileReport) (missing : Nat)
    (check : Bool) :
    (RunSummary.ofReports reports missing).exitCode check = 0 ↔
      missing = 0 ∧ ∀ report ∈ reports, report.status ≠ .failed ∧
        (check = true → report.status = .unchanged) := by
  have none (status : FileStatus) :
      reports.countP (·.status == status) = 0 ↔ ∀ report ∈ reports, report.status ≠ status := by
    simp [List.countP_eq_zero]
  simp only [RunSummary.exitCode_eq_zero_iff, RunSummary.ofReports, Nat.add_eq_zero_iff, none,
    FileStatus.eq_unchanged_iff]
  constructor
  · rintro ⟨⟨present, sound⟩, checked⟩
    exact ⟨present, fun report isReport => ⟨sound report isReport, fun checks =>
      ⟨sound report isReport, (checked checks).1 report isReport,
        (checked checks).2 report isReport⟩⟩⟩
  · rintro ⟨present, sound⟩
    exact ⟨⟨present, fun report isReport => (sound report isReport).1⟩, fun checks =>
      ⟨fun report isReport => ((sound report isReport).2 checks).2.1,
        fun report isReport => ((sound report isReport).2 checks).2.2⟩⟩

/-- Whether a file is read and converted, and stays as it is in a check. -/
def Converter.Passes (converter : Converter) (settings : ConvertSettings)
    (read : Except FileError Text) : Prop :=
  ∃ source converted, read = .ok source ∧ converter.convertSource source = .ok converted ∧
    (settings.check = true → converted.output = source)

theorem FileEffect.passes_iff {converter : Converter} {settings : ConvertSettings}
    {read : Except FileError Text} {before after : Option Content} {report : FileReport}
    (effect : FileEffect converter settings read before after report) :
    (report.status ≠ .failed ∧ (settings.check = true → report.status = .unchanged)) ↔
      converter.Passes settings read := by
  constructor
  · rintro ⟨sound, checked⟩
    cases isRead : read with
    | error cause => exact absurd (effect.unreadable cause isRead).1 sound
    | ok source =>
        cases done : converter.convertSource source with
        | error cause => exact absurd (effect.unconvertible source cause isRead done).1 sound
        | ok converted =>
            obtain ⟨-, unchanged_iff, -⟩ := effect.convertible source converted isRead done
            exact ⟨source, converted, rfl, done, fun checks => unchanged_iff.mp (checked checks)⟩
  · rintro ⟨source, converted, isRead, done, checked⟩
    obtain ⟨sound, unchanged_iff, -⟩ := effect.convertible source converted isRead done
    exact ⟨sound, fun checks => unchanged_iff.mpr (checked checks)⟩

theorem RunEffect.exitCode_eq_zero_iff {converter : Converter} {settings : ConvertSettings}
    {tree final : Listing} {paths : List Text} {reports : List FileReport}
    (effect : RunEffect converter settings tree final paths reports) (missing : Nat) :
    (RunSummary.ofReports reports missing).exitCode settings.check = 0 ↔
      missing = 0 ∧ ∀ path ∈ paths, converter.Passes settings (tree.readText path) := by
  rw [exitCode_ofReports_eq_zero_iff, ← effect.reported, List.forall_mem_map]
  refine and_congr_right fun _ => forall₂_congr fun report isReport => ?_
  exact (effect.files report isReport).passes_iff

/-! A run of the command. -/

theorem ConvertSettings.writesFiles_eq_false_iff (settings : ConvertSettings) :
    settings.writesFiles = false ↔
      settings.check = true ∨ settings.diff = true ∨ settings.stdout = true := by
  simp only [writesFiles, Bool.and_eq_false_iff, Bool.not_eq_false', or_assoc]

section Command

variable {tree : Listing} {path : Text} {settings : ConvertSettings}

theorem runConvert_of_unloaded {paths : List Text} {error : CommandError}
    (fails : loadMapping tree settings.mapping = .error error) :
    runConvert tree paths settings = ⟨1, ⟨[], errorLine error⟩, tree⟩ := by
  rw [runConvert, fails]

theorem runConvert_of_loaded {tables : MappingTables}
    (loads : loadMapping tree settings.mapping = .ok tables) :
    let discovered := discover tree [path]
    let converted := convertFiles (converterOf tables settings) settings tree discovered.files
    let summary := RunSummary.ofReports converted.1 discovered.missing.length
    let missing := discovered.missing.flatMap fun path => errorLine (.missingPath path)
    runConvert tree [path] settings =
      ⟨summary.exitCode settings.check,
        Printed.append ⟨[], missing⟩ (printReports converted.1 summary settings), converted.2⟩ := by
  rw [runConvert, loads]
  simp only [List.cons_ne_nil, if_false]

/-- A directory with a source that changes, one that has no end, and a file that is no source. -/
def mixedSources : Listing :=
  .directory "app"
    (.file "Log.php" (.text "<?php class A\x7bfunction f()\x7bMage::log(1);\x7d\x7d")
      (.file "Open.php" (.text "<?php f(") (.file "notes.txt" (.undecodable [255]) .empty)))
    .empty

def inPlace : ConvertSettings :=
  { check := false, diff := false, stdout := false, json := false, declareProperties := true,
    naming := .moduleQualified, mapping := none, jobs := none }

theorem discover_mixedSources :
    (discover mixedSources ["app"]).files = ["app/Log.php".toList, "app/Open.php".toList] := by
  rw [discover_files_of_sorted]
  · decide +kernel
  · decide +kernel

end Command

end ConstructorInjection
