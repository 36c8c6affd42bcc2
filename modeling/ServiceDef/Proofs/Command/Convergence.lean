import ServiceDef.Command.Format
import ServiceDef.Proofs.Files.Writing
import ServiceDef.Proofs.Placement
import ServiceDef.Proofs.Settings.Overlap

/-!
# Formatting converges

A format command that writes changes exactly the files that are not in canonical form. What it has
written is canonical under the settings it was written with, and a second run finds these settings
again, even where the settings file itself was written: so there is nothing left to change for it,
and it fails with the same files.
-/

namespace ServiceDef

namespace FileSystem

/-- The file at the path cannot be read, or there are errors in its text. -/
def Broken (fileSystem : FileSystem) (path : String) : Prop :=
  ∀ source, fileSystem.read path = .ok source →
    Diagnostic.anyError (parse path source).diagnostics = true

/-- The file at the path can be read, there are no errors in its text, and its canonical text is
another one. -/
def Stale (fileSystem : FileSystem) (print : PrintSettings) (path text : String) : Prop :=
  ∃ source, fileSystem.read path = .ok source ∧
    Diagnostic.anyError (parse path source).diagnostics = false ∧
    text = (parse path source).document.print print ∧ text ≠ source

/-- Of the files, exactly the stale ones at the paths have been changed, each to its canonical text,
and no file or directory has come or gone. -/
structure Rewritten (before : FileSystem) (print : PrintSettings) (paths : List String)
    (after : FileSystem) : Prop where
  blank : after.blank = before.blank
  stale : ∀ path ∈ paths, ∀ names text, before.locate path = .ok names →
    before.Stale print path text → after.root.get? names = some (.file (.text text))
  others : ∀ names content, before.root.get? names = some (.file content) →
    (∀ path ∈ paths, before.locate path = .ok names → ∀ text, ¬ before.Stale print path text) →
    after.root.get? names = some (.file content)

end FileSystem

/-! ## The same text at another path -/

/-- The path of a source text decides neither whether it is well formed nor its canonical text. -/
theorem parse_elsewhere (file other source : String) (print : PrintSettings) :
    ((parse file source).diagnostics = [] ↔ (parse other source).diagnostics = []) ∧
      (parse file source).document.print print = (parse other source).document.print print := by
  obtain ⟨content, last, stream, -⟩ := tokensOf_eq_append source.toList
  have here := parse_of_tokensOf file stream
  have there := parse_of_tokensOf other stream
  refine ⟨here.2.trans there.2.symm, ?_⟩
  rw [← Document.print_erasePositions, here.1, ← there.1, Document.print_erasePositions]

/-- A file is formatted unless it cannot be read or has errors. -/
theorem formatFile_cases (print : PrintSettings) (fileSystem : FileSystem) (path : String) :
    (fileSystem.Broken path ∧ ∃ failure, formatFile print fileSystem path = .error failure) ∨
      ∃ source, fileSystem.read path = .ok source ∧ (parse path source).diagnostics = [] ∧
        formatFile print fileSystem path =
          .ok
            { path := path
              source := source
              text := (parse path source).document.print print } := by
  unfold formatFile
  cases read : fileSystem.read path with
  | error reason =>
      refine .inl ⟨fun source other => ?_, _, rfl⟩
      rw [read] at other
      cases other
  | ok source =>
      cases failing : Diagnostic.anyError (parse path source).diagnostics with
      | true =>
          refine .inl ⟨fun text same => ?_, _, if_pos failing⟩
          rw [read] at same
          cases same
          exact failing
      | false =>
          have silent := parse_silent_of_noError failing
          exact .inr ⟨source, rfl, silent, formatSource_of_silent print silent⟩

theorem path_of_formatFile {print : PrintSettings} {fileSystem : FileSystem} {path : String}
    {formatted : Formatted} (success : formatFile print fileSystem path = .ok formatted) :
    formatted.path = path := by
  rcases formatFile_cases print fileSystem path with
    ⟨-, failure, failed⟩ | ⟨source, -, -, again⟩
  · cases failed.symm.trans success
  · cases again.symm.trans success
    rfl

/-! ## Reading files -/

namespace FileSystem

variable {fileSystem : FileSystem} {print : PrintSettings}

/-- A path can be read if it stands for a file with a text. -/
theorem read_eq_ok_iff {fileSystem : FileSystem} {path text : String} :
    fileSystem.read path = .ok text ↔
      ∃ names, fileSystem.locate path = .ok names ∧
        fileSystem.root.get? names = some (.file (.text text)) := by
  unfold FileSystem.read
  cases fileSystem.locate path with
  | error failure => simp
  | ok names =>
      simp only [Except.ok.injEq, exists_eq_left']
      split <;> simp_all

/-- A stale file leads to its source. -/
theorem stale_iff_of_read {path source text : String} (read : fileSystem.read path = .ok source) :
    fileSystem.Stale print path text ↔
      (parse path source).diagnostics = [] ∧ text = (parse path source).document.print print ∧
        text ≠ source := by
  constructor
  · rintro ⟨same, readAgain, noError, printed, differs⟩
    cases read.symm.trans readAgain
    exact ⟨parse_silent_of_noError noError, printed, differs⟩
  · rintro ⟨silent, printed, differs⟩
    exact ⟨source, read, by rw [silent]; rfl, printed, differs⟩

theorem read_congr {path other : String}
    (same : fileSystem.locate other = fileSystem.locate path) :
    fileSystem.read other = fileSystem.read path := by
  simp only [FileSystem.read, same]

/-- Whether a file is stale does not depend on the path that leads to it. -/
theorem Stale.elsewhere {path other text : String} (stale : fileSystem.Stale print other text)
    (same : fileSystem.locate other = fileSystem.locate path) :
    fileSystem.Stale print path text := by
  obtain ⟨source, read, -⟩ := id stale
  obtain ⟨silent, rfl, differs⟩ := (stale_iff_of_read read).1 stale
  obtain ⟨sameSilence, samePrint⟩ := parse_elsewhere other path source print
  exact (stale_iff_of_read ((read_congr same).symm.trans read)).2
    ⟨sameSilence.1 silent, samePrint, differs⟩

/-- A stale file has one canonical text. -/
theorem Stale.unique {path text other : String} (stale : fileSystem.Stale print path text)
    (again : fileSystem.Stale print path other) : text = other := by
  obtain ⟨source, read, -⟩ := id stale
  rw [((stale_iff_of_read read).1 stale).2.1, ((stale_iff_of_read read).1 again).2.1]

/-- A file that can be read and has no diagnostics is not broken. -/
theorem not_broken {path source : String} (read : fileSystem.read path = .ok source)
    (silent : (parse path source).diagnostics = []) : ¬ fileSystem.Broken path := by
  intro broken
  have failing := broken source read
  rw [silent] at failing
  cases failing

theorem Stale.not_broken {path text : String} (stale : fileSystem.Stale print path text) :
    ¬ fileSystem.Broken path := by
  obtain ⟨source, read, noError, -⟩ := stale
  exact FileSystem.not_broken read (parse_silent_of_noError noError)

/-- The stale files are those that are changed by formatting. -/
theorem stale_iff {path text : String} :
    fileSystem.Stale print path text ↔
      ∃ formatted, formatFile print fileSystem path = .ok formatted ∧ formatted.changed = true ∧
        (formatted.path, formatted.text) = (path, text) := by
  rcases formatFile_cases print fileSystem path with
    ⟨broken, failure, failed⟩ | ⟨source, read, silent, success⟩
  · constructor
    · exact fun stale => absurd broken stale.not_broken
    · rintro ⟨formatted, success, -⟩
      cases failed.symm.trans success
  · rw [stale_iff_of_read read]
    constructor
    · rintro ⟨-, rfl, differs⟩
      exact ⟨_, success, decide_eq_true differs, rfl⟩
    · rintro ⟨formatted, again, changed, written⟩
      cases success.symm.trans again
      cases written
      exact ⟨silent, rfl, of_decide_eq_true changed⟩

end FileSystem

/-- Settings can be read from a file whose text they can be parsed from. -/
theorem Settings.read_eq_ok_iff {fileSystem : FileSystem} {path : String} {settings : Settings} :
    Settings.read fileSystem path = .ok settings ↔
      ∃ text, fileSystem.read path = .ok text ∧ Settings.parse? text = some settings := by
  unfold Settings.read
  cases fileSystem.read path with
  | error failure => simp
  | ok text =>
      simp only [Except.ok.injEq, exists_eq_left']
      split <;> simp_all

/-! ## What a run writes -/

namespace FormatRequest

variable {request : FormatRequest} {before : FileSystem} {print : PrintSettings}
  {options : BatchOptions} {paths : List String}

/-- A request that is resolved has loaded its settings, and its batch is not cancelled. -/
theorem settings_of_resolved (resolved : request.resolve before = .ok (print, options)) :
    options.cancelled = false ∧
      ∃ settings, Settings.load before request.config request.path = .ok settings := by
  unfold resolve at resolved
  cases loaded : Settings.load before request.config request.path with
  | error failure =>
      rw [loaded] at resolved
      cases resolved
  | ok settings =>
      rw [loaded] at resolved
      cases styled : request.style settings with
      | error failure =>
          simp only [bind, Except.bind, styled] at resolved
          cases resolved
      | ok style =>
          simp only [bind, Except.bind, styled] at resolved
          cases resolved
          exact ⟨rfl, settings, rfl⟩

/-- A run formats every file that is discovered. -/
theorem run_eq_outcome (resolved : request.resolve before = .ok (print, options))
    (discovered : Discovery.discover before request.path = .ok paths) :
    request.run before = request.outcome (paths.map (formatFile print before)) := by
  simp [run, resolved, discovered, formatFiles, runBatch, (settings_of_resolved resolved).1]

theorem mem_changes_iff {results : List (Except Failure Formatted)} {formatted : Formatted} :
    formatted ∈ changes results ↔ .ok formatted ∈ results ∧ formatted.changed = true := by
  rw [changes, List.mem_filterMap]
  constructor
  · rintro ⟨result, member, found⟩
    cases result with
    | error failure => cases found
    | ok other =>
        dsimp only at found
        split at found
        · next changed =>
            cases found
            exact ⟨member, changed⟩
        · cases found
  · rintro ⟨member, changed⟩
    exact ⟨_, member, if_pos changed⟩

/-- A run that writes writes the stale files with their canonical texts. -/
theorem mem_writes_iff (resolved : request.resolve before = .ok (print, options))
    (discovered : Discovery.discover before request.path = .ok paths)
    (writes : request.writes = true) {path text : String} :
    (path, text) ∈ (request.run before).writes ↔ path ∈ paths ∧ before.Stale print path text := by
  rw [run_eq_outcome resolved discovered]
  simp only [outcome, writes, if_true, List.mem_map, mem_changes_iff]
  constructor
  · rintro ⟨formatted, ⟨⟨other, member, success⟩, changed⟩, written⟩
    have same := path_of_formatFile success
    cases written
    rw [same]
    exact ⟨member, FileSystem.stale_iff.2 ⟨formatted, success, changed, by rw [same]⟩⟩
  · rintro ⟨member, stale⟩
    obtain ⟨formatted, success, changed, written⟩ := FileSystem.stale_iff.1 stale
    exact ⟨formatted, ⟨⟨path, member, success⟩, changed⟩, written⟩

/-- A run that writes rewrites the files that are discovered. -/
theorem rewritten_run (resolved : request.resolve before = .ok (print, options))
    (discovered : Discovery.discover before request.path = .ok paths)
    (writes : request.writes = true) :
    before.Rewritten print paths ((request.run before).apply before) where
  blank := before.blank_writeAll _
  stale path member names text located stale := by
    obtain ⟨source, read, -⟩ := id stale
    obtain ⟨_, again, found⟩ := FileSystem.read_eq_ok_iff.1 read
    cases located.symm.trans again
    obtain ⟨new, last, written | ⟨-, elsewhere⟩⟩ := FileSystem.get?_writeAll found _
    · -- Another path may lead to the same file, and then it was written with the same text.
      obtain ⟨other, otherText, wrote, there, rfl⟩ := written
      have otherStale := ((mem_writes_iff resolved discovered writes).1 wrote).2
      have same := (otherStale.elsewhere (there.trans located.symm)).unique stale
      rw [← same]
      exact last
    · have wrote := (mem_writes_iff resolved discovered writes).2 ⟨member, stale⟩
      exact absurd located (elsewhere path text wrote)
  others names content found current := by
    obtain ⟨new, last, written | ⟨rfl, -⟩⟩ := FileSystem.get?_writeAll found _
    · obtain ⟨path, text, wrote, there, -⟩ := written
      obtain ⟨member, stale⟩ := (mem_writes_iff resolved discovered writes).1 wrote
      exact absurd stale (current path member there text)
    · exact last

end FormatRequest

/-! ## Reading again -/

namespace FileSystem.Rewritten

variable {before after : FileSystem} {print : PrintSettings} {paths : List String}

/-- A file holds the canonical text of what it held if a path leads to it as a stale one, and else
what it held. -/
theorem content (rewritten : before.Rewritten print paths after) {path : String}
    {names : List String} {old : FileContent} (located : before.locate path = .ok names)
    (found : before.root.get? names = some (.file old)) :
    (∃ text, before.Stale print path text ∧ after.root.get? names = some (.file (.text text))) ∨
      after.root.get? names = some (.file old) ∧
        (path ∈ paths → ∀ text, ¬ before.Stale print path text) := by
  by_cases stale : ∃ other ∈ paths, before.locate other = .ok names ∧
      ∃ text, before.Stale print other text
  · obtain ⟨other, member, there, text, stale⟩ := stale
    exact .inl ⟨text, stale.elsewhere (there.trans located.symm),
      rewritten.stale other member names text there stale⟩
  · refine .inr ⟨rewritten.others names old found fun other member there text found => ?_,
      fun member text found => stale ⟨path, member, located, text, found⟩⟩
    exact stale ⟨other, member, there, text, found⟩

/-- What could not be read cannot be read again, for the same reason. -/
theorem read_error (rewritten : before.Rewritten print paths after) {path : String}
    {reason : ReadFailure} (failed : before.read path = .error reason) :
    after.read path = .error reason := by
  have unread := failed
  unfold FileSystem.read at failed ⊢
  rw [locate_eq rewritten.blank]
  cases located : before.locate path with
  | error failure =>
      rw [located] at failed
      exact failed
  | ok names =>
      have same := get?_root_eq rewritten.blank names
      rw [located] at failed
      dsimp only at failed ⊢
      cases found : before.root.get? names with
      | none =>
          rw [found, Option.map_none, Option.map_eq_none_iff] at same
          rwa [same, ← found]
      | some tree =>
          rw [found] at failed same
          cases tree with
          | directory entries =>
              obtain ⟨tree, last, shape⟩ := Option.map_eq_some_iff.1 same
              rw [last]
              cases tree with
              | file content => cases shape
              | directory others => exact failed
          | file old =>
              rcases rewritten.content located found with ⟨text, stale, -⟩ | ⟨last, -⟩
              · obtain ⟨source, read, -⟩ := stale
                cases unread.symm.trans read
              · rw [last]
                exact failed

/-- What could be read can be read again. It is the same text or its canonical text, and it is the
canonical text if the file was to be formatted. -/
theorem read_ok (rewritten : before.Rewritten print paths after) {path source : String}
    (read : before.read path = .ok source) :
    ∃ text, after.read path = .ok text ∧
      (text = source ∨ (parse path source).diagnostics = [] ∧
        text = (parse path source).document.print print) ∧
      (path ∈ paths → (parse path source).diagnostics = [] →
        text = (parse path source).document.print print) := by
  obtain ⟨names, located, found⟩ := read_eq_ok_iff.1 read
  have locatedAgain := (locate_eq rewritten.blank path).trans located
  rcases rewritten.content located found with ⟨text, stale, last⟩ | ⟨last, current⟩
  · obtain ⟨silent, printed, -⟩ := (stale_iff_of_read read).1 stale
    exact ⟨text, read_eq_ok_iff.2 ⟨names, locatedAgain, last⟩, .inr ⟨silent, printed⟩,
      fun _ _ => printed⟩
  · refine ⟨source, read_eq_ok_iff.2 ⟨names, locatedAgain, last⟩, .inl rfl, fun member silent => ?_⟩
    by_contra differs
    exact current member _ ((stale_iff_of_read read).2 ⟨silent, rfl, fun same => differs same.symm⟩)

/-- The settings that have been loaded are loaded again. -/
theorem load_eq (rewritten : before.Rewritten print paths after) {named : Option String}
    {path : String} {settings : Settings}
    (loaded : Settings.load before named path = .ok settings) :
    Settings.load after named path = .ok settings := by
  -- The settings file may be one of the files that were written.
  have readAgain {file : String} (found : Settings.read before file = .ok settings) :
      Settings.read after file = .ok settings := by
    obtain ⟨source, read, parsed⟩ := Settings.read_eq_ok_iff.1 found
    obtain ⟨text, again, rfl | ⟨silent, rfl⟩, -⟩ := rewritten.read_ok read
    · exact Settings.read_eq_ok_iff.2 ⟨text, again, parsed⟩
    · exact Settings.read_eq_ok_iff.2 ⟨_, again, Settings.parse?_print silent parsed print⟩
  unfold Settings.load at loaded ⊢
  cases named with
  | some file => exact readAgain loaded
  | none =>
      rw [Settings.location?_eq rewritten.blank]
      cases place : Settings.location? before path with
      | none =>
          rw [place] at loaded
          exact loaded
      | some file =>
          rw [place] at loaded
          dsimp only at loaded ⊢
          rw [← isFile_blank after, rewritten.blank, isFile_blank]
          split at loaded
          · next isFile =>
              rw [if_pos isFile]
              exact readAgain loaded
          · next noFile =>
              rw [if_neg noFile]
              exact loaded

/-- A file that could not be formatted fails again in the same way, and one that could is not
changed any more. -/
theorem formatFile_again (rewritten : before.Rewritten print paths after) {path : String}
    (member : path ∈ paths) :
    (∃ failure, formatFile print before path = .error failure ∧
        formatFile print after path = .error failure) ∨
      ∃ formatted again, formatFile print before path = .ok formatted ∧
        formatFile print after path = .ok again ∧ again.changed = false := by
  rcases formatFile_cases print before path with
    ⟨broken, failure, failed⟩ | ⟨source, read, silent, success⟩
  · refine .inl ⟨failure, failed, ?_⟩
    rw [← failed]
    unfold formatFile
    cases read : before.read path with
    | error reason => rw [rewritten.read_error read]
    | ok source =>
        obtain ⟨text, again, rfl | ⟨silent, -⟩, -⟩ := rewritten.read_ok read
        · rw [again]
        · exact absurd broken (not_broken read silent)
  · obtain ⟨text, again, -, printed⟩ := rewritten.read_ok read
    rw [printed member silent] at again
    have silentAgain := (parse_print_parse path path source print).1
    have successAgain : formatFile print after path =
        formatSource print path ((parse path source).document.print print) := by
      rw [formatFile, again]
    rw [formatSource_of_silent print silentAgain] at successAgain
    exact .inr ⟨_, _, success, successAgain, by simp [Formatted.changed, print_parse_print]⟩

theorem changes_again (rewritten : before.Rewritten print paths after) :
    FormatRequest.changes (paths.map (formatFile print after)) = [] := by
  rw [List.eq_nil_iff_forall_not_mem]
  intro formatted member
  obtain ⟨inside, changed⟩ := FormatRequest.mem_changes_iff.1 member
  obtain ⟨path, isPath, success⟩ := List.mem_map.1 inside
  rcases rewritten.formatFile_again isPath with
    ⟨failure, -, failed⟩ | ⟨-, again, -, successAgain, unchanged⟩
  · cases failed.symm.trans success
  · cases successAgain.symm.trans success
    rw [unchanged] at changed
    cases changed

theorem failures_again (rewritten : before.Rewritten print paths after) :
    FormatRequest.failures (paths.map (formatFile print after)) =
      FormatRequest.failures (paths.map (formatFile print before)) := by
  rw [FormatRequest.failures, FormatRequest.failures, List.filterMap_map, List.filterMap_map]
  refine List.filterMap_congr fun path member => ?_
  rcases rewritten.formatFile_again member with
    ⟨failure, failed, failedAgain⟩ | ⟨formatted, again, success, successAgain, -⟩
  · simp only [Function.comp_apply, failed, failedAgain]
  · simp only [Function.comp_apply, success, successAgain]

end FileSystem.Rewritten

/-! ## Two runs -/

namespace FormatRequest

/-- Files fail in a batch exactly if they are broken. -/
theorem failures_eq_nil_iff {print : PrintSettings} {fileSystem : FileSystem}
    {paths : List String} :
    failures (paths.map (formatFile print fileSystem)) = [] ↔
      ¬ ∃ path ∈ paths, fileSystem.Broken path := by
  rw [failures, List.filterMap_map, List.filterMap_eq_nil_iff, not_exists]
  refine forall_congr' fun path => ?_
  rw [not_and]
  refine imp_congr_right fun _ => ?_
  rcases formatFile_cases print fileSystem path with
    ⟨broken, failure, failed⟩ | ⟨source, read, silent, success⟩
  · simp [failed, broken]
  · simp [success, FileSystem.not_broken read silent]

/-- A run writes nothing if it cannot start its work or is not asked to write. -/
theorem writes_run_eq_nil {request : FormatRequest} {fileSystem : FileSystem}
    (idle : (∃ failure, request.resolve fileSystem = .error failure) ∨
      (∃ failure, Discovery.discover fileSystem request.path = .error failure) ∨
      request.writes = false) :
    (request.run fileSystem).writes = [] := by
  unfold run
  cases resolved : request.resolve fileSystem with
  | error failure => rfl
  | ok settings =>
      dsimp only
      cases discovered : Discovery.discover fileSystem request.path with
      | error failure => rfl
      | ok paths => simp_all [outcome]

/-- A request is resolved as before after a run. -/
theorem resolve_again {request : FormatRequest} {before after : FileSystem} {print : PrintSettings}
    {options : BatchOptions} {paths : List String} (rewritten : before.Rewritten print paths after)
    (resolved : request.resolve before = .ok (print, options)) :
    request.resolve after = .ok (print, options) := by
  obtain ⟨-, settings, loaded⟩ := settings_of_resolved resolved
  rw [← resolved]
  simp only [resolve, loaded, rewritten.load_eq loaded]

/-- A format command changes no file unless it writes. A run that writes changes exactly the files
among the discovered ones that can be read, have no errors and are not in canonical form, each to
its canonical text. It leaves those alone that cannot be read or have errors, and fails exactly if
there are any. A check with the same request then lists no file, writes none, and ends like the run
itself. -/
theorem run_converges (request : FormatRequest) (before : FileSystem) :
    (((∃ failure, request.resolve before = .error failure) ∨
          (∃ failure, Discovery.discover before request.path = .error failure) ∨
          request.check = true ∨ request.diff = true ∨ request.write = false) →
        (request.run before).apply before = before) ∧
      ∀ print options paths, request.resolve before = .ok (print, options) →
        Discovery.discover before request.path = .ok paths →
        request.check = false → request.diff = false → request.write = true →
        let run := request.run before
        let after := run.apply before
        let again := { request with check := true }.run after
        before.Rewritten print paths after ∧
          (∀ path ∈ paths, before.Broken path → ∀ names content, before.locate path = .ok names →
            before.root.get? names = some (.file content) →
            after.root.get? names = some (.file content)) ∧
          ((∃ path ∈ paths, before.Broken path) ∧ run.code = 1 ∨
            (¬ ∃ path ∈ paths, before.Broken path) ∧ run.code = 0) ∧
          again.output = "" ∧ again.writes = [] ∧ again.notices = run.notices ∧
          again.code = run.code := by
  constructor
  · intro idle
    have unwritten : (request.run before).writes = [] := by
      refine writes_run_eq_nil (idle.imp_right (Or.imp_right fun mode => ?_))
      rcases mode with check | diff | write
      · simp [writes, check]
      · simp [writes, diff]
      · simp [writes, write]
    rw [Outcome.apply, unwritten]
    rfl
  · intro print options paths resolved discovered noCheck noDiff write run after again
    have writing : request.writes = true := by simp [writes, noCheck, noDiff, write]
    have rewritten := rewritten_run resolved discovered writing
    have first : run = request.outcome (paths.map (formatFile print before)) :=
      run_eq_outcome resolved discovered
    have second : again =
        { request with check := true }.outcome (paths.map (formatFile print after)) :=
      run_eq_outcome (resolve_again rewritten resolved)
        ((Discovery.discover_eq rewritten.blank request.path).trans discovered)
    refine ⟨rewritten, fun path member broken names content located found => ?_, ?_, ?_⟩
    · rcases rewritten.content located found with ⟨text, stale, -⟩ | ⟨kept, -⟩
      · exact absurd broken stale.not_broken
      · exact kept
    · by_cases failing : ∃ path ∈ paths, before.Broken path
      · refine .inl ⟨failing, ?_⟩
        simp [first, outcome, noCheck, failures_eq_nil_iff, failing]
      · refine .inr ⟨failing, ?_⟩
        simp [first, outcome, noCheck, failures_eq_nil_iff, failing]
    · have changed : changes (paths.map (formatFile print after)) = [] := rewritten.changes_again
      have failed : failures (paths.map (formatFile print after)) = _ := rewritten.failures_again
      refine ⟨?_, ?_, ?_, ?_⟩
      · simp [second, outcome, changed]
      · simp [second, outcome, changed]
      · simp [second, first, outcome, changed, failed, noCheck]
      · simp [second, first, outcome, changed, failed, noCheck]

/-- A source that is not in canonical form, and one with an error. -/
def noteEntries : List (String × FileTree) :=
  [("a.sdl", .file (.text "# one\n\n  # two")), ("b.sdl", .file (.text "\x7d"))]

/-- A directory with two sources. -/
def noteTree : FileSystem where
  root := .directory noteEntries

/-- A request that takes its settings from one of the sources. -/
def noteRequest : FormatRequest where
  config := some "a.sdl"

theorem discover_noteTree :
    Discovery.discover noteTree noteRequest.path = .ok ["./a.sdl", "./b.sdl"] := by
  have found : noteTree.get? noteRequest.path = some (.directory noteEntries) := by rfl
  have sorted : (Discovery.sourcesIn noteEntries).mergeSort Discovery.precedes =
      [["a.sdl"], ["b.sdl"]] :=
    List.mergeSort_of_pairwise (by decide +kernel)
  rw [Discovery.discover, found]
  dsimp only
  rw [sorted]
  decide +kernel

theorem run_converges_noteTree :
    ((noteRequest.run noteTree).apply noteTree).root.get? ["a.sdl"] =
        some (.file (.text "# one\n# two\n")) ∧
      ((noteRequest.run noteTree).apply noteTree).root.get? ["b.sdl"] =
        some (.file (.text "\x7d")) ∧
      (noteRequest.run noteTree).code = 1 ∧
      ({ noteRequest with check := true }.run
        ((noteRequest.run noteTree).apply noteTree)).output = "" ∧
      ({ noteRequest with check := true }.run
        ((noteRequest.run noteTree).apply noteTree)).code = 1 := by
  have resolved : noteRequest.resolve noteTree = .ok ({}, {}) := by rfl
  obtain ⟨rewritten, kept, code, output, -, -, same⟩ := (run_converges noteRequest noteTree).2 _ _ _
    resolved discover_noteTree rfl rfl rfl
  have stale : noteTree.Stale {} "./a.sdl" "# one\n# two\n" :=
    ⟨"# one\n\n  # two", by decide +kernel, by decide +kernel, by decide +kernel, by decide⟩
  have broken : noteTree.Broken "./b.sdl" := by
    intro source read
    have text : noteTree.read "./b.sdl" = .ok "\x7d" := by decide +kernel
    cases text.symm.trans read
    decide +kernel
  have failing : (noteRequest.run noteTree).code = 1 := by
    rcases code with ⟨-, one⟩ | ⟨none, -⟩
    · exact one
    · exact absurd ⟨"./b.sdl", by decide, broken⟩ none
  exact ⟨rewritten.stale "./a.sdl" (by decide) _ _ (by decide +kernel) stale,
    kept "./b.sdl" (by decide) broken _ _ (by decide +kernel) (by rfl), failing, output,
    same.trans failing⟩

end FormatRequest

end ServiceDef
