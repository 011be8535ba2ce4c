import MockAudit.Command.Run
import MockAudit.Proofs.Workspace.Discovery

/-!
# Documents do not influence one another

The stages of a check are followed one by one: the settings are the same, the documents found are the same up to the new
one, so are those in scope, and the batch treats each of them on its own.
-/

namespace MockAudit

theorem Analyzer.outcomes_of_calm (analyzer : Analyzer) {providers : List Provider}
    (calm : ∀ provider ∈ providers, provider.cancels = false) :
    analyzer.outcomes false providers = (providers.map (analyzer.outcome false), false) := by
  induction providers with
  | nil => rfl
  | cons provider rest ih =>
      rw [outcomes, calm provider (by simp), Bool.or_false, ih fun other member => calm other (by simp [member])]
      rfl

theorem Analyzer.skipped?_outcome (analyzer : Analyzer) (provider : Provider) :
    (analyzer.outcome false provider).skipped? = none := by
  cases loaded : provider.load <;> simp [outcome, loaded, Outcome.skipped?]

namespace Report

/-- The second report has what became of one unit in one place of its files or of its failures; all else is as in the
first one. -/
inductive Gains (report : Report) (outcome : Outcome) : Report → Prop
  | file {before after : List FileReport} {file : FileReport} (analysed : outcome = .analysed file)
      (split : report.files = before ++ after) : Gains report outcome { report with files := before ++ file :: after }
  | failure {before after : List Failure} {failure : Failure} (failed : outcome = .failed failure)
      (split : report.failures = before ++ after) :
      Gains report outcome { report with failures := before ++ failure :: after }

theorem gains_insert {outcome : Outcome} (front back : List Outcome) (settled : outcome.skipped? = none) :
    Gains (ofOutcomes (front ++ back)) outcome (ofOutcomes (front ++ outcome :: back)) := by
  cases outcome with
  | analysed file =>
      have grown : ofOutcomes (front ++ .analysed file :: back) = { ofOutcomes (front ++ back) with
          files := front.filterMap Outcome.file? ++ file :: back.filterMap Outcome.file? } := by
        simp [ofOutcomes, List.filterMap_cons, Outcome.file?, Outcome.failure?, Outcome.skipped?]
      rw [grown]
      exact .file rfl (by simp [ofOutcomes])
  | failed failure =>
      have grown : ofOutcomes (front ++ .failed failure :: back) = { ofOutcomes (front ++ back) with
          failures := front.filterMap Outcome.failure? ++ failure :: back.filterMap Outcome.failure? } := by
        simp [ofOutcomes, List.filterMap_cons, Outcome.file?, Outcome.failure?, Outcome.skipped?]
      rw [grown]
      exact .failure rfl (by simp [ofOutcomes])
  | skipped path => simp [Outcome.skipped?] at settled

theorem Gains.hasErrors {outcome : Outcome} {report grown : Report} (gains : Gains report outcome grown)
    (errors : report.hasErrors = true) : grown.hasErrors = true := by
  cases gains with
  | failure => exact errors
  | file analysed split =>
      simp only [Report.hasErrors, diagnostics, split, List.flatMap_append, List.any_append, List.flatMap_cons,
        Bool.or_eq_true] at errors ⊢
      tauto

theorem Gains.exists_failure {outcome : Outcome} {report grown : Report} (gains : Gains report outcome grown)
    (same : grown.files = report.files) : ∃ before failure after, outcome = .failed failure ∧
      report.failures = before ++ after ∧ grown.failures = before ++ failure :: after := by
  cases gains with
  | failure failed split => exact ⟨_, _, _, failed, split, rfl⟩
  | file analysed split =>
      have longer := congrArg List.length (same.trans split)
      simp at longer

end Report

namespace Command

theorem check_eq_ok_iff {environment : Environment} {fs : FileSystem} {path : Path} {choices : Choices}
    {report : Report} :
    check environment fs path choices = .ok report ↔
      ∃ settings, checkSettings environment fs path choices = .ok settings ∧
        (settings.isActive = false ∧ report = {} ∨
          settings.isActive = true ∧ ∃ documents analyzer,
            checkDocuments environment fs path settings = .ok documents ∧
            Analyzer.build settings choices.filter = .ok analyzer ∧
            report = Report.ofOutcomes ((settings.inScope documents).map fun document =>
              analyzer.outcome false document.provider)) := by
  unfold check
  cases checkSettings environment fs path choices with
  | error cause => simp [bind, Except.bind]
  | ok settings =>
      cases active : settings.isActive with
      | false =>
          simp only [bind, Except.bind, pure, Except.pure, active, Bool.not_false, if_true, Except.ok.injEq]
          simp [active, @eq_comm _ report]
      | true =>
          have calm (documents : List Document) (analyzer : Analyzer) :
              (analyzer.batch false ((settings.inScope documents).map Document.provider)).1 =
                Report.ofOutcomes ((settings.inScope documents).map fun document =>
                  analyzer.outcome false document.provider) := by
            rw [Analyzer.batch, Analyzer.outcomes_of_calm, List.map_map]
            · rfl
            · simp [Document.provider]
          cases found : checkDocuments environment fs path settings with
          | error cause => simp [bind, Except.bind, active, found]
          | ok documents =>
              cases built : Analyzer.build settings choices.filter with
              | error cause =>
                  simp [bind, Except.bind, active, found, built, throw, throwThe, MonadExceptOf.throw]
              | ok analyzer =>
                  simp [bind, Except.bind, pure, Except.pure, active, found, built, calm, @eq_comm _ report]

section Adds
variable {environment : Environment} {fs other : FileSystem} {place : List String} {text : Option String}
variable {path : Path} {choices : Choices} (adds : fs.AddsDocument other place text)
include adds

theorem checkSettings_of_ok {settings : Settings} (loaded : checkSettings environment fs path choices = .ok settings) :
    checkSettings environment other path choices = .ok settings := by
  simp only [checkSettings, adds.resolve_eq] at loaded ⊢
  split at loaded
  next found => rwa [adds.load?_eq found]
  next => contradiction

theorem exists_checkDocuments {settings : Settings} {documents : List Document}
    (rules : UserIgnore.rules other environment.home = UserIgnore.rules fs environment.home)
    (found : checkDocuments environment fs path settings = .ok documents) :
    ∃ grown, checkDocuments environment other path settings = .ok grown ∧
      (grown = documents ∨ ∃ front file back, documents = front ++ back ∧
        grown = front ++ Document.ofFile other file :: back ∧ other.locate file = .ok place) := by
  simp only [checkDocuments, rules] at found ⊢
  split at found
  next paths searched =>
    obtain ⟨paths', searched', change, placed⟩ := adds.exists_discover searched
    have same {list : List Path} (inside : ∀ file ∈ list, file ∈ paths) :
        list.map (Document.ofFile other) = list.map (Document.ofFile fs) := by
      refine List.map_congr_left fun file member => ?_
      obtain ⟨here, different, located⟩ := placed file (inside file member)
      rw [Document.ofFile, Document.ofFile, adds.read_of_locate located different]
    obtain rfl := Except.ok.inj found
    refine ⟨paths'.map (Document.ofFile other), by rw [searched'], ?_⟩
    rcases change with rfl | ⟨front, file, back, rfl, rfl, located⟩
    · exact .inl (same fun _ => id)
    · refine .inr ⟨front.map (Document.ofFile fs), file, back.map (Document.ofFile fs), by simp, ?_, located⟩
      rw [List.map_append, List.map_cons, same fun _ => List.mem_append_left back,
        same fun _ => List.mem_append_right front]
  next => contradiction

theorem exists_check {report : Report}
    (rules : UserIgnore.rules other environment.home = UserIgnore.rules fs environment.home)
    (checked : check environment fs path choices = .ok report) :
    ∃ grown, check environment other path choices = .ok grown ∧
      (grown = report ∨ ∃ settings analyzer file,
        checkSettings environment other path choices = .ok settings ∧
        Analyzer.build settings choices.filter = .ok analyzer ∧ other.locate file = .ok place ∧
        report.Gains (analyzer.outcome false (Document.ofFile other file).provider) grown) := by
  obtain ⟨settings, loaded, stages⟩ := check_eq_ok_iff.mp checked
  have loaded' := checkSettings_of_ok adds loaded
  rcases stages with ⟨inactive, rfl⟩ | ⟨active, documents, analyzer, found, built, rfl⟩
  · exact ⟨{}, check_eq_ok_iff.mpr ⟨settings, loaded', .inl ⟨inactive, rfl⟩⟩, .inl rfl⟩
  · obtain ⟨documents', found', change⟩ := exists_checkDocuments adds rules found
    refine ⟨_, check_eq_ok_iff.mpr ⟨settings, loaded', .inr ⟨active, documents', analyzer, found', built, rfl⟩⟩, ?_⟩
    rcases change with rfl | ⟨front, file, back, rfl, rfl, located⟩
    · exact .inl rfl
    · simp only [Settings.inScope, List.filter_append, List.filter_cons, List.map_append]
      split_ifs
      · refine .inr ⟨settings, analyzer, file, loaded', built, located, ?_⟩
        exact Report.gains_insert _ _ (analyzer.skipped?_outcome _)
      · exact .inl rfl

end Adds

theorem exit_answer_check {environment : Environment} {fs : FileSystem} {path : Path} {choices : Choices}
    {report : Report} (checked : check environment fs path choices = .ok report) :
    (answer environment fs (.check path choices)).1.exit = if report.hasErrors then 1 else 0 := by
  simp [answer, checked]

/-- One unit document more adds at most its own entry to the report of a check, in one place, and takes nothing from
the exit code. The user's own ignore file is the one ignore file that could be named like a unit document. -/
theorem check_isolates_documents {environment : Environment} {fs other : FileSystem} {place : List String}
    {text : Option String} {path : Path} {choices : Choices} {report : Report}
    (adds : fs.AddsDocument other place text)
    (rules : UserIgnore.rules other environment.home = UserIgnore.rules fs environment.home)
    (checked : check environment fs path choices = .ok report) :
    ∃ grown, check environment other path choices = .ok grown ∧
      (grown = report ∨ ∃ settings analyzer file,
        checkSettings environment other path choices = .ok settings ∧
        Analyzer.build settings choices.filter = .ok analyzer ∧ other.locate file = .ok place ∧
        report.Gains (analyzer.outcome false (Document.ofFile other file).provider) grown) ∧
      ((answer environment fs (.check path choices)).1.exit = 1 →
        (answer environment other (.check path choices)).1.exit = 1) := by
  obtain ⟨grown, checked', change⟩ := exists_check adds rules checked
  refine ⟨grown, checked', change, ?_⟩
  rw [exit_answer_check checked, exit_answer_check checked']
  intro failed
  have errors : report.hasErrors = true := by simpa using failed
  rcases change with rfl | ⟨_, _, _, _, _, _, gains⟩
  · simp [errors]
  · simp [gains.hasErrors errors]

theorem entryAt?_of_ne_new {name : String} {text : Option String} {entries : List (String × FileTree)}
    (fresh : name ∉ entries.map (·.1)) {place : List String} (different : place ≠ [name]) :
    (FileTree.directory ((name, .file text) :: entries)).entryAt? place =
      (FileTree.directory entries).entryAt? place := by
  rcases place with _ | ⟨first, rest⟩
  · rfl
  rw [FileTree.entryAt?_cons, FileTree.entryAt?_cons, FileTree.child?, FileTree.child?, FileTree.entries,
    FileTree.entries]
  by_cases new : first = name
  · subst new
    obtain ⟨second, rest, rfl⟩ := List.exists_cons_of_ne_nil fun ended : rest = [] => different (by rw [ended])
    rw [FileTree.lookup_cons_self (first, _), FileTree.lookup_eq_none fresh]
    rfl
  · rw [FileTree.lookup_cons_of_ne new]

def workspace (others : List (String × FileTree)) : FileSystem where
  root := .directory (others ++ [("Cart.unit.json", .file (some
    "\x7b\"path\":\"src/Cart.java\",\"source\":\"\",\"nodes\":[\x7b\"span\":[0,0],\"kind\":\"other\"\x7d]\x7d"))])
  current := []

theorem addsDocument_blob :
    (workspace []).AddsDocument (workspace [("Blob.unit.json", .file none)]) ["Blob.unit.json"] none where
  current := rfl
  proper := by decide +kernel
  properOther := by decide +kernel
  named := ⟨[], "Blob.unit.json", rfl, by decide⟩
  absent := by decide +kernel
  present := by decide +kernel
  same _ := entryAt?_of_ne_new (by decide)

theorem checkDocuments_blob : checkDocuments {} (workspace [("Blob.unit.json", .file none)]) "." {} =
    .ok (["././Blob.unit.json", "././Cart.unit.json"].map
      (Document.ofFile (workspace [("Blob.unit.json", .file none)]))) := by
  have sorted : ["././Blob.unit.json", "././Cart.unit.json"].Pairwise fun a b =>
      Path.componentsLe (Path.components a) (Path.components b) = true := by decide +kernel
  simp only [checkDocuments]
  rw [SearchRequest.discover_of_sorted _ sorted]
  decide +kernel

/-- What is gained is the failure of the new document. -/
theorem check_isolates_documents_blob :
    check {} (workspace []) "." {} = .ok { files := [⟨"src/Cart.java", []⟩] } ∧
    ∃ failed : Failure, failed.path = "././Blob.unit.json" ∧
      failed.message = "Failed to read ././Blob.unit.json: stream did not contain valid UTF-8" ∧
      check {} (workspace [("Blob.unit.json", .file none)]) "." {} =
        .ok { files := [⟨"src/Cart.java", []⟩], failures := [failed] } ∧
      ∃ settings analyzer file,
        checkSettings {} (workspace [("Blob.unit.json", .file none)]) "." {} = .ok settings ∧
        Analyzer.build settings none = .ok analyzer ∧
        (workspace [("Blob.unit.json", .file none)]).locate file = .ok ["Blob.unit.json"] ∧
        analyzer.outcome false (Document.ofFile (workspace [("Blob.unit.json", .file none)]) file).provider =
          .failed failed ∧
        Report.Gains { files := [⟨"src/Cart.java", []⟩] } (.failed failed)
          { files := [⟨"src/Cart.java", []⟩], failures := [failed] } := by
  have checked : check {} (workspace []) "." {} = .ok { files := [⟨"src/Cart.java", []⟩] } := by decide +kernel
  have failing : check {} (workspace [("Blob.unit.json", .file none)]) "." {} = .ok
      { files := [⟨"src/Cart.java", []⟩],
        failures := [⟨"././Blob.unit.json",
          "Failed to read ././Blob.unit.json: stream did not contain valid UTF-8"⟩] } :=
    check_eq_ok_iff.mpr ⟨{}, by decide +kernel, .inr ⟨rfl, _, _, checkDocuments_blob, rfl, by decide +kernel⟩⟩
  have rules (fs : FileSystem) : UserIgnore.rules fs ({} : Environment).home = .empty := rfl
  obtain ⟨grown, checked', change, -⟩ := check_isolates_documents addsDocument_blob (by rw [rules, rules]) checked
  obtain rfl := Except.ok.inj (checked'.symm.trans failing)
  refine ⟨checked, _, rfl, rfl, failing, ?_⟩
  rcases change with same | ⟨settings, analyzer, file, loaded, built, located, gains⟩
  · simp at same
  · obtain ⟨before, failure, after, failed, none, one⟩ := gains.exists_failure rfl
    obtain ⟨rfl, rfl⟩ := List.append_eq_nil_iff.mp none.symm
    obtain rfl := List.singleton_injective one
    rw [failed] at gains
    exact ⟨settings, analyzer, file, loaded, built, located, failed, gains⟩

end Command
end MockAudit
