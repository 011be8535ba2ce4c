import MockAudit.Analysis.Analyzer
import MockAudit.Proofs.Analysis.Walk
import MockAudit.Proofs.Unit.Validation

namespace MockAudit

theorem Rule.place_rule {rule : Rule} {unit : CompilationUnit} {finding : Finding} {d : Diagnostic}
    (placed : (rule.place unit finding).toOption = some d) : d.code = rule.code ∧ d.rule = rule.name := by
  unfold place at placed
  cases located : unit.locate finding.anchor with
  | error fault => simp [located, Except.map, Except.toOption] at placed
  | ok location =>
      simp only [located, Except.map, Except.toOption, Option.some.injEq] at placed
      simp [← placed]

theorem Rule.filter_diagnostics {rule : Rule} {keepRule : Bool} {keep : Diagnostic → Bool}
    (agree : ∀ d : Diagnostic, d.code = rule.code → d.rule = rule.name → keep d = keepRule)
    (unit : CompilationUnit) (findings : List Finding) :
    (findings.filterMap fun finding => (rule.place unit finding).toOption).filter keep =
      if keepRule then findings.filterMap fun finding => (rule.place unit finding).toOption else [] := by
  have same : ∀ d ∈ findings.filterMap fun finding => (rule.place unit finding).toOption, keep d = keepRule := by
    intro d member
    obtain ⟨finding, -, placed⟩ := List.mem_filterMap.mp member
    obtain ⟨code, name⟩ := Rule.place_rule placed
    exact agree d code name
  cases keepRule with
  | true => exact List.filter_eq_self.mpr same
  | false => exact List.filter_eq_nil_iff.mpr fun d member => by simp [same d member]

theorem reportAt_filter (unit : CompilationUnit) (v : Vocabulary) {rules : List Rule} {keepRule : Rule → Bool}
    {keep : Diagnostic → Bool}
    (agree : ∀ rule ∈ rules, ∀ d : Diagnostic, d.code = rule.code → d.rule = rule.name → keep d = keepRule rule)
    (id : NodeId) :
    unit.reportAt v (rules.filter keepRule) id = (unit.reportAt v rules id).filter keep := by
  unfold CompilationUnit.reportAt
  induction rules with
  | nil => rfl
  | cons rule rules ih =>
      have rest := ih fun other member => agree other (List.mem_cons_of_mem _ member)
      have own := Rule.filter_diagnostics (agree rule List.mem_cons_self) unit (rule.findings ⟨unit, v, id⟩)
      by_cases watches : unit.isWatchedBy id rule
      · rw [List.filter_cons_of_pos watches, List.flatMap_cons, List.filter_append, own, ← rest]
        by_cases kept : keepRule rule
        · rw [List.filter_cons_of_pos kept, List.filter_cons_of_pos watches, List.flatMap_cons, if_pos kept]
        · rw [List.filter_cons_of_neg kept, if_neg kept, List.nil_append]
      · rw [List.filter_cons_of_neg watches, ← rest]
        by_cases kept : keepRule rule
        · rw [List.filter_cons_of_pos kept, List.filter_cons_of_neg watches]
        · rw [List.filter_cons_of_neg kept]

theorem walk_filter (unit : CompilationUnit) (v : Vocabulary) {rules : List Rule} {keepRule : Rule → Bool}
    {keep : Diagnostic → Bool}
    (agree : ∀ rule ∈ rules, ∀ d : Diagnostic, d.code = rule.code → d.rule = rule.name → keep d = keepRule rule) :
    walk unit v (rules.filter keepRule) = (walk unit v rules).filter keep := by
  rw [walk_eq_visited, walk_eq_visited, List.filter_flatMap]
  exact List.flatMap_congr fun id _ => reportAt_filter unit v agree id

open Rule (catalogue)

namespace Settings

def presetCodes (name : String) : List String :=
  if name = "recommended" then ["ML001", "ML002", "ML003", "ML004", "ML005", "ML006", "ML007"]
  else if name = "errors-only" then ["ML002", "ML003", "ML007"]
  else []

/-- Is a rule asked for, by name or code, or does it belong to the preset when there is no filter? Settings that name
no preset have the recommended one. -/
def asksFor (settings : Settings) (filter : Option (List String)) (name code : String) : Bool :=
  match filter with
  | some wanted => wanted.contains name || wanted.contains code
  | none => (presetCodes (settings.preset.getD "recommended")).contains code

def disables (settings : Settings) (name : String) : Bool :=
  (settings.rules.get? name).any (·.enabled == some false)

def regraded (settings : Settings) (d : Diagnostic) : Diagnostic :=
  { d with severity := ((settings.rules.get? d.rule).bind (·.severity)).getD d.severity }

theorem isRuleEnabled_eq (settings : Settings) (name : String) :
    settings.isRuleEnabled name = !settings.disables name := by
  unfold isRuleEnabled disables
  cases settings.rules.get? name with
  | none => rfl
  | some rule =>
      obtain ⟨enabled, severity⟩ := rule
      cases enabled with
      | none => rfl
      | some enabled => cases enabled <;> rfl

theorem regrade_eq (settings : Settings) (d : Diagnostic) : Analyzer.regrade settings d = settings.regraded d := by
  unfold Analyzer.regrade regraded ruleSeverity?
  cases (settings.rules.get? d.rule).bind (·.severity) <;> rfl

theorem preset_rules_eq {name : String} {preset : Rule.Preset} (named : Rule.Preset.ofName? name = some preset) :
    preset.rules = catalogue.filter fun rule => (presetCodes name).contains rule.code := by
  unfold Rule.Preset.ofName? at named
  split at named
  · rename_i recommended
    cases named
    subst recommended
    rfl
  · split at named
    · rename_i errorsOnly
      cases named
      subst errorsOnly
      rfl
    · cases named

theorem isWantedBy_eq (rule : Rule) (wanted : List String) :
    rule.isWantedBy wanted = (wanted.contains rule.name || wanted.contains rule.code) := by
  unfold Rule.isWantedBy
  induction wanted with
  | nil => rfl
  | cons entry rest ih =>
      simp only [List.any_cons, List.contains_cons, ih]
      cases rule.name == entry <;> cases rule.code == entry <;> simp

theorem preset?_eq_none {settings : Settings} :
    settings.preset? = none ↔ ∃ name, settings.preset = some name ∧ name ≠ "recommended" ∧ name ≠ "errors-only" := by
  unfold preset? presetName Rule.Preset.ofName?
  cases settings.preset with
  | none => simp
  | some name =>
      by_cases recommended : name = "recommended"
      · simp [recommended]
      · by_cases errorsOnly : name = "errors-only" <;> simp [recommended, errorsOnly]

theorem selectRules_eq (settings : Settings) (filter : Option (List String)) :
    settings.selectRules filter =
      if filter = none ∧ settings.preset? = none then .error (.unknownPreset settings.presetName)
      else .ok (catalogue.filter fun rule => settings.asksFor filter rule.name rule.code) := by
  cases filter with
  | some wanted => simp [selectRules, asksFor, isWantedBy_eq]
  | none =>
      unfold selectRules resolvePreset asksFor
      cases found : settings.preset? with
      | none => simp [Except.map]
      | some preset => simp [Except.map, preset_rules_eq found, presetName]

end Settings

namespace Analyzer

theorem build_eq_error {settings : Settings} {filter : Option (List String)} {error : SetupError} :
    build settings filter = .error error ↔
      filter = none ∧ ∃ name, settings.preset = some name ∧ name ≠ "recommended" ∧ name ≠ "errors-only" ∧
        error = .unknownPreset name := by
  have message {name : String} (given : settings.preset = some name) : settings.presetName = name := by
    simp [Settings.presetName, given]
  rw [build, Settings.selectRules_eq]
  split
  · rename_i unknown
    obtain ⟨noFilter, noPreset⟩ := unknown
    obtain ⟨name, given, rest⟩ := Settings.preset?_eq_none.mp noPreset
    simp [Except.map, message given, noFilter, given, rest, eq_comm]
  · rename_i known
    simp only [Except.map, reduceCtorEq, false_iff]
    rintro ⟨noFilter, name, given, notRecommended, notErrorsOnly, -⟩
    exact known ⟨noFilter, Settings.preset?_eq_none.mpr ⟨name, given, notRecommended, notErrorsOnly⟩⟩

theorem build_eq_ok {settings : Settings} {filter : Option (List String)} {analyzer : Analyzer}
    (built : build settings filter = .ok analyzer) :
    analyzer = ⟨catalogue.filter fun rule => settings.asksFor filter rule.name rule.code, settings⟩ := by
  rw [build, Settings.selectRules_eq] at built
  split at built
  · simp [Except.map] at built
  · simpa [Except.map, eq_comm] using built

theorem analyze_eq_filter {settings : Settings} {filter : Option (List String)} {analyzer : Analyzer}
    (built : build settings filter = .ok analyzer) (unit : CompilationUnit) :
    analyzer.analyze unit =
      ((walk unit settings.vocabulary catalogue).filter fun d =>
        settings.asksFor filter d.rule d.code && !settings.disables d.rule).map settings.regraded := by
  obtain rfl := build_eq_ok built
  have agree : ∀ rule ∈ catalogue, ∀ d : Diagnostic, d.code = rule.code → d.rule = rule.name →
      (settings.asksFor filter d.rule d.code && !settings.disables d.rule) =
        (!settings.disables rule.name && settings.asksFor filter rule.name rule.code) := by
    intro rule _ d code name
    rw [code, name, Bool.and_comm]
  simp only [analyze, List.filter_filter, Settings.isRuleEnabled_eq]
  rw [walk_filter unit settings.vocabulary agree]
  exact List.map_congr_left fun d _ => settings.regrade_eq d

theorem build_congr (settings : Settings) {wanted other : List String}
    (same : ∀ rule ∈ catalogue, ∀ entry ∈ [rule.name, rule.code], entry ∈ wanted ↔ entry ∈ other) :
    build settings (some wanted) = build settings (some other) := by
  have selection : (catalogue.filter fun rule => settings.asksFor (some wanted) rule.name rule.code) =
      catalogue.filter fun rule => settings.asksFor (some other) rule.name rule.code := by
    refine List.filter_congr fun rule member => ?_
    have name := same rule member rule.name (by simp)
    have code := same rule member rule.code (by simp)
    simp [Settings.asksFor, name, code]
  rw [build, build, Settings.selectRules_eq, Settings.selectRules_eq, selection]
  rfl

end Analyzer

/-- Settings and filters only select and re-grade: an analysis is the walk with all seven rules, less the diagnostics
of rules that are not selected or are switched off, with severities replaced. Of a filter only the names and codes of
rules matter. -/
theorem analyze_selects_and_regrades (settings : Settings) :
    catalogue.map (fun rule => (rule.code, rule.name)) =
      [("ML001", "missing-mock-annotation"), ("ML002", "dangling-mock-annotation"), ("ML003", "private-mock-method"),
        ("ML004", "missing-get-instance-call"), ("ML005", "unused-mock-instance"),
        ("ML006", "non-interface-get-instance"), ("ML007", "self-invocation-not-reentrant")] ∧
    (∀ filter error, Analyzer.build settings filter = .error error ↔
      filter = none ∧ ∃ name, settings.preset = some name ∧ name ≠ "recommended" ∧ name ≠ "errors-only" ∧
        error = .unknownPreset name) ∧
    (∀ filter analyzer unit, Analyzer.build settings filter = .ok analyzer →
      analyzer.analyze unit =
        ((walk unit settings.vocabulary catalogue).filter fun d =>
          settings.asksFor filter d.rule d.code && !settings.disables d.rule).map settings.regraded) ∧
    (∀ wanted other : List String,
      (∀ rule ∈ catalogue, ∀ entry ∈ [rule.name, rule.code], entry ∈ wanted ↔ entry ∈ other) →
      Analyzer.build settings (some wanted) = Analyzer.build settings (some other)) := by
  exact ⟨rfl, fun _ _ => Analyzer.build_eq_error, fun _ _ unit built => Analyzer.analyze_eq_filter built unit,
    fun _ _ same => Analyzer.build_congr settings same⟩

/-- A mock of an interface that breaks five rules: nobody asks for its instance, `pay` is private and calls itself,
`add` marks nothing real and `sum` lacks its marker. -/
def untidyMock : Draft where
  path := "CartTest.java"
  source := some ("new MockUp<Cart>() \x7b @Mock private void pay() \x7b it.pay(); \x7d " ++
    "@Mock void add() \x7b \x7d void sum() \x7b \x7d \x7d")
  nodes := #[⟨.compilationUnit, ⟨0, 97⟩, [⟨1⟩]⟩, ⟨.creation ⟨2⟩ (some ⟨3⟩), ⟨0, 97⟩, [⟨2⟩, ⟨3⟩]⟩,
    ⟨.typeRef (some ⟨0⟩), ⟨4, 12⟩, []⟩, ⟨.anonymousClass (some ⟨1⟩), ⟨19, 78⟩, [⟨4⟩, ⟨9⟩, ⟨11⟩]⟩,
    ⟨.methodDecl ⟨5⟩ (some ⟨0⟩), ⟨21, 38⟩, [⟨5⟩, ⟨6⟩]⟩, ⟨.simpleName "pay" none, ⟨40, 3⟩, []⟩,
    ⟨.call ⟨8⟩ (some ⟨7⟩) (some ⟨3⟩) none, ⟨48, 8⟩, [⟨7⟩, ⟨8⟩]⟩,
    ⟨.simpleName "it" (some (.var ⟨0⟩)), ⟨48, 2⟩, []⟩, ⟨.simpleName "pay" none, ⟨51, 3⟩, []⟩,
    ⟨.methodDecl ⟨10⟩ (some ⟨1⟩), ⟨60, 20⟩, [⟨10⟩]⟩, ⟨.simpleName "add" none, ⟨71, 3⟩, []⟩,
    ⟨.methodDecl ⟨12⟩ (some ⟨2⟩), ⟨81, 14⟩, [⟨12⟩]⟩, ⟨.simpleName "sum" none, ⟨86, 3⟩, []⟩]
  symbols :=
    { types := #[{ name := "MockUp", qualifiedName := "mockit.MockUp", typeArguments := [⟨2⟩] },
        { name := "", qualifiedName := "", superclass := some ⟨0⟩ },
        { name := "Cart", qualifiedName := "shop.Cart", isInterface := true, methods := [⟨3⟩, ⟨4⟩] }]
      methods := #[{ name := "pay", declaringType := ⟨1⟩, modifiers := [.isPrivate],
                     annotations := [{ typeName := "mockit.Mock" }] },
        { name := "add", declaringType := ⟨1⟩, annotations := [{ typeName := "mockit.Mock" }] },
        { name := "sum", declaringType := ⟨1⟩ }, { name := "pay", declaringType := ⟨2⟩ },
        { name := "sum", declaringType := ⟨2⟩ }]
      fields := #[⟨"it", some ⟨1⟩, some ⟨2⟩, true⟩] }

def lenient : Settings where
  preset := some "errors-only"
  rules := .ofList [("private-mock-method", { enabled := some false }),
    ("dangling-mock-annotation", { severity := some .warning })]

/-- The preset leaves three of five diagnostics and the settings two of them, one with another severity. A filter
overrides the preset, but not the settings. -/
theorem analyze_selects_and_regrades_untidyMock : ∃ unit preset filtered, untidyMock.validate = .ok unit ∧
    (walk unit {} catalogue).map (fun d => (d.code, d.severity)) =
      [("ML004", .warning), ("ML003", .error), ("ML007", .error), ("ML002", .error), ("ML001", .warning)] ∧
    Analyzer.build lenient none = .ok preset ∧
    (preset.analyze unit).map (fun d => (d.code, d.severity)) = [("ML007", .error), ("ML002", .warning)] ∧
    Analyzer.build lenient (some ["ML004", "ML003", "ML000", "ML004", "dangling-mock-annotation"]) = .ok filtered ∧
    Analyzer.build lenient (some ["dangling-mock-annotation", "ML003", "ML004"]) = .ok filtered ∧
    (filtered.analyze unit).map (fun d => (d.code, d.severity)) = [("ML004", .warning), ("ML002", .warning)] ∧
    Analyzer.build { lenient with preset := some "strict" } none = .error (.unknownPreset "strict") := by
  obtain ⟨unit, valid, seen⟩ := Draft.exists_of_validate_map (show (untidyMock.validate.map fun unit =>
    ((walk unit {} catalogue).map (fun d => (d.code, d.severity)),
      (((walk unit {} catalogue).filter fun d =>
        lenient.asksFor none d.rule d.code && !lenient.disables d.rule).map lenient.regraded).map
          (fun d => (d.code, d.severity)),
      (((walk unit {} catalogue).filter fun d =>
        lenient.asksFor (some ["ML004", "ML003", "ML000", "ML004", "dangling-mock-annotation"]) d.rule d.code &&
          !lenient.disables d.rule).map lenient.regraded).map (fun d => (d.code, d.severity)))) =
    .ok ([("ML004", .warning), ("ML003", .error), ("ML007", .error), ("ML002", .error), ("ML001", .warning)],
      [("ML007", .error), ("ML002", .warning)], [("ML004", .warning), ("ML002", .warning)]) by decide +kernel)
  simp only [Prod.mk.injEq] at seen
  obtain ⟨every, byPreset, byFilter⟩ := seen
  obtain ⟨-, -, analyzed, congr⟩ := analyze_selects_and_regrades lenient
  refine ⟨unit, _, _, valid, every, rfl, ?_, rfl, ?_, ?_, ?_⟩
  · rw [analyzed none _ unit rfl]
    exact byPreset
  · exact (congr _ ["ML004", "ML003", "ML000", "ML004", "dangling-mock-annotation"] (by decide)).trans rfl
  · rw [analyzed (some ["ML004", "ML003", "ML000", "ML004", "dangling-mock-annotation"]) _ unit rfl]
    exact byFilter
  · exact ((analyze_selects_and_regrades _).2.1 none _).mpr ⟨rfl, "strict", rfl, by decide, by decide, rfl⟩

end MockAudit
