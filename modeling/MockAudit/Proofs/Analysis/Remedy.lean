import MockAudit.Proofs.Analysis.Selection
import MockAudit.Proofs.Idiom.Site
import MockAudit.Proofs.Rule.Decoration
import MockAudit.Proofs.Unit.Transcript
import MockAudit.Proofs.Unit.Validation

namespace MockAudit

/-! ## Changing a method -/

theorem find?_insertEntry {β : Type} (key : String) (value : β) (entries : List (String × β)) :
    (insertEntry key value entries).find? (fun entry => entry.1 == key) = some (key, value) := by
  induction entries with
  | nil => simp [insertEntry]
  | cons head rest ih =>
      obtain ⟨k, v⟩ := head
      rw [insertEntry]
      split
      · simp
      · split
        · simp
        · rename_i different
          have unlike : (k == key) = false := beq_eq_false_iff_ne.mpr (Ne.symm different)
          simp only [List.find?_cons, unlike, ih]

def AnnotationUse.permitting (v : Vocabulary) (marking : AnnotationUse) : AnnotationUse :=
  { marking with attributes := marking.attributes.insert v.reentrancy (.bool true) }

theorem AnnotationUse.bool?_permitting (v : Vocabulary) (marking : AnnotationUse) :
    (marking.permitting v).bool? v.reentrancy = some true := by
  simp [bool?, permitting, Dictionary.get?, Dictionary.insert, find?_insertEntry]

def permitFirst (v : Vocabulary) : List AnnotationUse → List AnnotationUse
  | [] => []
  | marking :: rest =>
      if marking.typeName = v.marker then marking.permitting v :: rest else marking :: permitFirst v rest

theorem map_plain_permitFirst (v : Vocabulary) (markings : List AnnotationUse) :
    (permitFirst v markings).map AnnotationUse.plain = markings.map AnnotationUse.plain := by
  induction markings with
  | nil => rfl
  | cons marking rest ih =>
      rw [permitFirst]
      split
      · rfl
      · rw [List.map_cons, ih, List.map_cons]

theorem find?_permitFirst (v : Vocabulary) (markings : List AnnotationUse) :
    (permitFirst v markings).find? (fun marking => marking.typeName == v.marker) =
      (markings.find? fun marking => marking.typeName == v.marker).map (AnnotationUse.permitting v) := by
  induction markings with
  | nil => rfl
  | cons marking rest ih =>
      rw [permitFirst]
      by_cases marks : marking.typeName = v.marker
      · simp [marks, AnnotationUse.permitting]
      · simp [marks, ih]

namespace MethodBinding

def permitting (v : Vocabulary) (method : MethodBinding) : MethodBinding :=
  { method with annotations := permitFirst v method.annotations }

def exposed (method : MethodBinding) : MethodBinding :=
  { method with modifiers := method.modifiers.filter (· ≠ .isPrivate) }

theorem plain_permitting (v : Vocabulary) (method : MethodBinding) : (method.permitting v).plain = method.plain := by
  simp [plain, permitting, map_plain_permitFirst]

theorem plain_exposed (method : MethodBinding) : method.exposed.plain = method.plain := rfl

theorem markingOf?_permitting (v : Vocabulary) (method : MethodBinding) :
    (method.permitting v).markingOf? v.marker = (method.markingOf? v.marker).map (AnnotationUse.permitting v) :=
  find?_permitFirst v method.annotations

theorem isPrivate_exposed (method : MethodBinding) : method.exposed.isPrivate = false := by
  simp [isPrivate, exposed]

end MethodBinding

namespace Symbols

variable {symbols : Symbols} {v : Vocabulary} {change : MethodBinding → MethodBinding}

def changing (symbols : Symbols) (method : MethodId) (change : MethodBinding → MethodBinding) : Symbols :=
  { symbols with methods := method.update symbols.methods change }

theorem method?_changing (method other : MethodId) : (symbols.changing method change).method? other =
    if other = method then (symbols.method? other).map change else symbols.method? other := Ref.resolve_update

theorem plain_changing (kept : ∀ binding, (change binding).plain = binding.plain) (method : MethodId) :
    (symbols.changing method change).plain = symbols.plain := by
  have same : (method.update symbols.methods change).map MethodBinding.plain =
      symbols.methods.map MethodBinding.plain := by
    apply Array.ext_getElem?
    intro index
    rw [Array.getElem?_map, Array.getElem?_map, Ref.update, Array.getElem?_modify]
    split
    · cases symbols.methods[index]? <;> simp [kept]
    · rfl
  rw [plain, changing, same, plain]

theorem isReentrant_permitting (method other : MethodId) :
    (symbols.changing method (·.permitting v)).isReentrant v other =
      if other = method then symbols.isMockMethod v other else symbols.isReentrant v other := by
  rw [isReentrant, marker?, method?_changing, isMockMethod, isReentrant, marker?]
  split
  · cases symbols.method? other with
    | none => rfl
    | some binding =>
        simp only [Option.map_some, Option.bind_some, MethodBinding.markingOf?_permitting]
        cases binding.markingOf? v.marker <;> simp [AnnotationUse.bool?_permitting]
  · rfl

theorem any_isPrivate_permitting (method other : MethodId) :
    ((symbols.changing method (·.permitting v)).method? other).any (·.isPrivate) =
      (symbols.method? other).any (·.isPrivate) := by
  rw [method?_changing]
  split
  · cases symbols.method? other <;> rfl
  · rfl

theorem any_isPrivate_exposing (method other : MethodId) :
    ((symbols.changing method MethodBinding.exposed).method? other).any (·.isPrivate) =
      if other = method then false else (symbols.method? other).any (·.isPrivate) := by
  rw [method?_changing]
  split
  · cases symbols.method? other <;> simp [MethodBinding.isPrivate_exposed]
  · rfl

theorem isReentrant_exposing (method other : MethodId) :
    (symbols.changing method MethodBinding.exposed).isReentrant v other = symbols.isReentrant v other := by
  rw [isReentrant, marker?, method?_changing, isReentrant, marker?]
  split
  · cases symbols.method? other <;> rfl
  · rfl

end Symbols

/-! ## Reports -/

namespace CompilationUnit

variable {unit : CompilationUnit} {v : Vocabulary} {rules : List Rule} {symbols : Symbols}

def reports (unit : CompilationUnit) (v : Vocabulary) (rules : List Rule) : List (NodeId × Diagnostic) :=
  (unit.preorder.filter (unit.isVisited v)).flatMap fun id => (unit.reportAt v rules id).map (id, ·)

theorem walk_eq_reports (unit : CompilationUnit) (v : Vocabulary) (rules : List Rule) :
    walk unit v rules = (unit.reports v rules).map (·.2) := by
  rw [walk_eq_visited, reports, List.map_flatMap]
  simp [Function.comp_def]

theorem isVisited_withSymbols (unit : CompilationUnit) (symbols : Symbols) :
    (unit.withSymbols symbols).isVisited v = unit.isVisited v := by
  have opening : (unit.withSymbols symbols).openingImport? v = unit.openingImport? v := by
    simp only [openingImport?, preorder_withSymbols, ancestors_withSymbols]
    rfl
  have order (first second : NodeId) :
      (unit.withSymbols symbols).Precedes first second ↔ unit.Precedes first second := by
    rw [Precedes, preorder_withSymbols, Precedes]
  have opened : (unit.withSymbols symbols).isOpened v = unit.isOpened v := by
    funext id
    simp only [isOpened, opening, order]
  funext id
  rw [isVisited, ancestors_withSymbols, opened]
  rfl

theorem reportAt_withSymbols {id : NodeId} (cleared : String → Prop) [DecidablePred cleared]
    (effect : ∀ rule ∈ rules, rule.findings ⟨unit.withSymbols symbols, v, id⟩ =
      if cleared rule.code then [] else rule.findings ⟨unit, v, id⟩) :
    (unit.withSymbols symbols).reportAt v rules id = (unit.reportAt v rules id).filter fun d => ¬ cleared d.code := by
  unfold reportAt
  rw [List.filter_flatMap]
  apply List.flatMap_congr
  intro rule member
  have agree : ∀ d : Diagnostic, d.code = rule.code → d.rule = rule.name →
      decide (¬ cleared d.code) = decide (¬ cleared rule.code) := fun d code _ => by rw [code]
  rw [Rule.filter_diagnostics agree, effect rule (List.mem_of_mem_filter member)]
  by_cases clears : cleared rule.code
  · simp [clears]
  · simp only [clears, if_false, not_false_eq_true, decide_true, if_true]
    rfl

theorem reports_withSymbols (cleared : NodeId → String → Prop) [∀ id, DecidablePred (cleared id)]
    (effect : ∀ rule ∈ rules, ∀ id, rule.findings ⟨unit.withSymbols symbols, v, id⟩ =
      if cleared id rule.code then [] else rule.findings ⟨unit, v, id⟩) :
    (unit.withSymbols symbols).reports v rules =
      (unit.reports v rules).filter fun (trigger, d) => ¬ cleared trigger d.code := by
  rw [reports, preorder_withSymbols, isVisited_withSymbols, reports, List.filter_flatMap]
  apply List.flatMap_congr
  intro id _
  rw [reportAt_withSymbols (cleared id) fun rule member => effect rule member id, List.filter_map]
  rfl

/-! ## Remedies -/

def permitting (unit : CompilationUnit) (v : Vocabulary) (method : MethodId) : CompilationUnit :=
  unit.withSymbols (unit.symbols.changing method (·.permitting v))

def exposing (unit : CompilationUnit) (method : MethodId) : CompilationUnit :=
  unit.withSymbols (unit.symbols.changing method MethodBinding.exposed)

end CompilationUnit

namespace Site

theorem enclosingMock?_congr {site other : Site} (plain : other.plain = site.plain) :
    other.enclosingMock? = site.enclosingMock? := by
  rw [← enclosingMock?_plain, plain, enclosingMock?_plain]

variable {unit : CompilationUnit} {v : Vocabulary}

theorem plain_changing {change : MethodBinding → MethodBinding}
    (kept : ∀ binding, (change binding).plain = binding.plain) (method : MethodId) (id : NodeId) :
    plain ⟨unit.withSymbols (unit.symbols.changing method change), v, id⟩ = plain ⟨unit, v, id⟩ := by
  have same : (unit.symbols.changing method change).plain = unit.symbols.plain := Symbols.plain_changing kept method
  exact congrArg (fun symbols => Site.mk (unit.withSymbols symbols) v id) same

theorem plain_permitting (method : MethodId) (id : NodeId) :
    plain ⟨unit.permitting v method, v, id⟩ = plain ⟨unit, v, id⟩ :=
  plain_changing (MethodBinding.plain_permitting v) method id

theorem plain_exposing (method : MethodId) (id : NodeId) :
    plain ⟨unit.exposing method, v, id⟩ = plain ⟨unit, v, id⟩ := plain_changing MethodBinding.plain_exposed method id

theorem forbidsReentry_permitting (method : MethodId) (id : NodeId) :
    forbidsReentry ⟨unit.permitting v method, v, id⟩ =
      (forbidsReentry ⟨unit, v, id⟩ && !decide (InMethod ⟨unit, v, id⟩ (some method))) := by
  unfold forbidsReentry
  rw [enclosingMock?_congr (plain_permitting method id)]
  cases enclosing : enclosingMock? ⟨unit, v, id⟩ with
  | none => rfl
  | some other =>
      obtain ⟨within, marked⟩ := enclosingMock?_eq_some.mp enclosing
      have reentrant : (unit.permitting v method).symbols.isReentrant v other = _ :=
        Symbols.isReentrant_permitting method other
      change (!(unit.permitting v method).symbols.isReentrant v other) = (!unit.symbols.isReentrant v other && _)
      rw [reentrant]
      by_cases same : other = method
      · have allowed : unit.symbols.isMockMethod v other = true := marked
        simp [allowed, ← same, within]
      · have outside : ¬ InMethod ⟨unit, v, id⟩ (some method) := fun around =>
          same (Option.some.inj (within.unique around))
        simp [same, outside]

theorem declaresPrivate_permitting (method : MethodId) (id : NodeId) :
    declaresPrivate ⟨unit.permitting v method, v, id⟩ = declaresPrivate ⟨unit, v, id⟩ :=
  congrArg (fun isPrivate => (declaredMethod? ⟨unit, v, id⟩).any isPrivate)
    (funext fun other => Symbols.any_isPrivate_permitting method other)

theorem forbidsReentry_exposing (method : MethodId) (id : NodeId) :
    forbidsReentry ⟨unit.exposing method, v, id⟩ = forbidsReentry ⟨unit, v, id⟩ := by
  have reentrant : (unit.exposing method).symbols.isReentrant v = unit.symbols.isReentrant v :=
    funext fun other => Symbols.isReentrant_exposing method other
  unfold forbidsReentry
  rw [enclosingMock?_congr (plain_exposing method id)]
  exact congrArg (fun allows => (enclosingMock? ⟨unit, v, id⟩).any fun other => !allows other) reentrant

theorem declaresPrivate_exposing (method : MethodId) (id : NodeId) :
    declaresPrivate ⟨unit.exposing method, v, id⟩ =
      (declaresPrivate ⟨unit, v, id⟩ && !decide (declaredMethod? ⟨unit, v, id⟩ = some method)) := by
  have declared : declaredMethod? ⟨unit.exposing method, v, id⟩ = declaredMethod? ⟨unit, v, id⟩ := rfl
  unfold declaresPrivate
  rw [declared]
  cases declaredMethod? ⟨unit, v, id⟩ with
  | none => rfl
  | some other =>
      have exposed : ((unit.exposing method).symbols.method? other).any (·.isPrivate) = _ :=
        Symbols.any_isPrivate_exposing method other
      change ((unit.exposing method).symbols.method? other).any (·.isPrivate) =
        ((unit.symbols.method? other).any (·.isPrivate) && _)
      rw [exposed]
      by_cases same : other = method <;> simp [same]

end Site

namespace Rule

variable {unit : CompilationUnit} {v : Vocabulary} {rule : Rule}

theorem IsBuiltIn.findings_permitting (builtIn : rule.IsBuiltIn) (method : MethodId) (id : NodeId) :
    rule.findings ⟨unit.permitting v method, v, id⟩ =
      if rule.code = "ML007" ∧ Site.InMethod ⟨unit, v, id⟩ (some method) then [] else rule.findings ⟨unit, v, id⟩ := by
  split
  · rename_i cleared
    exact builtIn.findings_of_permitted cleared.1 (by simp [Site.forbidsReentry_permitting, cleared.2])
  · rename_i kept
    refine builtIn.findings_congr (Site.plain_permitting method id)
      (fun _ => Site.declaresPrivate_permitting method id) fun coded => ?_
    have outside : ¬ Site.InMethod ⟨unit, v, id⟩ (some method) := fun within => kept ⟨coded, within⟩
    simp [Site.forbidsReentry_permitting, outside]

theorem IsBuiltIn.findings_exposing (builtIn : rule.IsBuiltIn) (method : MethodId) (id : NodeId) :
    rule.findings ⟨unit.exposing method, v, id⟩ =
      if rule.code = "ML003" ∧ Site.declaredMethod? ⟨unit, v, id⟩ = some method then []
      else rule.findings ⟨unit, v, id⟩ := by
  split
  · rename_i cleared
    exact builtIn.findings_of_exposed cleared.1 (by simp [Site.declaresPrivate_exposing, cleared.2])
  · rename_i kept
    refine builtIn.findings_congr (Site.plain_exposing method id) (fun coded => ?_)
      fun _ => Site.forbidsReentry_exposing method id
    have elsewhere : Site.declaredMethod? ⟨unit, v, id⟩ ≠ some method := fun declares => kept ⟨coded, declares⟩
    simp [Site.declaresPrivate_exposing, elsewhere]

end Rule

/-- Each of the two changes clears the reports that suggest it, for that method, in whatever bodies and calls share it.
All other diagnostics stay, in the same order, and none is added. -/
theorem remedies_repair_reports (unit : CompilationUnit) (v : Vocabulary) (method : MethodId) {rules : List Rule}
    (builtIn : ∀ rule ∈ rules, rule.IsBuiltIn) :
    walk unit v rules = (unit.reports v rules).map (·.2) ∧
    walk (unit.permitting v method) v rules =
      ((unit.reports v rules).filter fun (trigger, d) =>
        ¬ (d.code = "ML007" ∧ Site.InMethod ⟨unit, v, trigger⟩ (some method))).map (·.2) ∧
    walk (unit.exposing method) v rules =
      ((unit.reports v rules).filter fun (trigger, d) =>
        ¬ (d.code = "ML003" ∧ Site.declaredMethod? ⟨unit, v, trigger⟩ = some method)).map (·.2) := by
  refine ⟨unit.walk_eq_reports v rules, ?_, ?_⟩
  · rw [CompilationUnit.walk_eq_reports]
    apply congrArg (List.map Prod.snd)
    exact CompilationUnit.reports_withSymbols
      (fun trigger code => code = "ML007" ∧ Site.InMethod ⟨unit, v, trigger⟩ (some method))
      fun rule member id => (builtIn rule member).findings_permitting method id
  · rw [CompilationUnit.walk_eq_reports]
    apply congrArg (List.map Prod.snd)
    exact CompilationUnit.reports_withSymbols
      (fun trigger code => code = "ML003" ∧ Site.declaredMethod? ⟨unit, v, trigger⟩ = some method)
      fun rule member id => (builtIn rule member).findings_exposing method id

/-- Two private mock methods that call themselves. The first one carries two markers, of which the first forbids
reentrant calls, and is declared once more at the end. -/
def privateMocks : Draft where
  path := "CartTest.java"
  source := some ("new MockUp<Cart>() \x7b @Mock private void pay() { it.pay(); } " ++
    "@Mock private void sum() { it.sum(); } private void pay() { } \x7d")
  nodes := #[⟨.compilationUnit, ⟨0, 123⟩, [⟨1⟩]⟩, ⟨.anonymousClass (some ⟨1⟩), ⟨19, 104⟩, [⟨2⟩, ⟨7⟩, ⟨12⟩]⟩,
    ⟨.methodDecl ⟨3⟩ (some ⟨0⟩), ⟨21, 38⟩, [⟨3⟩, ⟨4⟩]⟩, ⟨.simpleName "pay" none, ⟨40, 3⟩, []⟩,
    ⟨.call ⟨6⟩ (some ⟨5⟩) (some ⟨1⟩) none, ⟨48, 8⟩, [⟨5⟩, ⟨6⟩]⟩,
    ⟨.simpleName "it" (some (.var ⟨0⟩)), ⟨48, 2⟩, []⟩, ⟨.simpleName "pay" none, ⟨51, 3⟩, []⟩,
    ⟨.methodDecl ⟨8⟩ (some ⟨2⟩), ⟨60, 38⟩, [⟨8⟩, ⟨9⟩]⟩, ⟨.simpleName "sum" none, ⟨79, 3⟩, []⟩,
    ⟨.call ⟨11⟩ (some ⟨10⟩) (some ⟨3⟩) none, ⟨87, 8⟩, [⟨10⟩, ⟨11⟩]⟩,
    ⟨.simpleName "it" (some (.var ⟨0⟩)), ⟨87, 2⟩, []⟩, ⟨.simpleName "sum" none, ⟨90, 3⟩, []⟩,
    ⟨.methodDecl ⟨13⟩ (some ⟨0⟩), ⟨99, 22⟩, [⟨13⟩]⟩, ⟨.simpleName "pay" none, ⟨112, 3⟩, []⟩]
  symbols :=
    { types := #[{ name := "MockUp", qualifiedName := "mockit.MockUp", typeArguments := [⟨2⟩] },
        { name := "", qualifiedName := "", superclass := some ⟨0⟩ },
        { name := "Cart", qualifiedName := "shop.Cart", methods := [⟨1⟩, ⟨3⟩] }]
      methods := #[{ name := "pay", declaringType := ⟨1⟩, modifiers := [.isPrivate, .isFinal, .isPrivate],
                     annotations := [⟨"mockit.Mock", .ofList [("reentrant", .bool false)]⟩, ⟨"mockit.Mock", .empty⟩] },
        { name := "pay", declaringType := ⟨2⟩ },
        { name := "sum", declaringType := ⟨1⟩, modifiers := [.isPrivate], annotations := [⟨"mockit.Mock", .empty⟩] },
        { name := "sum", declaringType := ⟨2⟩ }]
      fields := #[⟨"it", some ⟨1⟩, some ⟨2⟩, true⟩] }

theorem remedies_repair_reports_privateMocks : ∃ unit, privateMocks.validate = .ok unit ∧
    (walk unit {} Rule.catalogue).map (fun d => (d.code, d.location.column)) =
      [("ML003", 41), ("ML007", 49), ("ML003", 80), ("ML007", 88), ("ML003", 113)] ∧
    (walk (unit.permitting {} ⟨0⟩) {} Rule.catalogue).map (fun d => (d.code, d.location.column)) =
      [("ML003", 41), ("ML003", 80), ("ML007", 88), ("ML003", 113)] ∧
    (walk (unit.exposing ⟨0⟩) {} Rule.catalogue).map (fun d => (d.code, d.location.column)) =
      [("ML007", 49), ("ML003", 80), ("ML007", 88)] ∧
    (∀ rule ∈ Rule.catalogue, rule.IsBuiltIn) ∧
    walk (unit.permitting {} ⟨0⟩) {} Rule.catalogue =
      ((unit.reports {} Rule.catalogue).filter fun (trigger, d) =>
        ¬ (d.code = "ML007" ∧ Site.InMethod ⟨unit, {}, trigger⟩ (some ⟨0⟩))).map (·.2) ∧
    walk (unit.exposing ⟨0⟩) {} Rule.catalogue =
      ((unit.reports {} Rule.catalogue).filter fun (trigger, d) =>
        ¬ (d.code = "ML003" ∧ Site.declaredMethod? ⟨unit, {}, trigger⟩ = some ⟨0⟩)).map (·.2) := by
  obtain ⟨unit, valid, analysed⟩ := Draft.exists_of_validate_map (show (privateMocks.validate.map fun unit =>
    ((walk unit {} Rule.catalogue).map (fun d => (d.code, d.location.column)),
      (walk (unit.permitting {} ⟨0⟩) {} Rule.catalogue).map (fun d => (d.code, d.location.column)),
      (walk (unit.exposing ⟨0⟩) {} Rule.catalogue).map (fun d => (d.code, d.location.column)))) =
    .ok ([("ML003", 41), ("ML007", 49), ("ML003", 80), ("ML007", 88), ("ML003", 113)],
      [("ML003", 41), ("ML003", 80), ("ML007", 88), ("ML003", 113)],
      [("ML007", 49), ("ML003", 80), ("ML007", 88)]) by decide +kernel)
  simp only [Prod.mk.injEq] at analysed
  obtain ⟨before, permitted, exposed⟩ := analysed
  have builtIn : ∀ rule ∈ Rule.catalogue, rule.IsBuiltIn := fun _ => Rule.isBuiltIn_of_mem_catalogue
  obtain ⟨-, permits, exposes⟩ := remedies_repair_reports unit {} ⟨0⟩ builtIn
  exact ⟨unit, valid, before, permitted, exposed, builtIn, permits, exposes⟩

end MockAudit
