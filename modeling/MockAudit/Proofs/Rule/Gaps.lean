import MockAudit.Proofs.Idiom.Gaps
import MockAudit.Proofs.Rule.Declarations

namespace MockAudit

namespace Site

variable {site : Site} {target : TypeId}

def pruned (site : Site) : Site := { site with unit := { site.unit with symbols := site.unit.symbols.pruned } }

theorem enclosingType?_pruned (site : Site) : site.pruned.enclosingType? = site.enclosingType? := by
  have chain : site.pruned.unit.ancestors site.pruned.node = site.unit.ancestors site.node :=
    site.unit.ancestors_withSymbols site.unit.symbols.pruned site.node
  rw [enclosingType?, chain]
  rfl

theorem relevantType?_pruned (site : Site) : site.pruned.relevantType? = site.relevantType? := by
  have kind : site.pruned.kind? = site.kind? := rfl
  have created : site.pruned.createdType? = site.createdType? := rfl
  unfold relevantType?
  rw [kind, created, enclosingType?_pruned]

theorem target?_pruned (site : Site) : site.pruned.target? = site.target? := by
  have mocked : site.pruned.symbols.mockedTarget? site.pruned.vocabulary =
      site.symbols.mockedTarget? site.vocabulary := funext Symbols.mockedTarget?_pruned
  rw [target?, relevantType?_pruned, mocked, target?]

theorem defines_pruned (site : Site) (type : Option TypeId) : site.pruned.defines type = site.defines type := by
  cases type with
  | none => rfl
  | some type => exact congrArg Option.isSome (Symbols.mockBase?_pruned type)

theorem classification_pruned (site : Site) : site.pruned.classification = site.classification := by
  have kind : site.pruned.kind? = site.kind? := rfl
  unfold classification
  rw [kind, target?_pruned, enclosingType?_pruned]
  simp only [defines_pruned]
  rfl

theorem typeName_pruned (site : Site) (type : TypeId) : site.pruned.typeName type = site.typeName type := by
  have found : site.pruned.symbols.type? type = (site.symbols.type? type).map site.symbols.prune :=
    Symbols.type?_pruned type
  rw [typeName, found, typeName]
  cases site.symbols.type? type <;> rfl

theorem Mocks.knowsType (mocks : site.Mocks target) : site.symbols.knowsType target := by
  obtain ⟨body, kind, type, k, base, -, -, -, binding, mocked, -, -, resolved, -⟩ := mocks
  exact Option.isSome_of_eq_some resolved

end Site

namespace Rule

variable {site : Site}

theorem mockedDeclaration?_pruned (site : Site) : mockedDeclaration? site.pruned = mockedDeclaration? site := by
  have kind : site.pruned.kind? = site.kind? := rfl
  unfold mockedDeclaration?
  rw [kind, Site.classification_pruned]
  split
  · rename_i name method isDecl
    apply Option.map_congr
    intro target seen
    have mocks := (Site.classification_target_eq_some isDecl).mp seen
    have real := Symbols.realMethod?_pruned (v := site.vocabulary) mocks.knowsType method
    exact congrArg (MockedDeclaration.mk name method target) real
  · rfl

theorem findings_pruned (missing dangling hidden : Severity) :
    ∀ rule ∈ declarationRules missing dangling hidden, rule.findings site.pruned = rule.findings site := by
  have name : site.pruned.methodName? = site.methodName? := rfl
  have vocabulary : site.pruned.vocabulary = site.vocabulary := rfl
  have methods : site.pruned.symbols.method? = site.symbols.method? := rfl
  simp [declarationRules, missingMarker, danglingMarker, privateMock, mockedDeclaration?_pruned,
    Site.classification_pruned, Site.typeName_pruned, name, vocabulary, methods]

theorem exists_declares_of_danglingMarker {severity : Severity} (reported : (danglingMarker severity).findings site ≠ []) :
    ∃ name method target, Declares site name method target ∧ site.symbols.Marked site.vocabulary method ∧
      ¬ site.symbols.Matched site.vocabulary target method := by
  by_contra undecided
  push Not at undecided
  apply reported
  by_cases undeclared : ∀ name method target, ¬ Declares site name method target
  · have listed : danglingMarker severity ∈ declarationRules severity severity severity := by simp [declarationRules]
    exact findings_eq_nil_of_undeclared undeclared _ listed
  · push Not at undeclared
    obtain ⟨name, method, target, declares⟩ := undeclared
    exact (danglingMarker_reportsWhen severity declares).silent fun both =>
      both.2 (undecided name method target declares both.1)

/-- The rules find the same without the references that lead nowhere. Where a marked method is reported to have no
real method, it and the mocked type are resolved, but only what is left of the hierarchy after pruning need be. -/
theorem declarationRules_pass_over_gaps (site : Site) (missing dangling hidden : Severity) :
    (∀ rule ∈ declarationRules missing dangling hidden, rule.findings site.pruned = rule.findings site) ∧
    ((danglingMarker dangling).findings site ≠ [] →
      ∃ name method target, Declares site name method target ∧ site.symbols.knowsMethod method ∧
        site.symbols.knowsType target ∧ site.pruned.symbols.Complete target) := by
  refine ⟨findings_pruned missing dangling hidden, fun reported => ?_⟩
  obtain ⟨name, method, target, declares, ⟨binding, resolved, -⟩, -⟩ := exists_declares_of_danglingMarker reported
  have known := declares.mocks.knowsType
  exact ⟨name, method, target, declares, Option.isSome_of_eq_some resolved, known, Symbols.complete_pruned known⟩

def gappedCart : Draft where
  path := "CartTest.java"
  source := some "new MockUp<Cart>() { @Mock void pay() { } }"
  nodes := #[⟨.compilationUnit, ⟨0, 43⟩, [⟨1⟩]⟩, ⟨.anonymousClass (some ⟨1⟩), ⟨19, 24⟩, [⟨2⟩]⟩,
    ⟨.methodDecl ⟨3⟩ (some ⟨0⟩), ⟨21, 20⟩, [⟨3⟩]⟩, ⟨.simpleName "pay" none, ⟨32, 3⟩, []⟩]
  symbols :=
    { types := #[{ name := "MockUp", qualifiedName := "mockit.MockUp", typeArguments := [⟨2⟩] },
        { name := "", qualifiedName := "", superclass := some ⟨0⟩ },
        { name := "Cart", qualifiedName := "shop.Cart", superclass := some ⟨9⟩, interfaces := [⟨7⟩],
          erasure := some ⟨8⟩, methods := [⟨5⟩] }]
      methods := #[{ name := "pay", declaringType := ⟨1⟩, annotations := [{ typeName := "mockit.Mock" }] }] }

theorem exists_gappedCart : ∃ unit, gappedCart.validate = .ok unit ∧ Declares ⟨unit, {}, ⟨2⟩⟩ ⟨3⟩ ⟨0⟩ ⟨2⟩ ∧
    ((danglingMarker .error).findings ⟨unit, {}, ⟨2⟩⟩).map (·.message) =
      ["Mocked real method not found in type Cart"] := by
  obtain ⟨unit, valid, seen⟩ := Draft.exists_of_validate_map (show (gappedCart.validate.map fun unit =>
    ((Site.classification ⟨unit, {}, ⟨2⟩⟩).target,
      ((danglingMarker .error).findings ⟨unit, {}, ⟨2⟩⟩).map (·.message))) =
    .ok (some ⟨2⟩, ["Mocked real method not found in type Cart"]) by decide +kernel)
  obtain ⟨target, reported⟩ := Prod.mk.inj seen
  have isDecl : Site.kind? ⟨unit, {}, ⟨2⟩⟩ = some (.methodDecl ⟨3⟩ (some ⟨0⟩)) :=
    (Draft.describes_of_validate valid).kind? ⟨2⟩
  exact ⟨unit, valid, ⟨isDecl, (Site.classification_target_eq_some isDecl).mp target⟩, reported⟩

theorem declarationRules_pass_over_gaps_gappedCart : ∃ unit, gappedCart.validate = .ok unit ∧
    (danglingMarker .error).findings (Site.pruned ⟨unit, {}, ⟨2⟩⟩) =
      (danglingMarker .error).findings ⟨unit, {}, ⟨2⟩⟩ ∧
    (danglingMarker .error).findings ⟨unit, {}, ⟨2⟩⟩ ≠ [] ∧
    ∃ name method target, Declares ⟨unit, {}, ⟨2⟩⟩ name method target ∧ unit.symbols.knowsMethod method ∧
      unit.symbols.knowsType target ∧ unit.symbols.pruned.Complete target := by
  obtain ⟨unit, valid, declares, reported⟩ := exists_gappedCart
  have found : (danglingMarker .error).findings ⟨unit, {}, ⟨2⟩⟩ ≠ [] := by
    intro nothing
    simp [nothing] at reported
  have passes := declarationRules_pass_over_gaps ⟨unit, {}, ⟨2⟩⟩ .error .error .error
  exact ⟨unit, valid, passes.1 _ (by simp [declarationRules]), found, passes.2 found⟩

/-- The method is reported though each sort of reference from the mocked type leads nowhere. -/
theorem danglingMarker_reports_gappedCart : ∃ unit, gappedCart.validate = .ok unit ∧
    Declares ⟨unit, {}, ⟨2⟩⟩ ⟨3⟩ ⟨0⟩ ⟨2⟩ ∧
    ((danglingMarker .error).findings ⟨unit, {}, ⟨2⟩⟩).map (·.message) =
      ["Mocked real method not found in type Cart"] ∧
    (∀ gap ∈ [⟨9⟩, ⟨7⟩], unit.symbols.HasSupertype ⟨2⟩ gap ∧ unit.symbols.knowsType gap = false) ∧
    unit.symbols.knowsType (unit.symbols.erasure ⟨2⟩) = false ∧
    (∃ gap ∈ unit.symbols.declaredMethods ⟨2⟩, unit.symbols.knowsMethod gap = false) ∧
    ¬ unit.symbols.Complete ⟨2⟩ := by
  obtain ⟨unit, valid, declares, reported⟩ := exists_gappedCart
  have symbols := (Draft.describes_of_validate valid).symbols
  have gaps : ∀ gap ∈ [⟨9⟩, ⟨7⟩], unit.symbols.HasSupertype ⟨2⟩ gap ∧ unit.symbols.knowsType gap = false := by
    simp only [← Symbols.mem_supertypes, symbols]
    decide +kernel
  have erased : unit.symbols.knowsType (unit.symbols.erasure ⟨2⟩) = false := by
    rw [symbols]
    decide +kernel
  have unlisted : ∃ gap ∈ unit.symbols.declaredMethods ⟨2⟩, unit.symbols.knowsMethod gap = false := by
    rw [symbols]
    decide +kernel
  refine ⟨unit, valid, declares, reported, gaps, erased, unlisted, fun complete => ?_⟩
  obtain ⟨linked, unknown⟩ := gaps ⟨9⟩ List.mem_cons_self
  have known := (complete ⟨9⟩ (.single linked)).1
  exact Bool.false_ne_true (unknown.symm.trans known)

end Rule
end MockAudit
