import MockAudit.Proofs.Idiom.RealMethod
import MockAudit.Proofs.Idiom.Site
import MockAudit.Proofs.Unit.Validation
import MockAudit.Rule.Declarations

namespace MockAudit

namespace Symbols

variable {symbols : Symbols} {v : Vocabulary} {id : MethodId}

def Marked (symbols : Symbols) (v : Vocabulary) (id : MethodId) : Prop :=
  ∃ method, symbols.method? id = some method ∧ ∃ marking ∈ method.annotations, marking.typeName = v.marker

def Private (symbols : Symbols) (id : MethodId) : Prop :=
  ∃ method, symbols.method? id = some method ∧ Modifier.isPrivate ∈ method.modifiers

theorem isMockMethod_iff : symbols.isMockMethod v id ↔ symbols.Marked v id := by
  unfold isMockMethod marker? Marked MethodBinding.markingOf?
  cases symbols.method? id <;> simp

theorem any_isPrivate_iff : (symbols.method? id).any (·.isPrivate) ↔ symbols.Private id := by
  simp [Option.any_eq_true, MethodBinding.isPrivate, Private]

end Symbols

namespace Rule

variable {site : Site} {name : NodeId} {method : MethodId} {target : TypeId}

structure Declares (site : Site) (name : NodeId) (method : MethodId) (target : TypeId) : Prop where
  isDecl : site.kind? = some (.methodDecl name (some method))
  mocks : site.Mocks target

theorem mockedDeclaration?_of_declares (declares : Declares site name method target) :
    mockedDeclaration? site =
      some ⟨name, method, target, site.symbols.realMethod? site.vocabulary target method⟩ := by
  have seen := (Site.classification_target_eq_some declares.isDecl).mpr declares.mocks
  simp [mockedDeclaration?, declares.isDecl, seen]

theorem mockedDeclaration?_eq_none (undeclared : ∀ name method target, ¬ Declares site name method target) :
    mockedDeclaration? site = none := by
  unfold mockedDeclaration?
  split
  · rename_i name method isDecl
    cases seen : site.classification.target with
    | none => rfl
    | some target =>
        have mocks := (Site.classification_target_eq_some isDecl).mp seen
        exact absurd ⟨isDecl, mocks⟩ (undeclared name method target)
  · rfl

theorem classification_isMockMethod (isDecl : site.kind? = some (.methodDecl name (some method))) :
    site.classification.isMockMethod = site.symbols.isMockMethod site.vocabulary method := by
  simp [Site.classification, isDecl]

/-- The rule has one finding at the site, anchored at the given node, when the condition holds, and none otherwise. -/
structure ReportsWhen (rule : Rule) (site : Site) (anchor : NodeId) (condition : Prop) : Prop where
  reports : condition → ∃ finding, rule.findings site = [finding] ∧ finding.anchor = anchor
  silent : ¬ condition → rule.findings site = []

theorem ReportsWhen.length_le_one {rule : Rule} {anchor : NodeId} {condition : Prop}
    (decided : rule.ReportsWhen site anchor condition) : (rule.findings site).length ≤ 1 := by
  by_cases holds : condition
  · obtain ⟨finding, one, -⟩ := decided.reports holds
    simp [one]
  · simp [decided.silent holds]

theorem missingMarker_reportsWhen (severity : Severity) (declares : Declares site name method target) :
    (missingMarker severity).ReportsWhen site name
      (¬ site.symbols.Marked site.vocabulary method ∧ site.symbols.Matched site.vocabulary target method) := by
  have found := mockedDeclaration?_of_declares declares
  have marker := classification_isMockMethod declares.isDecl
  rw [← Symbols.isMockMethod_iff, ← Symbols.realMethod?_isSome]
  cases marked : site.symbols.isMockMethod site.vocabulary method <;>
    cases real : site.symbols.realMethod? site.vocabulary target method <;>
    constructor <;> simp [missingMarker, found, marker, marked, real]

theorem danglingMarker_reportsWhen (severity : Severity) (declares : Declares site name method target) :
    (danglingMarker severity).ReportsWhen site name
      (site.symbols.Marked site.vocabulary method ∧ ¬ site.symbols.Matched site.vocabulary target method) := by
  have found := mockedDeclaration?_of_declares declares
  have marker := classification_isMockMethod declares.isDecl
  rw [← Symbols.isMockMethod_iff, ← Symbols.realMethod?_isSome]
  cases marked : site.symbols.isMockMethod site.vocabulary method <;>
    cases real : site.symbols.realMethod? site.vocabulary target method <;>
    constructor <;> simp [danglingMarker, found, marker, marked, real]

theorem privateMock_reportsWhen (severity : Severity) (declares : Declares site name method target) :
    (privateMock severity).ReportsWhen site name
      (site.symbols.Marked site.vocabulary method ∧ site.symbols.Matched site.vocabulary target method ∧
        site.symbols.Private method) := by
  have found := mockedDeclaration?_of_declares declares
  have marker := classification_isMockMethod declares.isDecl
  rw [← Symbols.isMockMethod_iff, ← Symbols.realMethod?_isSome, ← Symbols.any_isPrivate_iff]
  cases marked : site.symbols.isMockMethod site.vocabulary method <;>
    cases real : site.symbols.realMethod? site.vocabulary target method <;>
    cases hidden : (site.symbols.method? method).any (·.isPrivate) <;>
    constructor <;> simp [privateMock, found, marker, marked, real, hidden]

def declarationRules (missing dangling hidden : Severity) : List Rule :=
  [missingMarker missing, danglingMarker dangling, privateMock hidden]

theorem findings_eq_nil_of_undeclared {missing dangling hidden : Severity}
    (undeclared : ∀ name method target, ¬ Declares site name method target) :
    ∀ rule ∈ declarationRules missing dangling hidden, rule.findings site = [] := by
  have none := mockedDeclaration?_eq_none undeclared
  simp [declarationRules, missingMarker, danglingMarker, privateMock, none]

theorem length_findings_le_one (site : Site) (missing dangling hidden : Severity) :
    ((declarationRules missing dangling hidden).flatMap (·.findings site)).length ≤ 1 := by
  by_cases undeclared : ∀ name method target, ¬ Declares site name method target
  · rw [List.flatMap_eq_nil_iff.mpr (findings_eq_nil_of_undeclared undeclared)]
    exact Nat.zero_le 1
  · push Not at undeclared
    obtain ⟨name, method, target, declares⟩ := undeclared
    have first := missingMarker_reportsWhen missing declares
    have second := danglingMarker_reportsWhen dangling declares
    have third := privateMock_reportsWhen hidden declares
    -- Each of the three cases contradicts the conditions of two rules.
    by_cases marked : site.symbols.Marked site.vocabulary method
    · have noFirst := first.silent fun both => both.1 marked
      by_cases matched : site.symbols.Matched site.vocabulary target method
      · have noSecond := second.silent fun both => both.2 matched
        simpa [declarationRules, noFirst, noSecond] using third.length_le_one
      · have noThird := third.silent fun all => matched all.2.1
        simpa [declarationRules, noFirst, noThird] using second.length_le_one
    · have noSecond := second.silent fun both => marked both.1
      have noThird := third.silent fun all => marked all.1
      simpa [declarationRules, noSecond, noThird] using first.length_le_one

/-- At a method declared in a mock definition at most one of the rules reports, at its name: that it lacks the marker
though it has a real method, that it has the marker and no real method, or that it has both and is private. -/
theorem declarationRules_decide (site : Site) (missing dangling hidden : Severity) :
    ((declarationRules missing dangling hidden).flatMap (·.findings site)).length ≤ 1 ∧
    (∀ name method target, Declares site name method target →
      (missingMarker missing).ReportsWhen site name ((site.symbols.method? method).isSome ∧
        ¬ site.symbols.Marked site.vocabulary method ∧ site.symbols.Matched site.vocabulary target method) ∧
      (danglingMarker dangling).ReportsWhen site name
        (site.symbols.Marked site.vocabulary method ∧ ¬ site.symbols.Matched site.vocabulary target method) ∧
      (privateMock hidden).ReportsWhen site name
        (site.symbols.Marked site.vocabulary method ∧ site.symbols.Matched site.vocabulary target method ∧
          site.symbols.Private method)) ∧
    ((∀ name method target, ¬ Declares site name method target) →
      ∀ rule ∈ declarationRules missing dangling hidden, rule.findings site = []) := by
  refine ⟨length_findings_le_one site missing dangling hidden, ?_, findings_eq_nil_of_undeclared⟩
  intro name method target declares
  refine ⟨?_, danglingMarker_reportsWhen dangling declares, privateMock_reportsWhen hidden declares⟩
  rw [and_iff_right_of_imp fun both => both.2.resolved]
  exact missingMarker_reportsWhen missing declares

/-- A mock method without marker, in a class that is two links below the base type. The real method is inherited, and
the superclasses of the mocked type run in a circle. -/
def unmarkedMock : Draft where
  path := "CartTest.java"
  source := some "class FakeCart extends BaseFake"
  nodes := #[⟨.compilationUnit, ⟨0, 31⟩, [⟨1⟩]⟩, ⟨.typeDecl ⟨4⟩ (some ⟨1⟩), ⟨0, 31⟩, [⟨4⟩, ⟨2⟩]⟩,
    ⟨.methodDecl ⟨3⟩ (some ⟨0⟩), ⟨23, 8⟩, [⟨3⟩]⟩, ⟨.simpleName "pay" none, ⟨23, 3⟩, []⟩,
    ⟨.simpleName "FakeCart" none, ⟨6, 8⟩, []⟩]
  symbols :=
    { types := #[{ name := "MockUp", qualifiedName := "mockit.MockUp", typeArguments := [⟨2⟩] },
        { name := "FakeCart", qualifiedName := "shop.FakeCart", superclass := some ⟨3⟩ },
        { name := "Cart", qualifiedName := "shop.Cart", superclass := some ⟨4⟩ },
        { name := "BaseFake", qualifiedName := "shop.BaseFake", superclass := some ⟨0⟩ },
        { name := "Basket", qualifiedName := "shop.Basket", superclass := some ⟨2⟩, methods := [⟨1⟩] }]
      methods := #[{ name := "pay", declaringType := ⟨1⟩ }, { name := "pay", declaringType := ⟨4⟩ }] }

theorem declarationRules_decide_unmarkedMock : ∃ unit, unmarkedMock.validate = .ok unit ∧
    Declares ⟨unit, {}, ⟨2⟩⟩ ⟨3⟩ ⟨0⟩ ⟨2⟩ ∧
    ∃ finding, (missingMarker .error).findings ⟨unit, {}, ⟨2⟩⟩ = [finding] ∧ finding.anchor = ⟨3⟩ := by
  obtain ⟨unit, valid, seen⟩ := Draft.exists_of_validate_map (show (unmarkedMock.validate.map fun unit =>
    (Site.kind? ⟨unit, {}, ⟨2⟩⟩, (Site.classification ⟨unit, {}, ⟨2⟩⟩).target, unit.symbols.isMockMethod {} ⟨0⟩,
      (unit.symbols.realMethod? {} ⟨2⟩ ⟨0⟩).isSome)) =
    .ok (some (.methodDecl ⟨3⟩ (some ⟨0⟩)), some ⟨2⟩, false, true) by decide +kernel)
  simp only [Prod.mk.injEq] at seen
  obtain ⟨isDecl, target, unmarked, matched⟩ := seen
  have declares : Declares ⟨unit, {}, ⟨2⟩⟩ ⟨3⟩ ⟨0⟩ ⟨2⟩ :=
    ⟨isDecl, (Site.classification_target_eq_some isDecl).mp target⟩
  have real := Symbols.realMethod?_isSome.mp matched
  have plain : ¬ unit.symbols.Marked {} ⟨0⟩ := fun marked =>
    Bool.false_ne_true (unmarked.symm.trans (Symbols.isMockMethod_iff.mpr marked))
  refine ⟨unit, valid, declares, ((declarationRules_decide _ .error .error .error).2.1 _ _ _ declares).1.reports ?_⟩
  exact ⟨real.resolved, plain, real⟩

end Rule
end MockAudit
