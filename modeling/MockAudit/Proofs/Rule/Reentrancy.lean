import MockAudit.Proofs.Rule.Declarations
import MockAudit.Rule.Reentrancy

namespace MockAudit

namespace Symbols

variable {symbols : Symbols} {v : Vocabulary}

theorem marker?_eq_some {id : MethodId} {marking : AnnotationUse} : symbols.marker? v id = some marking ↔
    ∃ method, symbols.method? id = some method ∧
      IsFirst (fun use => use.typeName = v.marker) method.annotations marking := by
  rw [marker?, Option.bind_eq_some_iff]
  apply exists_congr
  intro method
  rw [MethodBinding.markingOf?, find?_eq_some_iff_isFirst fun use => beq_iff_eq]

theorem isReentrant_iff {id : MethodId} {marking : AnnotationUse} (marked : symbols.marker? v id = some marking) :
    symbols.isReentrant v id ↔ marking.attributes.get? v.reentrancy = some (.bool true) := by
  rw [isReentrant, marked, Option.bind_some, AnnotationUse.bool?]
  split <;> simp_all

theorem sameSignature_iff {first second : MethodId} {method : MethodBinding}
    (resolved : symbols.method? first = some method) : symbols.sameSignature first second ↔
      ∃ other, symbols.method? second = some other ∧ other.name = method.name ∧
        other.parameters.map symbols.erasure = method.parameters.map symbols.erasure := by
  unfold sameSignature sameParameters
  rw [resolved]
  cases symbols.method? second with
  | none => simp
  | some other =>
      simp only [Bool.and_eq_true, beq_iff_eq, Option.some.injEq, exists_eq_left']
      exact and_congr eq_comm eq_comm

end Symbols

def Site.WithinMock (site : Site) (mock : MethodBinding) (marking : AnnotationUse) : Prop :=
  ∃ id, site.InMethod (some id) ∧ site.symbols.method? id = some mock ∧
    IsFirst (fun use => use.typeName = site.vocabulary.marker) mock.annotations marking

namespace Rule

variable {site : Site} {field : FieldBinding} {called mock : MethodBinding} {marking : AnnotationUse}
  {target : TypeId}

def OnDelegate (site : Site) (field : FieldBinding) (called : MethodBinding) : Prop :=
  ∃ name receiver method result fieldId,
    site.kind? = some (.call name (some receiver) (some method) result) ∧
    site.unit.kind? receiver = some (.simpleName site.vocabulary.delegate (some (.var fieldId))) ∧
    site.symbols.field? fieldId = some field ∧ field.isField = true ∧
    site.symbols.method? method = some called

/-- The site calls, on the delegate of a mock definition and from inside a mock method, the method that this one
stands in for, and the marker does not allow reentrant calls. -/
structure SelfInvokes (site : Site) (field : FieldBinding) (called mock : MethodBinding) (marking : AnnotationUse)
    (target : TypeId) : Prop where
  call : OnDelegate site field called
  within : site.WithinMock mock marking
  owner : field.declaringType = some mock.declaringType
  name : called.name = mock.name
  parameters : called.parameters.map site.symbols.erasure = mock.parameters.map site.symbols.erasure
  mocks : site.Mocks target
  ofTarget : field.declaredType = some target
  unguarded : marking.attributes.get? site.vocabulary.reentrancy ≠ some (.bool true)

theorem delegateField?_eq_some {receiver : NodeId} : delegateField? site receiver = some field ↔
    ∃ fieldId, site.unit.kind? receiver = some (.simpleName site.vocabulary.delegate (some (.var fieldId))) ∧
      site.symbols.field? fieldId = some field ∧ field.isField = true := by
  unfold delegateField?
  split
  · rename_i identifier fieldId isName
    by_cases same : identifier = site.vocabulary.delegate
    · simp [isName, same, Option.filter_eq_some_iff]
    · simp [isName, same]
  · rename_i other
    simp only [reduceCtorEq, false_iff]
    rintro ⟨fieldId, isName, -⟩
    exact other _ _ isName

theorem selfInvoked?_eq_some : selfInvoked? site = some mock ↔
    ∃ field called marking target, SelfInvokes site field called mock marking target := by
  constructor
  · intro found
    unfold selfInvoked? at found
    split at found
    · rename_i name receiver method result isCall
      simp only [Option.bind_eq_bind, Option.bind_eq_some_iff, Option.guard_eq_some', exists_const, Option.pure_def,
        Option.some.injEq] at found
      obtain ⟨field, delegated, id, encloses, mock, resolved, owner, same, target, seen, ofTarget, plain, rfl⟩ := found
      obtain ⟨fieldId, named, found, isField⟩ := delegateField?_eq_some.mp delegated
      obtain ⟨within, marked⟩ := Site.enclosingMock?_eq_some.mp encloses
      obtain ⟨marking, marker⟩ := Option.isSome_iff_exists.mp marked
      obtain ⟨other, resolvedToo, first⟩ := Symbols.marker?_eq_some.mp marker
      obtain rfl : mock = other := Option.some.inj (resolved.symm.trans resolvedToo)
      obtain ⟨called, isCalled, name, parameters⟩ := (Symbols.sameSignature_iff resolved).mp same
      refine ⟨field, called, marking, target, ?_⟩
      exact {
        call := ⟨_, receiver, method, result, fieldId, isCall, named, found, isField, isCalled⟩
        within := ⟨id, within, resolved, first⟩
        owner, name, parameters
        mocks := (Site.classification_target_of_call isCall).mp seen
        ofTarget
        unguarded := fun allowed => by simp [(Symbols.isReentrant_iff marker).mpr allowed] at plain }
    · simp at found
  · rintro ⟨field, called, marking, target, invokes⟩
    obtain ⟨name, receiver, method, result, fieldId, isCall, named, found, isField, isCalled⟩ := invokes.call
    obtain ⟨id, within, resolved, first⟩ := invokes.within
    have marker := Symbols.marker?_eq_some.mpr ⟨mock, resolved, first⟩
    have delegated := delegateField?_eq_some.mpr ⟨fieldId, named, found, isField⟩
    have encloses := Site.enclosingMock?_eq_some.mpr ⟨within, Option.isSome_of_eq_some marker⟩
    have same := (Symbols.sameSignature_iff resolved).mpr ⟨called, isCalled, invokes.name, invokes.parameters⟩
    have seen := (Site.classification_target_of_call isCall).mpr invokes.mocks
    have plain : site.symbols.isReentrant site.vocabulary id = false :=
      Bool.eq_false_iff.mpr fun allowed => invokes.unguarded ((Symbols.isReentrant_iff marker).mp allowed)
    simp [selfInvoked?, isCall, delegated, encloses, resolved, invokes.owner, same, seen, invokes.ofTarget, plain]

theorem selfInvocation_reportsWhen (site : Site) (severity : Severity) :
    (selfInvocation severity).ReportsWhen site site.node
      (∃ field called mock marking target, SelfInvokes site field called mock marking target) where
  reports := by
    rintro ⟨field, called, mock, marking, target, invokes⟩
    have found := selfInvoked?_eq_some.mpr ⟨field, called, marking, target, invokes⟩
    simp [selfInvocation, found]
  silent := by
    intro plain
    cases found : selfInvoked? site with
    | none => simp [selfInvocation, found]
    | some mock =>
        obtain ⟨field, called, marking, target, invokes⟩ := selfInvoked?_eq_some.mp found
        exact absurd ⟨field, called, mock, marking, target, invokes⟩ plain

/-- A call is reported, at itself, exactly when it is an unguarded self-invocation. A method around it that is
unmarked or unresolved hides every method further out, and an unresolved type body every type body further out. -/
theorem selfInvocation_decides (site : Site) (severity : Severity) :
    (selfInvocation severity).ReportsWhen site site.node
      (∃ field called mock marking target, SelfInvokes site field called mock marking target) ∧
    (∀ method, site.InMethod method → (∀ id, method = some id → ¬ site.symbols.Marked site.vocabulary id) →
      (selfInvocation severity).findings site = []) ∧
    (∀ type, site.InBody type → (∀ id, type = some id → site.symbols.type? id = none) →
      (selfInvocation severity).findings site = []) := by
  have decided := selfInvocation_reportsWhen site severity
  refine ⟨decided, ?_, ?_⟩
  · intro method around unmarked
    refine decided.silent ?_
    rintro ⟨field, called, mock, marking, target, invokes⟩
    obtain ⟨id, within, resolved, first⟩ := invokes.within
    have marker := Symbols.marker?_eq_some.mpr ⟨mock, resolved, first⟩
    exact unmarked id (around.unique within) (Symbols.isMockMethod_iff.mp (Option.isSome_of_eq_some marker))
  · intro type around unresolved
    refine decided.silent ?_
    rintro ⟨field, called, mock, marking, target, invokes⟩
    obtain ⟨body, kind, id, k, base, innermost, bound, nearest, -⟩ := invokes.mocks
    obtain ⟨superclass, j, -, ⟨binding, resolved, -⟩, -⟩ := nearest.exists_superclass
    have missing := unresolved id (around.unique ⟨body, kind, innermost, bound⟩)
    simp [missing] at resolved

/-- A mock method that calls itself through the delegate, directly in node 4 and from inside an unresolved class in
node 10. -/
def nestedCalls : Draft where
  path := "CartTest.java"
  source := some "new MockUp<Cart>() { @Mock void pay() { it.pay(); new Task() { void run() { it.pay(); } }; } }"
  nodes := #[⟨.compilationUnit, ⟨0, 94⟩, [⟨1⟩]⟩, ⟨.anonymousClass (some ⟨1⟩), ⟨19, 75⟩, [⟨2⟩]⟩,
    ⟨.methodDecl ⟨3⟩ (some ⟨0⟩), ⟨21, 71⟩, [⟨3⟩, ⟨4⟩, ⟨7⟩]⟩, ⟨.simpleName "pay" none, ⟨32, 3⟩, []⟩,
    ⟨.call ⟨6⟩ (some ⟨5⟩) (some ⟨1⟩) none, ⟨40, 8⟩, [⟨5⟩, ⟨6⟩]⟩,
    ⟨.simpleName "it" (some (.var ⟨0⟩)), ⟨40, 2⟩, []⟩, ⟨.simpleName "pay" none, ⟨43, 3⟩, []⟩,
    ⟨.anonymousClass none, ⟨61, 28⟩, [⟨8⟩]⟩, ⟨.methodDecl ⟨9⟩ none, ⟨63, 24⟩, [⟨9⟩, ⟨10⟩]⟩,
    ⟨.simpleName "run" none, ⟨68, 3⟩, []⟩, ⟨.call ⟨12⟩ (some ⟨11⟩) (some ⟨1⟩) none, ⟨76, 8⟩, [⟨11⟩, ⟨12⟩]⟩,
    ⟨.simpleName "it" (some (.var ⟨0⟩)), ⟨76, 2⟩, []⟩, ⟨.simpleName "pay" none, ⟨79, 3⟩, []⟩]
  symbols :=
    { types := #[{ name := "MockUp", qualifiedName := "mockit.MockUp", typeArguments := [⟨2⟩] },
        { name := "", qualifiedName := "", superclass := some ⟨0⟩ },
        { name := "Cart", qualifiedName := "shop.Cart", methods := [⟨1⟩] }]
      methods := #[{ name := "pay", declaringType := ⟨1⟩, annotations := [⟨"mockit.Mock", .empty⟩] },
        { name := "pay", declaringType := ⟨2⟩ }]
      fields := #[⟨"it", some ⟨1⟩, some ⟨2⟩, true⟩] }

theorem selfInvocation_decides_nestedCalls : ∃ unit, nestedCalls.validate = .ok unit ∧
    (∃ finding, (selfInvocation .error).findings ⟨unit, {}, ⟨4⟩⟩ = [finding] ∧ finding.anchor = ⟨4⟩) ∧
    Site.InMethod ⟨unit, {}, ⟨10⟩⟩ none ∧ Site.InBody ⟨unit, {}, ⟨10⟩⟩ none ∧
    (selfInvocation .error).findings ⟨unit, {}, ⟨10⟩⟩ = [] := by
  obtain ⟨unit, valid, seen⟩ := Draft.exists_of_validate_map (show (nestedCalls.validate.map fun unit =>
    ((selfInvoked? ⟨unit, {}, ⟨4⟩⟩).isSome, decide (Site.InMethod ⟨unit, {}, ⟨10⟩⟩ none),
      decide (Site.InBody ⟨unit, {}, ⟨10⟩⟩ none))) = .ok (true, true, true) by decide +kernel)
  simp only [Prod.mk.injEq, decide_eq_true_eq] at seen
  obtain ⟨invoked, inMethod, inBody⟩ := seen
  obtain ⟨mock, found⟩ := Option.isSome_iff_exists.mp invoked
  obtain ⟨field, called, marking, target, invokes⟩ := selfInvoked?_eq_some.mp found
  refine ⟨unit, valid, ?_, inMethod, inBody, ?_⟩
  · exact (selfInvocation_decides ⟨unit, {}, ⟨4⟩⟩ .error).1.reports ⟨field, called, mock, marking, target, invokes⟩
  · exact (selfInvocation_decides ⟨unit, {}, ⟨10⟩⟩ .error).2.1 none inMethod (by simp)

end Rule
end MockAudit
