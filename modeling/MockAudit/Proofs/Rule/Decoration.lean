import MockAudit.Proofs.Idiom.Decoration
import MockAudit.Proofs.Idiom.Hierarchy
import MockAudit.Proofs.Rule.Scope

namespace MockAudit

namespace Site

def declaredMethod? (site : Site) : Option MethodId :=
  match site.kind? with
  | some (.methodDecl _ method) => method
  | _ => none

def declaresPrivate (site : Site) : Bool :=
  site.declaredMethod?.any fun method => (site.symbols.method? method).any (·.isPrivate)

def forbidsReentry (site : Site) : Bool :=
  site.enclosingMock?.any fun method => !site.symbols.isReentrant site.vocabulary method

end Site

namespace Rule

variable {site other : Site}

theorem mockedDeclaration?_plain (site : Site) : mockedDeclaration? site.plain = mockedDeclaration? site := by
  have real : site.plain.symbols.realMethod? site.plain.vocabulary = site.symbols.realMethod? site.vocabulary :=
    funext fun target => funext fun mock => Symbols.realMethod?_plain target mock
  rw [mockedDeclaration?, Site.kind?_plain, Site.classification_plain, real]
  rfl

theorem missingMarker_plain (severity : Severity) (site : Site) :
    (missingMarker severity).findings site.plain = (missingMarker severity).findings site := by
  simp only [missingMarker, mockedDeclaration?_plain, Site.classification_plain, Site.methodName?_plain]
  rfl

theorem danglingMarker_plain (severity : Severity) (site : Site) :
    (danglingMarker severity).findings site.plain = (danglingMarker severity).findings site := by
  simp only [danglingMarker, mockedDeclaration?_plain, Site.classification_plain]
  rfl

theorem any_isPrivate_of_mockedDeclaration? {decl : MockedDeclaration}
    (found : mockedDeclaration? site = some decl) :
    (site.symbols.method? decl.method).any (·.isPrivate) = site.declaresPrivate := by
  unfold mockedDeclaration? at found
  split at found
  · rename_i name method isDecl
    obtain ⟨target, -, rfl⟩ := Option.map_eq_some_iff.mp found
    simp [Site.declaresPrivate, Site.declaredMethod?, isDecl]
  · simp at found

theorem privateMock_congr (severity : Severity) (plain : other.plain = site.plain)
    (agree : other.declaresPrivate = site.declaresPrivate) :
    (privateMock severity).findings other = (privateMock severity).findings site := by
  have declared : mockedDeclaration? other = mockedDeclaration? site := by
    rw [← mockedDeclaration?_plain, plain, mockedDeclaration?_plain]
  have marked : other.classification.isMockMethod = site.classification.isMockMethod := by
    have same := congrArg (fun site => site.classification.isMockMethod) plain
    simpa only [Site.classification_plain] using same
  cases found : mockedDeclaration? site with
  | none => simp [privateMock, declared, found]
  | some decl =>
      have here := any_isPrivate_of_mockedDeclaration? found
      have there := any_isPrivate_of_mockedDeclaration? (declared.trans found)
      simp [privateMock, declared, found, marked, here, there, agree]

theorem privateMock_of_exposed (severity : Severity) (exposed : site.declaresPrivate = false) :
    (privateMock severity).findings site = [] := by
  cases found : mockedDeclaration? site with
  | none => simp [privateMock, found]
  | some decl => simp [privateMock, found, any_isPrivate_of_mockedDeclaration? found, exposed]

theorem interfaceMock?_plain (site : Site) : interfaceMock? site.plain = interfaceMock? site := by
  unfold interfaceMock?
  rw [Site.kind?_plain, Site.classification_plain]
  simp only [Site.method?_plain, Option.bind_eq_bind, Option.bind_map]
  rfl

theorem missingAccessor_plain (severity : Severity) (site : Site) :
    (missingAccessor severity).findings site.plain = (missingAccessor severity).findings site := by
  simp only [missingAccessor, interfaceMock?_plain]
  rfl

theorem discardedInstance_plain (severity : Severity) (site : Site) :
    (discardedInstance severity).findings site.plain = (discardedInstance severity).findings site := by
  simp only [discardedInstance, interfaceMock?_plain]

theorem accessorOnClass_plain (severity : Severity) (site : Site) :
    (accessorOnClass severity).findings site.plain = (accessorOnClass severity).findings site := by
  simp only [accessorOnClass, Site.kind?_plain, Site.method?_plain]
  split
  · rename_i name receiver method result _
    have type : site.plain.symbols.type? result = site.symbols.type? result := rfl
    rw [type]
    cases site.symbols.method? method with
    | none => rfl
    | some method => cases site.symbols.type? result <;> rfl
  · rfl

theorem selfInvoked?_plain (site : Site) :
    (selfInvoked? site).map MethodBinding.plain = if site.forbidsReentry then selfInvoked? site.plain else none := by
  have delegate (receiver : NodeId) : delegateField? site.plain receiver = delegateField? site receiver := rfl
  have signature (first second : MethodId) : site.plain.symbols.sameSignature first second = _ :=
    Symbols.sameSignature_plain first second
  unfold selfInvoked? Site.forbidsReentry
  rw [Site.kind?_plain, Site.classification_plain, Site.enclosingMock?_plain]
  simp only [delegate, Site.method?_plain, signature, Site.isReentrant_plain]
  -- Reentrancy is asked for last, and a plain marker never allows it.
  split
  · cases site.enclosingMock? with
    | none => simp
    | some id =>
        cases allowed : site.symbols.isReentrant site.vocabulary id with
        | true => simp [allowed]
        | false =>
            simp only [allowed, Option.bind_eq_bind, Option.pure_def, Option.bind_some, Option.map_bind,
              Option.bind_map, Function.comp_apply, Option.map_some, Option.any_some, Bool.not_false, guard_true,
              if_true]
            rfl
  · simp

theorem selfInvocation_plain (severity : Severity) (site : Site) :
    (selfInvocation severity).findings site =
      if site.forbidsReentry then (selfInvocation severity).findings site.plain else [] := by
  have invoked := selfInvoked?_plain site
  simp only [selfInvocation]
  cases forbids : site.forbidsReentry with
  | true =>
      rw [forbids, if_pos rfl] at invoked
      rw [if_pos rfl, ← invoked]
      cases selfInvoked? site <;> rfl
  | false =>
      rw [forbids, if_neg Bool.false_ne_true] at invoked
      rw [if_neg Bool.false_ne_true, Option.map_eq_none_iff.mp invoked]

theorem selfInvocation_congr (severity : Severity) (plain : other.plain = site.plain)
    (agree : other.forbidsReentry = site.forbidsReentry) :
    (selfInvocation severity).findings other = (selfInvocation severity).findings site := by
  rw [selfInvocation_plain, plain, agree, ← selfInvocation_plain]

theorem selfInvocation_of_permitted (severity : Severity) (permitted : site.forbidsReentry = false) :
    (selfInvocation severity).findings site = [] := by
  rw [selfInvocation_plain, permitted, if_neg Bool.false_ne_true]

/-- Two sites that are the same when plain have the same findings, as long as they agree on what the rule reads of
modifiers and attributes. -/
theorem IsBuiltIn.findings_congr {rule : Rule} (builtIn : rule.IsBuiltIn) (plain : other.plain = site.plain)
    (privacy : rule.code = "ML003" → other.declaresPrivate = site.declaresPrivate)
    (reentry : rule.code = "ML007" → other.forbidsReentry = site.forbidsReentry) :
    rule.findings other = rule.findings site := by
  obtain ⟨code, severity, found⟩ := builtIn
  have member := List.mem_of_find?_eq_some found
  simp only [List.mem_cons, List.not_mem_nil, or_false] at member
  rcases member with rfl | rfl | rfl | rfl | rfl | rfl | rfl
  · rw [← missingMarker_plain, plain, missingMarker_plain]
  · rw [← danglingMarker_plain, plain, danglingMarker_plain]
  · exact privateMock_congr severity plain (privacy rfl)
  · rw [← missingAccessor_plain, plain, missingAccessor_plain]
  · rw [← discardedInstance_plain, plain, discardedInstance_plain]
  · rw [← accessorOnClass_plain, plain, accessorOnClass_plain]
  · exact selfInvocation_congr severity plain (reentry rfl)

theorem IsBuiltIn.exists_severity {rule : Rule} (builtIn : rule.IsBuiltIn) :
    ∃ severity, withCode? rule.code severity = some rule := by
  obtain ⟨code, severity, found⟩ := builtIn
  have coded := List.find?_some found
  obtain rfl : rule.code = code := eq_of_beq coded
  exact ⟨severity, found⟩

theorem IsBuiltIn.findings_of_exposed {rule : Rule} (builtIn : rule.IsBuiltIn) (coded : rule.code = "ML003")
    (exposed : site.declaresPrivate = false) : rule.findings site = [] := by
  obtain ⟨severity, found⟩ := builtIn.exists_severity
  rw [coded] at found
  obtain rfl : privateMock severity = rule := Option.some.inj found
  exact privateMock_of_exposed severity exposed

theorem IsBuiltIn.findings_of_permitted {rule : Rule} (builtIn : rule.IsBuiltIn) (coded : rule.code = "ML007")
    (permitted : site.forbidsReentry = false) : rule.findings site = [] := by
  obtain ⟨severity, found⟩ := builtIn.exists_severity
  rw [coded] at found
  obtain rfl : selfInvocation severity = rule := Option.some.inj found
  exact selfInvocation_of_permitted severity permitted

end Rule
end MockAudit
