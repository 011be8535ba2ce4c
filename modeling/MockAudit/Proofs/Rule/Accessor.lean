import MockAudit.Proofs.Rule.Instances

namespace MockAudit

namespace Symbols

variable {symbols other : Symbols} {v : Vocabulary} {type base target : TypeId} {k : Nat}

theorem type?_congr (types : other.types = symbols.types) : other.type? = symbols.type? := by
  funext id
  rw [type?, type?, types]

theorem NearestBase.congr (types : other.types = symbols.types) (nearest : symbols.NearestBase v type k base) :
    other.NearestBase v type k base := by
  have links : other.HasSuperclass = symbols.HasSuperclass := by
    unfold HasSuperclass
    rw [type?_congr types]
  have bases : other.isMockBase v = symbols.isMockBase v := by
    unfold isMockBase erasure
    rw [type?_congr types]
  obtain ⟨positive, above, isBase, first⟩ := nearest
  refine ⟨positive, ?_, ?_, ?_⟩
  · rwa [links]
  · rwa [bases]
  · rwa [links, bases]

theorem Targets.congr (types : other.types = symbols.types) (targets : symbols.Targets base target) :
    other.Targets base target := by
  unfold Targets at targets ⊢
  rwa [type?_congr types]

end Symbols

def NodeKind.withoutReceiver : NodeKind → NodeKind
  | .call name _ method result => .call name none method result
  | kind => kind

def NodeKind.IsPlain (kind : NodeKind) : Prop := ∀ name receiver method result, kind ≠ .call name receiver method result

theorem NodeKind.withoutReceiver_eq_iff {found kind : NodeKind} (plain : kind.IsPlain) :
    found.withoutReceiver = kind ↔ found = kind := by
  cases found with
  | call name receiver method result =>
      exact iff_of_false (plain name none method result).symm (plain name receiver method result).symm
  | _ => rfl

/-- The sites have the same tree with the same kinds apart from receivers, the same types, and methods with the same
names. -/
structure Site.SameByName (site other : Site) : Prop where
  node : other.node = site.node
  vocabulary : other.vocabulary = site.vocabulary
  parents : other.unit.parents = site.unit.parents
  kinds : other.unit.nodes.map (·.kind.withoutReceiver) = site.unit.nodes.map (·.kind.withoutReceiver)
  types : other.symbols.types = site.symbols.types
  names : other.symbols.methods.map (·.name) = site.symbols.methods.map (·.name)

namespace Site.SameByName

variable {site other : Site} {creation typeNode : NodeId}

theorem symm (same : site.SameByName other) : other.SameByName site where
  node := same.node.symm
  vocabulary := same.vocabulary.symm
  parents := same.parents.symm
  kinds := same.kinds.symm
  types := same.types.symm
  names := same.names.symm

theorem parent? (same : site.SameByName other) : other.unit.parent? = site.unit.parent? := by
  funext id
  rw [CompilationUnit.parent?, CompilationUnit.parent?, same.parents]

theorem kind? (same : site.SameByName other) (id : NodeId) :
    (other.unit.kind? id).map (·.withoutReceiver) = (site.unit.kind? id).map (·.withoutReceiver) := by
  simpa [CompilationUnit.kind?, CompilationUnit.node?, Ref.resolve, Function.comp_def] using
    congrArg (·[id.toNat]?) same.kinds

theorem methodName (same : site.SameByName other) (id : MethodId) :
    (other.symbols.method? id).map (·.name) = (site.symbols.method? id).map (·.name) := by
  simpa [Symbols.method?, Ref.resolve] using congrArg (·[id.toNat]?) same.names

theorem kind?_eq_some (same : site.SameByName other) {id : NodeId} {kind : NodeKind} (plain : kind.IsPlain) :
    other.unit.kind? id = some kind ↔ site.unit.kind? id = some kind := by
  have forgotten (found : Option NodeKind) : found = some kind ↔ found.map (·.withoutReceiver) = some kind := by
    cases found <;> simp [NodeKind.withoutReceiver_eq_iff plain]
  rw [forgotten, same.kind?, ← forgotten]

theorem inCall_iff (same : site.SameByName other) {id call name : NodeId} {called : Option MethodId} :
    Rule.InCall other.unit id call name called ↔ Rule.InCall site.unit id call name called := by
  have forgotten (found : Option NodeKind) :
      (∃ receiver result, found = some (.call name receiver called result)) ↔
        ∃ result, found.map (·.withoutReceiver) = some (.call name none called result) := by
    cases found with
    | none => simp
    | some kind => cases kind <;> simp [NodeKind.withoutReceiver]
  unfold Rule.InCall
  rw [forgotten, same.kind?, ← forgotten, ← CompilationUnit.parent?_eq_some, same.parent?,
    CompilationUnit.parent?_eq_some]

theorem outerCall? (same : site.SameByName other) (id : NodeId) :
    Rule.outerCall? other.unit (site.unit.parent? id) = Rule.outerCall? site.unit (site.unit.parent? id) := by
  apply Option.ext
  rintro ⟨name, called⟩
  rw [Rule.outerCall?_eq_some, ← same.parent?, Rule.outerCall?_eq_some]
  exact exists_congr fun call => same.inCall_iff

theorem mocksInterface (same : site.SameByName other) (mocks : Rule.MocksInterface site creation typeNode) :
    Rule.MocksInterface other creation typeNode := by
  obtain ⟨⟨type, k, base, target, interface, isClass, nearest, targets, resolved, isInterface⟩, inCreation,
    created, isCreation⟩ := mocks
  refine ⟨⟨type, k, base, target, interface, ?_, ?_, targets.congr same.types, ?_, isInterface⟩, ?_, created, ?_⟩
  · rw [Site.kind?, same.node, same.kind?_eq_some (by nofun)]
    exact isClass
  · rw [same.vocabulary]
    exact nearest.congr same.types
  · rwa [Symbols.type?_congr same.types]
  · rw [← CompilationUnit.parent?_eq_some] at inCreation ⊢
    rwa [same.node, same.parent?]
  · rwa [same.kind?_eq_some (by nofun)]

theorem isStatement_eq (same : site.SameByName other) (id : Option NodeId) :
    (id.bind other.unit.kind? == some .expressionStatement) =
      (id.bind site.unit.kind? == some .expressionStatement) := by
  cases id with
  | none => rfl
  | some id =>
      rw [Bool.eq_iff_iff, beq_iff_eq, beq_iff_eq]
      exact same.kind?_eq_some (by nofun)

theorem interfaceMock? (same : site.SameByName other) : Rule.interfaceMock? other = Rule.interfaceMock? site := by
  by_cases mocked : ∃ creation typeNode, Rule.MocksInterface site creation typeNode
  · obtain ⟨creation, typeNode, mocks⟩ := mocked
    rw [Rule.interfaceMock?_of_mocks mocks, Rule.interfaceMock?_of_mocks (same.mocksInterface mocks), same.parent?,
      same.outerCall?, same.isStatement_eq, same.vocabulary]
    cases Rule.outerCall? site.unit (site.unit.parent? creation) with
    | none => rfl
    | some outer =>
        obtain ⟨name, called⟩ := outer
        cases called with
        | none => rfl
        | some id =>
            have sameName := same.methodName id
            simp only [Option.bind_some]
            cases theirs : other.symbols.method? id <;> cases ours : site.symbols.method? id <;> simp_all
  · push Not at mocked
    rw [Rule.interfaceMock?_eq_none mocked, Rule.interfaceMock?_eq_none]
    intro creation typeNode mocks
    exact mocked creation typeNode (same.symm.mocksInterface mocks)

end Site.SameByName

namespace Rule

variable {site : Site} {name : NodeId} {method : MethodBinding} {id : MethodId}

theorem accessorOnClass_reportsWhen (onClass : Severity) {receiver : Option NodeId} {result : Option TypeId}
    (isCall : site.kind? = some (.call name receiver (some id) result))
    (resolved : site.symbols.method? id = some method) :
    (accessorOnClass onClass).ReportsWhen site name
      (method.name = site.vocabulary.accessor ∧
        site.symbols.isMockBase site.vocabulary method.declaringType ∧
        ∃ type, result.bind site.symbols.type? = some type ∧ type.isInterface = false) := by
  cases result with
  | none => constructor <;> simp [accessorOnClass, isCall]
  | some result =>
      cases found : site.symbols.type? result with
      | none => constructor <;> simp [accessorOnClass, isCall, resolved, found]
      | some type =>
          constructor <;> simp +contextual [accessorOnClass, isCall, resolved, found]

/-- In a call of a resolved method the missing and the dropped instance are told apart by the name of that method. The
rule on mocks of classes asks for the same name, but for a base type that declares the method as well. -/
theorem accessor_known_by_name {site other : Site} (same : site.SameByName other)
    (missing discarded onClass : Severity) :
    (missingAccessor missing).findings other = (missingAccessor missing).findings site ∧
    (discardedInstance discarded).findings other = (discardedInstance discarded).findings site ∧
    ∀ creation typeNode call name receiver id result method, MocksInterface site creation typeNode →
      Lists site.unit.nodes call creation → site.unit.kind? call = some (.call name receiver (some id) result) →
      site.symbols.method? id = some method →
      (missingAccessor missing).ReportsWhen site typeNode (method.name ≠ site.vocabulary.accessor) ∧
      (discardedInstance discarded).ReportsWhen site name
        (method.name = site.vocabulary.accessor ∧ IsStatement site.unit call) ∧
      (accessorOnClass onClass).ReportsWhen ⟨site.unit, site.vocabulary, call⟩ name
        (method.name = site.vocabulary.accessor ∧
          site.symbols.isMockBase site.vocabulary method.declaringType ∧
          ∃ type, result.bind site.symbols.type? = some type ∧ type.isInterface = false) := by
  refine ⟨?_, ?_, ?_⟩
  · simp only [missingAccessor, same.interfaceMock?, same.vocabulary]
  · simp only [discardedInstance, same.interfaceMock?]
  · intro creation typeNode call name receiver id result method mocks inside isCall resolved
    have inCall : InCall site.unit creation call name (some id) := ⟨inside, receiver, result, isCall⟩
    obtain ⟨first, second⟩ := instanceRules_of_inCall missing discarded mocks inCall resolved
    exact ⟨first, second, accessorOnClass_reportsWhen onClass isCall resolved⟩

def factoryCall : Draft where
  path := "BagTest.java"
  source := some "factory.getMockInstance(new MockUp<Bag>() { });"
  nodes := #[⟨.compilationUnit, ⟨0, 47⟩, [⟨1⟩]⟩, ⟨.expressionStatement, ⟨0, 47⟩, [⟨2⟩]⟩,
    ⟨.call ⟨4⟩ (some ⟨3⟩) (some ⟨0⟩) (some ⟨2⟩), ⟨0, 46⟩, [⟨3⟩, ⟨4⟩, ⟨5⟩]⟩, ⟨.simpleName "factory" none, ⟨0, 7⟩, []⟩,
    ⟨.simpleName "getMockInstance" none, ⟨8, 15⟩, []⟩, ⟨.creation ⟨6⟩ (some ⟨1⟩), ⟨24, 21⟩, [⟨6⟩, ⟨7⟩]⟩,
    ⟨.typeRef (some ⟨0⟩), ⟨28, 11⟩, []⟩, ⟨.anonymousClass (some ⟨1⟩), ⟨42, 3⟩, []⟩]
  symbols :=
    { types := #[{ name := "MockUp", qualifiedName := "mockit.MockUp", typeArguments := [⟨2⟩] },
        { name := "", qualifiedName := "", superclass := some ⟨0⟩ },
        { name := "Bag", qualifiedName := "shop.Bag", isInterface := true },
        { name := "Factory", qualifiedName := "shop.Factory", methods := [⟨0⟩] }]
      methods := #[{ name := "getMockInstance", declaringType := ⟨3⟩ }] }

def accessorCall : Draft :=
  { factoryCall with
    nodes := factoryCall.nodes.modify 2 fun node => { node with kind := .call ⟨4⟩ (some ⟨5⟩) (some ⟨0⟩) (some ⟨2⟩) }
    symbols :=
      { factoryCall.symbols with methods := #[{ name := "getMockInstance", declaringType := ⟨0⟩ }] } }

theorem exists_factoryCall : ∃ unit, factoryCall.validate = .ok unit ∧ MocksInterface ⟨unit, {}, ⟨7⟩⟩ ⟨5⟩ ⟨6⟩ ∧
    Lists unit.nodes ⟨2⟩ ⟨5⟩ ∧ unit.kind? ⟨2⟩ = some (.call ⟨4⟩ (some ⟨3⟩) (some ⟨0⟩) (some ⟨2⟩)) ∧
    IsStatement unit ⟨2⟩ := by
  obtain ⟨unit, valid, seen⟩ := Draft.exists_of_validate_map (show (factoryCall.validate.map fun unit =>
    (unit.symbols.mockedTarget? {} ⟨1⟩, unit.parent? ⟨7⟩, unit.parent? ⟨5⟩, unit.parent? ⟨2⟩)) =
      .ok (some ⟨2⟩, some ⟨5⟩, some ⟨2⟩, some ⟨1⟩) by decide +kernel)
  simp only [Prod.mk.injEq, unit.parent?_eq_some] at seen
  obtain ⟨mocked, inCreation, inCall, inStatement⟩ := seen
  have described := Draft.describes_of_validate valid
  have bag : unit.symbols.type? ⟨2⟩ = some { name := "Bag", qualifiedName := "shop.Bag", isInterface := true } := by
    rw [described.symbols]
    rfl
  refine ⟨unit, valid, ?_, inCall, described.kind? ⟨2⟩, ⟨1⟩, inStatement, described.kind? ⟨1⟩⟩
  exact .of_target (described.kind? ⟨7⟩) mocked bag rfl (unit.parent?_eq_some.mpr inCreation) (described.kind? ⟨5⟩)

theorem accessor_known_by_name_factoryCall : ∃ unit other, factoryCall.validate = .ok unit ∧
    accessorCall.validate = .ok other ∧ Site.SameByName ⟨unit, {}, ⟨7⟩⟩ ⟨other, {}, ⟨7⟩⟩ ∧
    (discardedInstance .warning).findings ⟨other, {}, ⟨7⟩⟩ = (discardedInstance .warning).findings ⟨unit, {}, ⟨7⟩⟩ ∧
    ∃ finding, (discardedInstance .warning).findings ⟨unit, {}, ⟨7⟩⟩ = [finding] ∧ finding.anchor = ⟨4⟩ := by
  obtain ⟨unit, valid, mocks, inCall, isCall, isStatement⟩ := exists_factoryCall
  have parents : accessorCall.validate.map (·.parents) = factoryCall.validate.map (·.parents) := by decide +kernel
  rw [valid] at parents
  obtain ⟨other, accepted, sameParents⟩ := Draft.exists_of_validate_map parents
  have described := Draft.describes_of_validate valid
  have describedToo := Draft.describes_of_validate accepted
  have same : Site.SameByName ⟨unit, {}, ⟨7⟩⟩ ⟨other, {}, ⟨7⟩⟩ := by
    refine ⟨rfl, rfl, sameParents, ?_, ?_, ?_⟩
    · rw [describedToo.nodes, described.nodes]
      decide +kernel
    · rw [Site.symbols, Site.symbols, describedToo.symbols, described.symbols]
      rfl
    · rw [Site.symbols, Site.symbols, describedToo.symbols, described.symbols]
      decide +kernel
  have known := accessor_known_by_name same .warning .warning .warning
  have resolved : unit.symbols.method? ⟨0⟩ = some { name := "getMockInstance", declaringType := ⟨3⟩ } := by
    rw [described.symbols]
    rfl
  refine ⟨unit, other, valid, accepted, same, known.2.1, ?_⟩
  exact (known.2.2 ⟨5⟩ ⟨6⟩ ⟨2⟩ ⟨4⟩ _ _ _ _ mocks inCall isCall resolved).2.1.reports ⟨rfl, isStatement⟩

/-- The dropped instance of a mock is reported though the mock is not the receiver of the call but its argument, and no
base type declares the method. -/
theorem discardedInstance_reports_factoryCall : ∃ unit, factoryCall.validate = .ok unit ∧
    MocksInterface ⟨unit, {}, ⟨7⟩⟩ ⟨5⟩ ⟨6⟩ ∧ Lists unit.nodes ⟨2⟩ ⟨5⟩ ∧
    unit.kind? ⟨2⟩ = some (.call ⟨4⟩ (some ⟨3⟩) (some ⟨0⟩) (some ⟨2⟩)) ∧
    (∃ method, unit.symbols.method? ⟨0⟩ = some method ∧ ¬ unit.symbols.isMockBase {} method.declaringType) ∧
    ((discardedInstance .warning).findings ⟨unit, {}, ⟨7⟩⟩).map (·.anchor) = [⟨4⟩] ∧
    (missingAccessor .warning).findings ⟨unit, {}, ⟨7⟩⟩ = [] := by
  obtain ⟨unit, valid, mocks, inCall, isCall, isStatement⟩ := exists_factoryCall
  have symbols := (Draft.describes_of_validate valid).symbols
  have resolved : unit.symbols.method? ⟨0⟩ = some { name := "getMockInstance", declaringType := ⟨3⟩ } := by
    rw [symbols]
    rfl
  have inside : InCall unit ⟨5⟩ ⟨2⟩ ⟨4⟩ (some ⟨0⟩) := ⟨inCall, _, _, isCall⟩
  obtain ⟨first, second⟩ := instanceRules_of_inCall .warning .warning mocks inside resolved
  obtain ⟨finding, one, anchor⟩ := second.reports ⟨rfl, isStatement⟩
  refine ⟨unit, valid, mocks, inCall, isCall, ⟨_, resolved, ?_⟩, by simp [one, anchor], first.silent (not_not_intro rfl)⟩
  rw [symbols]
  decide +kernel

end Rule
end MockAudit
