import MockAudit.Proofs.Rule.Declarations
import MockAudit.Rule.Instances

namespace MockAudit.Rule

variable {site : Site} {creation typeNode call name : NodeId} {called : Option MethodId}

structure MocksInterface (site : Site) (creation typeNode : NodeId) : Prop where
  mocks : ∃ type k base target interface, site.kind? = some (.anonymousClass (some type)) ∧
    site.symbols.NearestBase site.vocabulary type k base ∧ site.symbols.Targets base target ∧
    site.symbols.type? target = some interface ∧ interface.isInterface = true
  inCreation : Lists site.unit.nodes creation site.node
  isCreation : ∃ created, site.unit.kind? creation = some (.creation typeNode created)

def InCall (unit : CompilationUnit) (id call name : NodeId) (called : Option MethodId) : Prop :=
  Lists unit.nodes call id ∧ ∃ receiver result, unit.kind? call = some (.call name receiver called result)

def IsStatement (unit : CompilationUnit) (call : NodeId) : Prop :=
  ∃ statement, Lists unit.nodes statement call ∧ unit.kind? statement = some .expressionStatement

theorem outerCall?_eq_some {unit : CompilationUnit} {id : NodeId} :
    outerCall? unit (unit.parent? id) = some (name, called) ↔ ∃ call, InCall unit id call name called := by
  unfold outerCall? InCall
  simp only [← unit.parent?_eq_some]
  cases unit.parent? id with
  | none => simp
  | some outer =>
      cases kind : unit.kind? outer with
      | none => simp [kind]
      | some found => cases found <;> simp [kind]

theorem interfaceMock?_of_mocks (mocks : MocksInterface site creation typeNode) :
    interfaceMock? site =
      match outerCall? site.unit (site.unit.parent? creation) with
      | none => some ⟨typeNode, none, false⟩
      | some (name, called) => (called.bind site.symbols.method?).bind fun method =>
          if method.name = site.vocabulary.accessor then
            some ⟨typeNode, some name, ((site.unit.parent? creation).bind site.unit.parent?).bind site.unit.kind? ==
              some .expressionStatement⟩
          else some ⟨typeNode, none, false⟩ := by
  obtain ⟨type, k, base, target, interface, isClass, nearest, targets, resolved, isInterface⟩ := mocks.mocks
  obtain ⟨created, isCreation⟩ := mocks.isCreation
  have definition := Symbols.isMockDefinition_iff.mpr ⟨k, base, nearest⟩
  have mocked := Symbols.mockedTarget?_eq_some.mpr ⟨k, base, nearest, targets⟩
  have parent := site.unit.parent?_eq_some.mpr mocks.inCreation
  have seen : site.classification = { target := some target, isDefinition := true } := by
    simp [Site.classification, Site.target?, Site.relevantType?, Site.defines, isClass, definition, mocked]
  simp only [interfaceMock?, isClass, seen, guard_true, Option.pure_def, Option.bind_eq_bind, Option.bind_some,
    resolved, isInterface, parent, isCreation]
  cases outerCall? site.unit (site.unit.parent? creation) with
  | none => rfl
  | some outer =>
      obtain ⟨name, called⟩ := outer
      cases called <;> rfl

theorem MocksInterface.of_target {type target : TypeId} {interface : TypeBinding} {created : Option TypeId}
    (isClass : site.kind? = some (.anonymousClass (some type)))
    (mocked : site.symbols.mockedTarget? site.vocabulary type = some target)
    (resolved : site.symbols.type? target = some interface) (isInterface : interface.isInterface = true)
    (parent : site.unit.parent? site.node = some creation)
    (isCreation : site.unit.kind? creation = some (.creation typeNode created)) :
    MocksInterface site creation typeNode := by
  obtain ⟨k, base, nearest, targets⟩ := Symbols.mockedTarget?_eq_some.mp mocked
  refine ⟨?_, site.unit.parent?_eq_some.mp parent, created, isCreation⟩
  exact ⟨type, k, base, target, interface, isClass, nearest, targets, resolved, isInterface⟩

theorem exists_mocks_of_interfaceMock? {mock : InterfaceMock} (found : interfaceMock? site = some mock) :
    ∃ creation typeNode, MocksInterface site creation typeNode := by
  unfold interfaceMock? at found
  split at found
  · rename_i type isClass
    simp only [Option.bind_eq_bind, Option.bind_eq_some_iff, Option.guard_eq_some', exists_const] at found
    obtain ⟨definition, target, mocked, interface, resolved, isInterface, creation, parent, found⟩ := found
    split at found
    · rename_i typeNode created isCreation
      have seen : type.bind (site.symbols.mockedTarget? site.vocabulary) = some target := by
        simpa [Site.classification, Site.target?, Site.relevantType?, isClass] using mocked
      obtain ⟨id, rfl, chosen⟩ := Option.bind_eq_some_iff.mp seen
      exact ⟨creation, typeNode, .of_target isClass chosen resolved isInterface parent isCreation⟩
    · simp at found
  · simp at found

theorem interfaceMock?_eq_none (other : ∀ creation typeNode, ¬ MocksInterface site creation typeNode) :
    interfaceMock? site = none := by
  cases found : interfaceMock? site with
  | none => rfl
  | some mock =>
      obtain ⟨creation, typeNode, mocks⟩ := exists_mocks_of_interfaceMock? found
      exact absurd mocks (other creation typeNode)

def InUnresolvedCall (site : Site) (creation : NodeId) : Prop :=
  ∃ call name called, InCall site.unit creation call name called ∧ called.bind site.symbols.method? = none

def InAccessorCall (site : Site) (creation call name : NodeId) : Prop :=
  ∃ id method, InCall site.unit creation call name (some id) ∧ site.symbols.method? id = some method ∧
    method.name = site.vocabulary.accessor

theorem isStatement_iff {unit : CompilationUnit} {id : NodeId} (inside : Lists unit.nodes call id) :
    (((unit.parent? id).bind unit.parent?).bind unit.kind? == some .expressionStatement) = true ↔
      IsStatement unit call := by
  simp only [unit.parent?_eq_some.mpr inside, Option.bind_some, beq_iff_eq, Option.bind_eq_some_iff,
    unit.parent?_eq_some, IsStatement]

theorem interfaceMock?_of_unresolved (mocks : MocksInterface site creation typeNode)
    (unresolved : InUnresolvedCall site creation) : interfaceMock? site = none := by
  obtain ⟨call, name, called, inCall, missing⟩ := unresolved
  rw [interfaceMock?_of_mocks mocks, outerCall?_eq_some.mpr ⟨call, inCall⟩]
  simp [missing]

theorem interfaceMock?_of_inCall (mocks : MocksInterface site creation typeNode) {id : MethodId}
    (inCall : InCall site.unit creation call name (some id)) {method : MethodBinding}
    (resolved : site.symbols.method? id = some method) :
    ∃ isDiscarded, interfaceMock? site = some ⟨typeNode,
        if method.name = site.vocabulary.accessor then some name else none, isDiscarded⟩ ∧
      (method.name = site.vocabulary.accessor → (isDiscarded = true ↔ IsStatement site.unit call)) := by
  rw [interfaceMock?_of_mocks mocks, outerCall?_eq_some.mpr ⟨call, inCall⟩]
  simp only [Option.bind_some, resolved]
  by_cases named : method.name = site.vocabulary.accessor
  · rw [if_pos named, if_pos named]
    exact ⟨_, rfl, fun _ => isStatement_iff inCall.1⟩
  · rw [if_neg named, if_neg named]
    exact ⟨_, rfl, fun same => absurd same named⟩

theorem interfaceMock?_of_free (mocks : MocksInterface site creation typeNode)
    (free : ∀ call name called, ¬ InCall site.unit creation call name called) :
    interfaceMock? site = some ⟨typeNode, none, false⟩ := by
  rw [interfaceMock?_of_mocks mocks]
  cases outer : outerCall? site.unit (site.unit.parent? creation) with
  | none => rfl
  | some found =>
      obtain ⟨call, inCall⟩ := outerCall?_eq_some.mp outer
      exact absurd inCall (free call found.1 found.2)

theorem silent_of_none (missing discarded : Severity) (none : interfaceMock? site = none) :
    (missingAccessor missing).findings site = [] ∧ (discardedInstance discarded).findings site = [] := by
  simp [missingAccessor, discardedInstance, none]

theorem reports_of_unasked (missing discarded : Severity) {isDiscarded : Bool}
    (found : interfaceMock? site = some ⟨typeNode, none, isDiscarded⟩) :
    (∃ finding, (missingAccessor missing).findings site = [finding] ∧ finding.anchor = typeNode) ∧
      (discardedInstance discarded).findings site = [] := by
  simp [missingAccessor, discardedInstance, found]

theorem reports_of_asked (missing discarded : Severity) {isDiscarded : Bool}
    (found : interfaceMock? site = some ⟨typeNode, some name, isDiscarded⟩) :
    (missingAccessor missing).findings site = [] ∧
      (discardedInstance discarded).ReportsWhen site name (isDiscarded = true) := by
  refine ⟨by simp [missingAccessor, found], ?_⟩
  cases isDiscarded <;> constructor <;> simp [discardedInstance, found]

theorem instanceRules_of_inCall (missing discarded : Severity) (mocks : MocksInterface site creation typeNode)
    {id : MethodId} {method : MethodBinding} (inCall : InCall site.unit creation call name (some id))
    (resolved : site.symbols.method? id = some method) :
    (missingAccessor missing).ReportsWhen site typeNode (method.name ≠ site.vocabulary.accessor) ∧
      (discardedInstance discarded).ReportsWhen site name
        (method.name = site.vocabulary.accessor ∧ IsStatement site.unit call) := by
  obtain ⟨isDiscarded, found, dropped⟩ := interfaceMock?_of_inCall mocks inCall resolved
  by_cases named : method.name = site.vocabulary.accessor
  · rw [if_pos named] at found
    obtain ⟨noFirst, second⟩ := reports_of_asked missing discarded found
    rw [dropped named] at second
    refine ⟨⟨fun unnamed => absurd named unnamed, fun _ => noFirst⟩, ?_⟩
    rwa [and_iff_right named]
  · rw [if_neg named] at found
    obtain ⟨first, noSecond⟩ := reports_of_unasked missing discarded found
    exact ⟨⟨fun _ => first, fun unnamed => absurd named unnamed⟩, ⟨fun both => absurd both.1 named, fun _ => noSecond⟩⟩

theorem length_instance_findings_le_one (site : Site) (missing discarded : Severity) :
    ((missingAccessor missing).findings site ++ (discardedInstance discarded).findings site).length ≤ 1 := by
  cases found : interfaceMock? site with
  | none =>
      obtain ⟨noFirst, noSecond⟩ := silent_of_none missing discarded found
      simp [noFirst, noSecond]
  | some mock =>
      obtain ⟨typeNode, accessorName, isDiscarded⟩ := mock
      cases accessorName with
      | none =>
          obtain ⟨⟨finding, one, -⟩, noSecond⟩ := reports_of_unasked missing discarded found
          simp [one, noSecond]
      | some name =>
          obtain ⟨noFirst, second⟩ := reports_of_asked missing discarded found
          simpa [noFirst] using second.length_le_one

/-- The rules divide the anonymous classes that mock an interface by what stands around their creation: a call that
cannot be resolved, a call of the accessor, or anything else. -/
theorem instanceRules_partition (site : Site) (missing discarded : Severity) :
    ((missingAccessor missing).findings site ++ (discardedInstance discarded).findings site).length ≤ 1 ∧
    (∀ creation typeNode, MocksInterface site creation typeNode →
      (InUnresolvedCall site creation →
        (missingAccessor missing).findings site = [] ∧ (discardedInstance discarded).findings site = []) ∧
      (∀ call name, InAccessorCall site creation call name →
        (missingAccessor missing).findings site = [] ∧
          (discardedInstance discarded).ReportsWhen site name (IsStatement site.unit call)) ∧
      (¬ InUnresolvedCall site creation → (∀ call name, ¬ InAccessorCall site creation call name) →
        (∃ finding, (missingAccessor missing).findings site = [finding] ∧ finding.anchor = typeNode) ∧
          (discardedInstance discarded).findings site = [])) ∧
    ((∀ creation typeNode, ¬ MocksInterface site creation typeNode) →
      (missingAccessor missing).findings site = [] ∧ (discardedInstance discarded).findings site = []) := by
  refine ⟨length_instance_findings_le_one site missing discarded, ?_, ?_⟩
  · intro creation typeNode mocks
    refine ⟨fun unresolved => silent_of_none missing discarded (interfaceMock?_of_unresolved mocks unresolved), ?_, ?_⟩
    · rintro call name ⟨id, method, inCall, resolved, named⟩
      obtain ⟨first, second⟩ := instanceRules_of_inCall missing discarded mocks inCall resolved
      rw [and_iff_right named] at second
      exact ⟨first.silent (not_not_intro named), second⟩
    · intro resolvable unasked
      by_cases free : ∀ call name called, ¬ InCall site.unit creation call name called
      · exact reports_of_unasked missing discarded (interfaceMock?_of_free mocks free)
      · push Not at free
        obtain ⟨call, name, called, inCall⟩ := free
        cases resolved : called.bind site.symbols.method? with
        | none => exact absurd ⟨call, name, called, inCall, resolved⟩ resolvable
        | some method =>
            obtain ⟨id, rfl, isMethod⟩ := Option.bind_eq_some_iff.mp resolved
            obtain ⟨first, second⟩ := instanceRules_of_inCall missing discarded mocks inCall isMethod
            have unnamed : method.name ≠ site.vocabulary.accessor :=
              fun named => unasked call name ⟨id, method, inCall, isMethod, named⟩
            exact ⟨first.reports unnamed, second.silent fun both => unnamed both.1⟩
  · intro other
    exact silent_of_none missing discarded (interfaceMock?_eq_none other)

/-- Three mocks of an interface: the instance of the first is asked for and dropped, the second is passed to a call that
cannot be resolved, and the third stands alone. -/
def threeMocks : Draft where
  path := "BagTest.java"
  source := some "new MockUp<Bag>() { }.getMockInstance(); use(new MockUp<Bag>() { }); new MockUp<Bag>() { };"
  nodes := #[⟨.compilationUnit, ⟨0, 91⟩, [⟨1⟩, ⟨7⟩, ⟨12⟩]⟩, ⟨.expressionStatement, ⟨0, 40⟩, [⟨2⟩]⟩,
    ⟨.call ⟨6⟩ (some ⟨3⟩) (some ⟨0⟩) (some ⟨2⟩), ⟨0, 39⟩, [⟨3⟩, ⟨6⟩]⟩,
    ⟨.creation ⟨4⟩ (some ⟨1⟩), ⟨0, 21⟩, [⟨4⟩, ⟨5⟩]⟩, ⟨.typeRef (some ⟨0⟩), ⟨4, 11⟩, []⟩,
    ⟨.anonymousClass (some ⟨1⟩), ⟨18, 3⟩, []⟩, ⟨.simpleName "getMockInstance" none, ⟨22, 15⟩, []⟩,
    ⟨.call ⟨11⟩ none none none, ⟨41, 26⟩, [⟨11⟩, ⟨8⟩]⟩, ⟨.creation ⟨9⟩ (some ⟨1⟩), ⟨45, 21⟩, [⟨9⟩, ⟨10⟩]⟩,
    ⟨.typeRef (some ⟨0⟩), ⟨49, 11⟩, []⟩, ⟨.anonymousClass (some ⟨1⟩), ⟨63, 3⟩, []⟩,
    ⟨.simpleName "use" none, ⟨41, 3⟩, []⟩, ⟨.creation ⟨13⟩ (some ⟨1⟩), ⟨69, 21⟩, [⟨13⟩, ⟨14⟩]⟩,
    ⟨.typeRef (some ⟨0⟩), ⟨73, 11⟩, []⟩, ⟨.anonymousClass (some ⟨1⟩), ⟨87, 3⟩, []⟩]
  symbols :=
    { types := #[{ name := "MockUp", qualifiedName := "mockit.MockUp", typeArguments := [⟨2⟩] },
        { name := "", qualifiedName := "", superclass := some ⟨0⟩ },
        { name := "Bag", qualifiedName := "shop.Bag", isInterface := true }]
      methods := #[{ name := "getMockInstance", declaringType := ⟨0⟩, returnType := some ⟨2⟩ }] }

theorem instanceRules_partition_threeMocks : ∃ unit, threeMocks.validate = .ok unit ∧
    (∃ finding, (discardedInstance .warning).findings ⟨unit, {}, ⟨5⟩⟩ = [finding] ∧ finding.anchor = ⟨6⟩) ∧
    (missingAccessor .warning).findings ⟨unit, {}, ⟨10⟩⟩ = [] ∧
    ∃ finding, (missingAccessor .warning).findings ⟨unit, {}, ⟨14⟩⟩ = [finding] ∧ finding.anchor = ⟨13⟩ := by
  obtain ⟨unit, valid, -⟩ := Draft.exists_of_validate_map
    (show (threeMocks.validate.map fun _ => ()) = .ok () by decide +kernel)
  have described := Draft.describes_of_validate valid
  have lists {parent child : NodeId} (listed : Lists threeMocks.nodes parent child) : Lists unit.nodes parent child :=
    described.nodes.symm ▸ listed
  have mocked : unit.symbols.mockedTarget? {} ⟨1⟩ = some ⟨2⟩ := by
    rw [described.symbols]
    decide +kernel
  have bag : unit.symbols.type? ⟨2⟩ = some { name := "Bag", qualifiedName := "shop.Bag", isInterface := true } := by
    rw [described.symbols]
    rfl
  have mocks (id creation typeNode : NodeId)
      (isClass : (id.resolve threeMocks.nodes).map (·.kind) = some (.anonymousClass (some ⟨1⟩)))
      (isCreation : (creation.resolve threeMocks.nodes).map (·.kind) = some (.creation typeNode (some ⟨1⟩)))
      (listed : Lists threeMocks.nodes creation id) : MocksInterface ⟨unit, {}, id⟩ creation typeNode :=
    .of_target ((described.kind? id).trans isClass) mocked bag rfl
      (unit.parent?_eq_some.mpr (lists listed)) ((described.kind? creation).trans isCreation)
  have dropped := (instanceRules_partition ⟨unit, {}, ⟨5⟩⟩ .warning .warning).2.1 ⟨3⟩ ⟨4⟩
    (mocks ⟨5⟩ ⟨3⟩ ⟨4⟩ rfl rfl ⟨_, rfl, by decide⟩)
  have unclear := (instanceRules_partition ⟨unit, {}, ⟨10⟩⟩ .warning .warning).2.1 ⟨8⟩ ⟨9⟩
    (mocks ⟨10⟩ ⟨8⟩ ⟨9⟩ rfl rfl ⟨_, rfl, by decide⟩)
  have alone := (instanceRules_partition ⟨unit, {}, ⟨14⟩⟩ .warning .warning).2.1 ⟨12⟩ ⟨13⟩
    (mocks ⟨14⟩ ⟨12⟩ ⟨13⟩ rfl rfl ⟨_, rfl, by decide⟩)
  refine ⟨unit, valid, ?_, ?_, ?_⟩
  · have accessor : InAccessorCall ⟨unit, {}, ⟨5⟩⟩ ⟨3⟩ ⟨2⟩ ⟨6⟩ :=
      ⟨⟨0⟩, _, ⟨lists ⟨_, rfl, by decide⟩, _, _, described.kind? ⟨2⟩⟩, congrArg (·.method? ⟨0⟩) described.symbols, rfl⟩
    exact (dropped.2.1 ⟨2⟩ ⟨6⟩ accessor).2.reports ⟨⟨1⟩, lists ⟨_, rfl, by decide⟩, described.kind? ⟨1⟩⟩
  · exact (unclear.1 ⟨⟨7⟩, ⟨11⟩, none, ⟨lists ⟨_, rfl, by decide⟩, _, _, described.kind? ⟨7⟩⟩, rfl⟩).1
  · have free (call name : NodeId) (called : Option MethodId) : ¬ InCall unit ⟨12⟩ call name called := by
      rintro ⟨inside, receiver, result, isCall⟩
      obtain rfl : call = ⟨0⟩ := unit.isLinked.unique inside (lists ⟨_, rfl, by decide⟩)
      have root : unit.kind? ⟨0⟩ = some .compilationUnit := described.kind? ⟨0⟩
      simp [root] at isCall
    refine (alone.2.2 ?_ ?_).1
    · rintro ⟨call, name, called, inCall, -⟩
      exact free call name called inCall
    · rintro call name ⟨id, method, inCall, -⟩
      exact free call name (some id) inCall

end MockAudit.Rule
