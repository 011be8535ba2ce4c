import MockAudit.Proofs.Idiom.Hierarchy
import MockAudit.Rule.Catalogue

/-!
# What the rules look at

A rule looks at a site through a narrow window: the kinds of the node and of the nodes around it, the receiver of a
call, the symbol tables, and the vocabulary less the imports it recognises.
-/

namespace MockAudit

/-! ## Corresponding sites -/

def Site.scope (site : Site) : List NodeId := site.node :: site.unit.ancestors site.node

theorem Site.mem_scope_of_parent? (site : Site) {id parent : NodeId} (inScope : id ∈ site.scope)
    (above : site.unit.parent? id = some parent) : parent ∈ site.scope := by
  obtain ⟨index, found⟩ := List.getElem?_of_mem inScope
  have next := site.unit.getElem?_ancestors site.node index
  rw [← Site.scope, found, Option.bind_some, above] at next
  exact List.mem_of_getElem? next

structure Site.Corresponds (ρ : Renumbering) (site other : Site) : Prop where
  symbols : site.symbols.Renumbered ρ other.symbols
  idiom : site.vocabulary.SameIdiom other.vocabulary
  scope : other.scope = site.scope.map ρ.ref
  kind : ∀ id ∈ site.scope, other.unit.kind? (ρ.ref id) = (site.unit.kind? id).map ρ.kind
  receiver : ∀ name receiver method result, site.kind? = some (.call name (some receiver) method result) →
    other.unit.kind? (ρ.ref receiver) = (site.unit.kind? receiver).map ρ.kind

namespace Renumbering

variable (ρ : Renumbering)

def classification (c : Classification) : Classification := { c with target := c.target.map ρ.ref }

def finding (finding : Finding) : Finding := { finding with anchor := ρ.ref finding.anchor }

@[simp] theorem identity_finding : identity.finding = id := rfl

def mockedDeclaration (decl : Rule.MockedDeclaration) : Rule.MockedDeclaration :=
  ⟨ρ.ref decl.name, ρ.ref decl.method, ρ.ref decl.target, decl.real.map ρ.ref⟩

def interfaceMock (mock : Rule.InterfaceMock) : Rule.InterfaceMock :=
  ⟨ρ.ref mock.typeNode, mock.accessorName.map ρ.ref, mock.isDiscarded⟩

end Renumbering

namespace Site.Corresponds

variable {ρ : Renumbering} {site other : Site}

theorem node (same : Corresponds ρ site other) : other.node = ρ.ref site.node := (List.cons.inj same.scope).1

theorem ancestors (same : Corresponds ρ site other) :
    other.unit.ancestors other.node = (site.unit.ancestors site.node).map ρ.ref := (List.cons.inj same.scope).2

theorem kind? (same : Corresponds ρ site other) : other.kind? = site.kind?.map ρ.kind := by
  rw [Site.kind?, same.node]
  exact same.kind site.node List.mem_cons_self

theorem parent? (same : Corresponds ρ site other) {id : NodeId} (inScope : id ∈ site.scope) :
    other.unit.parent? (ρ.ref id) = (site.unit.parent? id).map ρ.ref := by
  obtain ⟨index, found⟩ := List.getElem?_of_mem inScope
  have next := site.unit.getElem?_ancestors site.node index
  have otherNext := other.unit.getElem?_ancestors other.node index
  rw [← Site.scope] at next otherNext
  rw [same.scope, List.getElem?_map, List.getElem?_map, found, next, found] at otherNext
  exact otherNext.symm

theorem findSome?_ancestors (same : Corresponds ρ site other) {α : Type} {f g : NodeId → Option α} {h : α → α}
    (agree : ∀ id ∈ site.scope, g (ρ.ref id) = (f id).map h) :
    (other.unit.ancestors other.node).findSome? g = ((site.unit.ancestors site.node).findSome? f).map h := by
  have within : ∀ id ∈ site.unit.ancestors site.node, g (ρ.ref id) = (f id).map h :=
    fun id member => agree id (List.mem_cons_of_mem _ member)
  rw [same.ancestors]
  generalize site.unit.ancestors site.node = chain at within
  induction chain with
  | nil => rfl
  | cons id chain ih =>
      have rest := ih fun other member => within other (List.mem_cons_of_mem _ member)
      simp only [List.map_cons, List.findSome?_cons, within id List.mem_cons_self, rest]
      cases f id <;> rfl

/-! ## Classification -/

theorem enclosingType? (same : Corresponds ρ site other) :
    other.enclosingType? = site.enclosingType?.map ρ.ref := by
  unfold Site.enclosingType?
  rw [same.findSome?_ancestors (h := Option.map ρ.ref)]
  · cases List.findSome? _ _ <;> rfl
  · intro id member
    rw [same.kind id member]
    cases site.unit.kind? id with
    | none => rfl
    | some kind =>
        simp only [Option.map_some, Renumbering.kind_isTypeBody, Renumbering.kind_bodyType?]
        split <;> rfl

theorem enclosingMock? (same : Corresponds ρ site other) :
    other.enclosingMock? = site.enclosingMock?.map ρ.ref := by
  unfold Site.enclosingMock?
  rw [same.findSome?_ancestors (h := Option.map ρ.ref)]
  · generalize List.findSome? _ _ = declared
    cases declared with
    | none => rfl
    | some method =>
        cases method with
        | none => rfl
        | some method =>
            simp only [Option.map_some, Option.join_some, Option.filter_some,
              same.symbols.isMockMethod same.idiom]
            split <;> rfl
  · intro id member
    rw [same.kind id member]
    cases site.unit.kind? id with
    | none => rfl
    | some kind => cases kind <;> rfl

theorem defines (same : Corresponds ρ site other) (type : Option TypeId) :
    other.defines (type.map ρ.ref) = site.defines type := by
  cases type with
  | none => rfl
  | some type => exact same.symbols.isMockDefinition same.idiom type

theorem targetOf (same : Corresponds ρ site other) (type : Option TypeId) :
    (type.map ρ.ref).bind (other.symbols.mockedTarget? other.vocabulary) =
      (type.bind (site.symbols.mockedTarget? site.vocabulary)).map ρ.ref := by
  cases type with
  | none => rfl
  | some type => exact same.symbols.mockedTarget? same.idiom type

theorem classification (same : Corresponds ρ site other) :
    other.classification = ρ.classification site.classification := by
  unfold Site.classification Site.target? Site.relevantType?
  rw [same.kind?]
  cases site.kind? with
  | none => rfl
  | some kind =>
      cases kind with
      | methodDecl name method =>
          simp only [Option.map_some, Renumbering.kind, Renumbering.classification, same.enclosingType?,
            same.targetOf, same.defines]
          cases method with
          | none => rfl
          | some method =>
              simp [same.symbols.isMockMethod same.idiom, same.symbols.isReentrant same.idiom]
      | anonymousClass type =>
          simp only [Option.map_some, Renumbering.kind, Renumbering.classification, same.targetOf, same.defines]
      | typeDecl name type =>
          simp only [Option.map_some, Renumbering.kind, Renumbering.classification, same.targetOf, same.defines]
      | call name receiver method result =>
          simp only [Option.map_some, Renumbering.kind, Renumbering.classification, same.enclosingType?,
            same.targetOf, same.defines]
      | compilationUnit | importDecl | creation | fieldDecl | simpleName | typeRef | expressionStatement
      | block | other => rfl

theorem typeName (same : Corresponds ρ site other) (type : TypeId) :
    other.typeName (ρ.ref type) = site.typeName type := by
  unfold Site.typeName
  rw [same.symbols.type?]
  cases site.symbols.type? type <;> rfl

theorem methodName? (same : Corresponds ρ site other) : other.methodName? = site.methodName? := by
  have nameOf (method : Option MethodId) : ((method.map ρ.ref).bind other.symbols.method?).map (·.name) =
      (method.bind site.symbols.method?).map (·.name) := by
    cases method with
    | none => rfl
    | some method =>
        simp only [Option.map_some, Option.bind_some, same.symbols.method?]
        cases site.symbols.method? method <;> rfl
  unfold Site.methodName?
  rw [same.kind?]
  cases site.kind? with
  | none => rfl
  | some kind => cases kind <;> first | exact nameOf _ | rfl

end Site.Corresponds

/-! ## The rules of the catalogue -/

namespace Rule

def IsInvariant (rule : Rule) : Prop :=
  ∀ (ρ : Renumbering) (site other : Site), site.Corresponds ρ other →
    rule.findings other = (rule.findings site).map ρ.finding

def IsBuiltIn (rule : Rule) : Prop := ∃ code severity, withCode? code severity = some rule

variable {ρ : Renumbering} {site other : Site}

theorem mockedDeclaration?_corresponds (same : site.Corresponds ρ other) :
    mockedDeclaration? other = (mockedDeclaration? site).map ρ.mockedDeclaration := by
  unfold mockedDeclaration?
  rw [same.kind?, same.classification]
  cases site.kind? with
  | none => rfl
  | some kind =>
      cases kind with
      | methodDecl name method =>
          cases method with
          | none => rfl
          | some method =>
              simp only [Option.map_some, Renumbering.kind, Renumbering.classification]
              cases site.classification.target with
              | none => rfl
              | some target =>
                  simp [Renumbering.mockedDeclaration, same.symbols.realMethod? same.idiom]
      | _ => rfl

theorem missingMarker_isInvariant (severity : Severity) : (missingMarker severity).IsInvariant := by
  intro ρ site other same
  simp only [missingMarker, mockedDeclaration?_corresponds same, same.classification, same.methodName?,
    same.idiom.markerName]
  cases mockedDeclaration? site with
  | none => rfl
  | some decl =>
      simp only [Option.map_some, Renumbering.mockedDeclaration, Renumbering.classification, Option.isNone_map]
      split <;> rfl

theorem danglingMarker_isInvariant (severity : Severity) : (danglingMarker severity).IsInvariant := by
  intro ρ site other same
  simp only [danglingMarker, mockedDeclaration?_corresponds same, same.classification]
  cases mockedDeclaration? site with
  | none => rfl
  | some decl =>
      simp only [Option.map_some, Renumbering.mockedDeclaration, Renumbering.classification, Option.isSome_map,
        same.typeName]
      split <;> rfl

theorem privateMock_isInvariant (severity : Severity) : (privateMock severity).IsInvariant := by
  intro ρ site other same
  simp only [privateMock, mockedDeclaration?_corresponds same, same.classification]
  cases mockedDeclaration? site with
  | none => rfl
  | some decl =>
      simp only [Option.map_some, Renumbering.mockedDeclaration, Renumbering.classification, Option.isNone_map,
        same.symbols.method?, Option.any_map]
      change (if (_ || !(site.symbols.method? decl.method).any (·.isPrivate)) = true then _ else _) = _
      split <;> rfl

theorem outerCall?_corresponds (same : site.Corresponds ρ other) {outer : Option NodeId}
    (inScope : ∀ id, outer = some id → id ∈ site.scope) :
    outerCall? other.unit (outer.map ρ.ref) =
      (outerCall? site.unit outer).map fun (name, method) => (ρ.ref name, method.map ρ.ref) := by
  unfold outerCall?
  cases outer with
  | none => rfl
  | some id =>
      simp only [Option.map_some, Option.bind_some, same.kind id (inScope id rfl)]
      cases site.unit.kind? id with
      | none => rfl
      | some kind => cases kind <;> rfl

theorem isStatement_corresponds (same : site.Corresponds ρ other) {outer : Option NodeId}
    (inScope : ∀ id, outer = some id → id ∈ site.scope) :
    (((outer.map ρ.ref).bind other.unit.parent?).bind other.unit.kind? == some .expressionStatement) =
      ((outer.bind site.unit.parent?).bind site.unit.kind? == some .expressionStatement) := by
  cases outer with
  | none => rfl
  | some id =>
      have here := inScope id rfl
      simp only [Option.map_some, Option.bind_some, same.parent? here]
      cases parent : site.unit.parent? id with
      | none => rfl
      | some statement =>
          simp only [Option.map_some, Option.bind_some, same.kind statement (site.mem_scope_of_parent? here parent)]
          cases site.unit.kind? statement with
          | none => rfl
          | some kind => cases kind <;> rfl

theorem interfaceMock?_corresponds (same : site.Corresponds ρ other) :
    interfaceMock? other = (interfaceMock? site).map ρ.interfaceMock := by
  have here : site.node ∈ site.scope := List.mem_cons_self
  unfold interfaceMock?
  rw [same.kind?, same.classification, same.node]
  cases site.kind? with
  | none => rfl
  | some kind =>
      cases kind with
      | anonymousClass type =>
          refine bind_renumbered (guard_renumbered Iff.rfl) fun _ _ => ?_
          refine bind_renumbered (f := ρ.ref) rfl fun target _ => ?_
          refine bind_renumbered (same.symbols.type? target) fun binding _ => ?_
          refine bind_renumbered (guard_renumbered Iff.rfl) fun _ _ => ?_
          refine bind_renumbered (same.parent? here) fun creation parent => ?_
          have around := site.mem_scope_of_parent? here parent
          have further (id : NodeId) (above : site.unit.parent? creation = some id) : id ∈ site.scope :=
            site.mem_scope_of_parent? around above
          simp only [same.kind creation around, same.parent? around, outerCall?_corresponds same further,
            isStatement_corresponds same further]
          cases site.unit.kind? creation with
          | none => rfl
          | some kind =>
              cases kind with
              | creation typeNode type =>
                  simp only [Option.map_some, Renumbering.kind]
                  cases outerCall? site.unit (site.unit.parent? creation) with
                  | none => rfl
                  | some call =>
                      obtain ⟨name, called⟩ := call
                      refine bind_renumbered (f := ρ.ref) rfl fun method _ => ?_
                      refine bind_renumbered (same.symbols.method? method) fun binding _ => ?_
                      simp only [Renumbering.method, same.idiom.accessor]
                      split <;> rfl
              | _ => rfl
      | _ => rfl

theorem missingAccessor_isInvariant (severity : Severity) : (missingAccessor severity).IsInvariant := by
  intro ρ site other same
  simp only [missingAccessor, interfaceMock?_corresponds same, same.idiom.accessor, same.idiom.baseName]
  cases interfaceMock? site with
  | none => rfl
  | some mock =>
      simp only [Option.map_some, Renumbering.interfaceMock, Option.isSome_map]
      split <;> rfl

theorem discardedInstance_isInvariant (severity : Severity) : (discardedInstance severity).IsInvariant := by
  intro ρ site other same
  simp only [discardedInstance, interfaceMock?_corresponds same]
  cases interfaceMock? site with
  | none => rfl
  | some mock =>
      obtain ⟨typeNode, accessorName, isDiscarded⟩ := mock
      cases accessorName <;> cases isDiscarded <;> rfl

theorem accessorOnClass_isInvariant (severity : Severity) : (accessorOnClass severity).IsInvariant := by
  intro ρ site other same
  simp only [accessorOnClass, same.kind?, same.idiom.accessor]
  cases site.kind? with
  | none => rfl
  | some kind =>
      cases kind with
      | call name receiver method result =>
          cases method with
          | none => rfl
          | some method =>
              cases result with
              | none => rfl
              | some result =>
                  simp only [Option.map_some, Renumbering.kind, same.symbols.method?, same.symbols.type?]
                  cases site.symbols.method? method with
                  | none => rfl
                  | some method =>
                      cases site.symbols.type? result with
                      | none => rfl
                      | some type =>
                          simp only [Option.map_some, Renumbering.method, Renumbering.type,
                            same.symbols.isMockBase same.idiom]
                          split <;> rfl
      | _ => rfl

theorem delegateField?_corresponds (same : site.Corresponds ρ other) {receiver : NodeId}
    (kind : other.unit.kind? (ρ.ref receiver) = (site.unit.kind? receiver).map ρ.kind) :
    delegateField? other (ρ.ref receiver) = (delegateField? site receiver).map ρ.field := by
  unfold delegateField?
  rw [kind]
  cases site.unit.kind? receiver with
  | none => rfl
  | some kind =>
      cases kind with
      | simpleName identifier target =>
          cases target with
          | none => rfl
          | some target =>
              cases target with
              | var field =>
                  simp only [Option.map_some, Renumbering.kind, Renumbering.target, same.idiom.delegate,
                    same.symbols.field?]
                  split
                  · cases site.symbols.field? field with
                    | none => rfl
                    | some binding =>
                        simp only [Option.map_some, Option.filter_some, Renumbering.field]
                        split <;> rfl
                  · rfl
              | type | method => rfl
      | _ => rfl

theorem selfInvoked?_corresponds (same : site.Corresponds ρ other) :
    selfInvoked? other = (selfInvoked? site).map ρ.method := by
  have oneToOne := Option.map_injective (ρ.ref : Equiv.Perm TypeId).injective
  unfold selfInvoked?
  rw [same.kind?, same.classification, same.enclosingMock?]
  cases found : site.kind? with
  | none => rfl
  | some kind =>
      cases kind with
      | call name receiver called result =>
          cases receiver with
          | none => rfl
          | some receiver =>
              cases called with
              | none => rfl
              | some called =>
                  have receiverKind := same.receiver _ _ _ _ found
                  refine bind_renumbered (delegateField?_corresponds same receiverKind) fun field _ => ?_
                  refine bind_renumbered (f := ρ.ref) rfl fun id _ => ?_
                  refine bind_renumbered (same.symbols.method? id) fun mock _ => ?_
                  refine bind_renumbered (guard_renumbered ?_) fun _ _ => ?_
                  · exact oneToOne.eq_iff (b := some mock.declaringType)
                  refine bind_renumbered (guard_renumbered ?_) fun _ _ => ?_
                  · rw [same.symbols.sameSignature]
                  refine bind_renumbered (f := ρ.ref) rfl fun target _ => ?_
                  refine bind_renumbered (guard_renumbered ?_) fun _ _ => ?_
                  · exact oneToOne.eq_iff (b := some target)
                  refine bind_renumbered (guard_renumbered ?_) fun _ _ => ?_
                  · rw [same.symbols.isReentrant same.idiom]
                  rfl
      | _ => rfl

theorem selfInvocation_isInvariant (severity : Severity) : (selfInvocation severity).IsInvariant := by
  intro ρ site other same
  simp only [selfInvocation, selfInvoked?_corresponds same, same.idiom.markerName, same.idiom.reentrancy, same.node]
  cases selfInvoked? site <;> rfl

theorem IsBuiltIn.isInvariant {rule : Rule} (builtIn : rule.IsBuiltIn) : rule.IsInvariant := by
  obtain ⟨code, severity, found⟩ := builtIn
  have member := List.mem_of_find?_eq_some found
  simp only [List.mem_cons, List.not_mem_nil, or_false] at member
  rcases member with rfl | rfl | rfl | rfl | rfl | rfl | rfl
  · exact missingMarker_isInvariant severity
  · exact danglingMarker_isInvariant severity
  · exact privateMock_isInvariant severity
  · exact missingAccessor_isInvariant severity
  · exact discardedInstance_isInvariant severity
  · exact accessorOnClass_isInvariant severity
  · exact selfInvocation_isInvariant severity

theorem isBuiltIn_of_mem_catalogue {rule : Rule} (member : rule ∈ catalogue) : rule.IsBuiltIn := by
  simp only [catalogue, List.mem_cons, List.not_mem_nil, or_false] at member
  rcases member with rfl | rfl | rfl | rfl | rfl | rfl | rfl
  · exact ⟨"ML001", _, rfl⟩
  · exact ⟨"ML002", _, rfl⟩
  · exact ⟨"ML003", _, rfl⟩
  · exact ⟨"ML004", _, rfl⟩
  · exact ⟨"ML005", _, rfl⟩
  · exact ⟨"ML006", _, rfl⟩
  · exact ⟨"ML007", _, rfl⟩

end Rule
end MockAudit
