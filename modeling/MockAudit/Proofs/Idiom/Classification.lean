import MockAudit.Proofs.Rule.Declarations

namespace MockAudit

theorem findSome?_eq_of_only {α β : Type} {f : α → Option β} {x : α} {xs : List α} (member : x ∈ xs)
    (only : ∀ y ∈ xs, y ≠ x → f y = none) : xs.findSome? f = f x := by
  cases found : xs.findSome? f with
  | none => exact (List.findSome?_eq_none_iff.mp found x member).symm
  | some value =>
      obtain ⟨y, listed, hit⟩ := List.exists_of_findSome?_eq_some found
      obtain rfl : y = x := by
        by_contra other
        simp [only y listed other] at hit
      exact hit.symm

namespace Symbols

variable {symbols : Symbols} {v : Vocabulary} {type target : TypeId} {method : MethodId}

theorem isMockDefinition_of_mockedTarget? (mocks : symbols.mockedTarget? v type = some target) :
    symbols.isMockDefinition v type ∧
      ∃ binding, symbols.type? target = some binding ∧ binding.isTypeVariable = false := by
  obtain ⟨k, base, nearest, -, mocked, -, -, resolved, concrete⟩ := mockedTarget?_eq_some.mp mocks
  exact ⟨isMockDefinition_iff.mpr ⟨k, base, nearest⟩, mocked, resolved, concrete⟩

theorem isMockMethod_of_isReentrant (permitted : symbols.isReentrant v method) : symbols.isMockMethod v method := by
  unfold isReentrant at permitted
  unfold isMockMethod
  cases marker : symbols.marker? v method with
  | none => simp [marker] at permitted
  | some marking => rfl

end Symbols

namespace Site

variable {site : Site} {type target : TypeId} {method : MethodId}

theorem classification_target_or (site : Site) : site.classification.target = none ∨
    site.classification.target = site.target? ∧
      site.classification.isDefinition = site.defines site.relevantType? := by
  unfold classification
  split
  · rename_i name method isDecl
    exact .inr ⟨rfl, by simp [relevantType?, isDecl]⟩
  · rename_i type isBody
    exact .inr ⟨rfl, by simp [relevantType?, isBody]⟩
  · rename_i name type isBody
    exact .inr ⟨rfl, by simp [relevantType?, isBody]⟩
  · rename_i name receiver method result isCall
    exact .inr ⟨rfl, by simp [relevantType?, isCall]⟩
  · exact .inl rfl

theorem exists_of_classification_target (seen : site.classification.target = some target) :
    ∃ type, site.relevantType? = some type ∧ site.symbols.mockedTarget? site.vocabulary type = some target ∧
      site.classification.isDefinition = site.symbols.isMockDefinition site.vocabulary type := by
  rcases site.classification_target_or with none | ⟨same, definition⟩
  · simp [none] at seen
  · obtain ⟨type, relevant, mocks⟩ := Option.bind_eq_some_iff.mp (same.symm.trans seen)
    refine ⟨type, relevant, mocks, ?_⟩
    rw [definition, relevant]
    rfl

theorem classification_isMockMethod_iff : site.classification.isMockMethod ↔
    ∃ name method, site.kind? = some (.methodDecl name (some method)) ∧
      site.symbols.Marked site.vocabulary method := by
  simp only [← Symbols.isMockMethod_iff]
  unfold classification
  split <;> simp_all [Option.any_eq_true]

theorem isMockMethod_of_isReentrant (permitted : site.classification.isReentrant) :
    site.classification.isMockMethod := by
  unfold classification at permitted ⊢
  split at permitted
  · obtain ⟨method, bound, permitted⟩ := (Option.any_eq_true ..).mp permitted
    exact (Option.any_eq_true ..).mpr ⟨method, bound, Symbols.isMockMethod_of_isReentrant permitted⟩
  all_goals simp at permitted

theorem createdType?_of_only {body : NodeId} {type : Option TypeId}
    (isBody : site.unit.kind? body = some (.anonymousClass type)) (under : site.unit.parent? body = some site.node)
    (only : ∀ other type, site.unit.parent? other = some site.node →
      site.unit.kind? other = some (.anonymousClass type) → other = body) : site.createdType? = type := by
  obtain ⟨node, found, listed⟩ := site.unit.parent?_eq_some.mp under
  rw [createdType?, show site.unit.node? site.node = some node from found, Option.bind_some,
    findSome?_eq_of_only listed, isBody]
  intro other listedToo different
  split
  · rename_i type isOther
    exact absurd (only other type (site.unit.parent?_eq_some.mpr ⟨node, found, listedToo⟩) isOther) different
  · rfl

/-- A node with a target is in a mock definition, and the target is a resolved type and no type variable. A node that
permits reentrant calls declares a marked method. An instance creation with one anonymous class mocks what the class
mocks. -/
theorem classification_coherent (site : Site) :
    (∀ target, site.classification.target = some target → site.classification.isDefinition ∧
      ∃ binding, site.symbols.type? target = some binding ∧ binding.isTypeVariable = false) ∧
    (site.classification.isReentrant → site.classification.isMockMethod) ∧
    (site.classification.isMockMethod → ∃ name method, site.kind? = some (.methodDecl name (some method)) ∧
      site.symbols.Marked site.vocabulary method) ∧
    ∀ creation body typeNode created type, site.unit.kind? creation = some (.creation typeNode created) →
      site.unit.kind? body = some (.anonymousClass type) → site.unit.parent? body = some creation →
      (∀ other type, site.unit.parent? other = some creation →
        site.unit.kind? other = some (.anonymousClass type) → other = body) →
      target? { site with node := body } = target? { site with node := creation } := by
  refine ⟨fun target seen => ?_, isMockMethod_of_isReentrant, classification_isMockMethod_iff.mp, ?_⟩
  · obtain ⟨type, -, mocks, definition⟩ := exists_of_classification_target seen
    rw [definition]
    exact Symbols.isMockDefinition_of_mockedTarget? mocks
  · intro creation body typeNode created type isCreation isBody under only
    have own : relevantType? { site with node := body } = type := by simp [relevantType?, kind?, isBody]
    have same : relevantType? { site with node := creation } = type := by
      have createdType : createdType? { site with node := creation } = type :=
        createdType?_of_only isBody under only
      simp [relevantType?, kind?, isCreation, createdType]
    rw [target?, own, target?, same]
    rfl

def reentrantMock : Draft where
  path := "CartTest.java"
  source := some "new MockUp<Cart>() { @Mock(reentrant = true) void pay() { } }"
  nodes := #[⟨.compilationUnit, ⟨0, 61⟩, [⟨1⟩]⟩, ⟨.creation ⟨2⟩ (some ⟨1⟩), ⟨0, 61⟩, [⟨2⟩, ⟨3⟩]⟩,
    ⟨.typeRef (some ⟨0⟩), ⟨4, 12⟩, []⟩, ⟨.anonymousClass (some ⟨1⟩), ⟨19, 42⟩, [⟨4⟩]⟩,
    ⟨.methodDecl ⟨5⟩ (some ⟨0⟩), ⟨21, 38⟩, [⟨5⟩]⟩, ⟨.simpleName "pay" none, ⟨50, 3⟩, []⟩]
  symbols :=
    { types := #[{ name := "MockUp", qualifiedName := "mockit.MockUp", typeArguments := [⟨2⟩] },
        { name := "", qualifiedName := "", superclass := some ⟨0⟩ },
        { name := "Cart", qualifiedName := "shop.Cart" }]
      methods := #[{ name := "pay", declaringType := ⟨1⟩,
                     annotations := [⟨"mockit.Mock", .ofList [("reentrant", .bool true)]⟩] }] }

theorem classification_coherent_reentrantMock : ∃ unit, reentrantMock.validate = .ok unit ∧
    (classification ⟨unit, {}, ⟨4⟩⟩).target = some ⟨2⟩ ∧ (classification ⟨unit, {}, ⟨4⟩⟩).isDefinition ∧
    (classification ⟨unit, {}, ⟨4⟩⟩).isReentrant ∧ (classification ⟨unit, {}, ⟨4⟩⟩).isMockMethod ∧
    target? ⟨unit, {}, ⟨3⟩⟩ = some ⟨2⟩ ∧ target? ⟨unit, {}, ⟨1⟩⟩ = some ⟨2⟩ := by
  obtain ⟨unit, valid, seen⟩ := Draft.exists_of_validate_map (show (reentrantMock.validate.map fun unit =>
    ((classification ⟨unit, {}, ⟨4⟩⟩).target, (classification ⟨unit, {}, ⟨4⟩⟩).isReentrant,
      target? ⟨unit, {}, ⟨3⟩⟩, unit.parent? ⟨3⟩)) =
    .ok (some ⟨2⟩, true, some ⟨2⟩, some ⟨1⟩) by decide +kernel)
  simp only [Prod.mk.injEq] at seen
  obtain ⟨target, reentrant, mocked, under⟩ := seen
  have described := Draft.describes_of_validate valid
  have isCreation : unit.kind? ⟨1⟩ = some (.creation ⟨2⟩ (some ⟨1⟩)) := described.kind? ⟨1⟩
  have isBody : unit.kind? ⟨3⟩ = some (.anonymousClass (some ⟨1⟩)) := described.kind? ⟨3⟩
  have isTypeRef : unit.kind? ⟨2⟩ = some (.typeRef (some ⟨0⟩)) := described.kind? ⟨2⟩
  have only : ∀ other type, unit.parent? other = some ⟨1⟩ → unit.kind? other = some (.anonymousClass type) →
      other = ⟨3⟩ := by
    intro other type below isOther
    obtain ⟨node, found, listed⟩ := unit.parent?_eq_some.mp below
    rw [described.nodes] at found
    obtain rfl := Option.some.inj found
    rcases List.mem_pair.mp listed with rfl | rfl
    · simp [isTypeRef] at isOther
    · rfl
  obtain ⟨coherent, permitted, -, created⟩ := classification_coherent ⟨unit, {}, ⟨4⟩⟩
  refine ⟨unit, valid, target, (coherent ⟨2⟩ target).1, reentrant, permitted reentrant, mocked, ?_⟩
  exact (created ⟨1⟩ ⟨3⟩ _ _ _ isCreation isBody under only).symm.trans mocked

end Site
end MockAudit
