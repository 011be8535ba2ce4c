import MockAudit.Idiom.Hierarchy
import MockAudit.Proofs.Unit.Renumbering

namespace MockAudit

theorem bind_renumbered {α α' β β' : Type} {step : Option α} {step' : Option α'} {f : α → α'}
    {rest : α → Option β} {rest' : α' → Option β'} {h : β → β'} (first : step' = step.map f)
    (later : ∀ a, step = some a → rest' (f a) = (rest a).map h) :
    (step' >>= rest') = (step >>= rest).map h := by
  subst first
  cases step with
  | none => rfl
  | some a => exact later a rfl

theorem guard_renumbered {p q : Prop} [Decidable p] [Decidable q] (same : q ↔ p) :
    (guard q : Option Unit) = (guard p : Option Unit).map id := by
  by_cases holds : p <;> simp [guard, holds, same]

structure Vocabulary.SameIdiom (v w : Vocabulary) : Prop where
  baseType : w.baseType = v.baseType
  marker : w.marker = v.marker
  reentrancy : w.reentrancy = v.reentrancy
  accessor : w.accessor = v.accessor
  delegate : w.delegate = v.delegate
  constructorName : w.constructorName = v.constructorName

theorem Vocabulary.sameIdiom_self (v : Vocabulary) : v.SameIdiom v := ⟨rfl, rfl, rfl, rfl, rfl, rfl⟩

theorem Vocabulary.SameIdiom.markerName {v w : Vocabulary} (idiom : v.SameIdiom w) : w.markerName = v.markerName := by
  unfold Vocabulary.markerName
  rw [idiom.marker]

theorem Vocabulary.SameIdiom.baseName {v w : Vocabulary} (idiom : v.SameIdiom w) : w.baseName = v.baseName := by
  unfold Vocabulary.baseName
  rw [idiom.baseType]

namespace Symbols.Renumbered

variable {ρ : Renumbering} {symbols other : Symbols} {v w : Vocabulary}

theorem erasure (same : Renumbered ρ symbols other) (type : TypeId) :
    other.erasure (ρ.ref type) = ρ.ref (symbols.erasure type) := by
  unfold Symbols.erasure
  rw [same.type?]
  cases symbols.type? type with
  | none => rfl
  | some binding => cases erased : binding.erasure <;> simp [Renumbering.type, erased]

theorem isMockBase (same : Renumbered ρ symbols other) (idiom : v.SameIdiom w) (type : TypeId) :
    other.isMockBase w (ρ.ref type) = symbols.isMockBase v type := by
  unfold Symbols.isMockBase
  rw [same.erasure, same.type?]
  cases symbols.type? (symbols.erasure type) with
  | none => rfl
  | some binding => simp [Renumbering.type, idiom.baseType]

theorem superclass? (same : Renumbered ρ symbols other) (type : TypeId) :
    other.superclass? (ρ.ref type) = (symbols.superclass? type).map ρ.ref := by
  unfold Symbols.superclass?
  rw [same.type?]
  cases symbols.type? type <;> rfl

theorem baseAmong (same : Renumbered ρ symbols other) (idiom : v.SameIdiom w) (fuel : Nat)
    (start : Option TypeId) :
    other.baseAmong w fuel (start.map ρ.ref) = (symbols.baseAmong v fuel start).map ρ.ref := by
  induction fuel generalizing start with
  | zero => rfl
  | succ fuel ih =>
      cases start with
      | none => rfl
      | some type =>
          rw [Option.map_some, Symbols.baseAmong, Symbols.baseAmong, same.isMockBase idiom, same.superclass?, ih]
          split <;> rfl

theorem mockBase? (same : Renumbered ρ symbols other) (idiom : v.SameIdiom w) (type : TypeId) :
    other.mockBase? w (ρ.ref type) = (symbols.mockBase? v type).map ρ.ref := by
  unfold Symbols.mockBase?
  rw [same.size, same.superclass?, same.baseAmong idiom]

theorem isMockDefinition (same : Renumbered ρ symbols other) (idiom : v.SameIdiom w) (type : TypeId) :
    other.isMockDefinition w (ρ.ref type) = symbols.isMockDefinition v type := by
  unfold Symbols.isMockDefinition
  rw [same.mockBase? idiom, Option.isSome_map]

theorem mockedTarget? (same : Renumbered ρ symbols other) (idiom : v.SameIdiom w) (type : TypeId) :
    other.mockedTarget? w (ρ.ref type) = (symbols.mockedTarget? v type).map ρ.ref := by
  unfold Symbols.mockedTarget?
  refine bind_renumbered (same.mockBase? idiom type) fun base _ => ?_
  refine bind_renumbered (same.type? base) fun binding _ => ?_
  simp only [Renumbering.type]
  cases binding.typeArguments with
  | nil => rfl
  | cons target more =>
      cases more with
      | nil =>
          refine bind_renumbered (same.type? target) fun binding _ => ?_
          by_cases generic : binding.isTypeVariable <;> simp [Renumbering.type, generic]
      | cons => rfl

theorem marker? (same : Renumbered ρ symbols other) (idiom : v.SameIdiom w) (method : MethodId) :
    other.marker? w (ρ.ref method) = symbols.marker? v method := by
  unfold Symbols.marker?
  rw [same.method?, idiom.marker]
  cases symbols.method? method <;> rfl

theorem isMockMethod (same : Renumbered ρ symbols other) (idiom : v.SameIdiom w) (method : MethodId) :
    other.isMockMethod w (ρ.ref method) = symbols.isMockMethod v method := by
  unfold Symbols.isMockMethod
  rw [same.marker? idiom]

theorem isReentrant (same : Renumbered ρ symbols other) (idiom : v.SameIdiom w) (method : MethodId) :
    other.isReentrant w (ρ.ref method) = symbols.isReentrant v method := by
  unfold Symbols.isReentrant
  rw [same.marker? idiom, idiom.reentrancy]

theorem sameParameters (same : Renumbered ρ symbols other) (first second : MethodBinding) :
    other.sameParameters (ρ.method first) (ρ.method second) = symbols.sameParameters first second := by
  have erased (types : List TypeId) :
      (types.map ρ.ref).map other.erasure = (types.map symbols.erasure).map ρ.ref := by
    simp [same.erasure]
  have oneToOne : Function.Injective (List.map (ρ.ref : Equiv.Perm TypeId)) :=
    List.map_injective_iff.mpr ρ.ref.injective
  unfold Symbols.sameParameters
  simp only [Renumbering.method, erased]
  rw [Bool.eq_iff_iff, beq_iff_eq, beq_iff_eq, oneToOne.eq_iff]

theorem sameSignature (same : Renumbered ρ symbols other) (first second : MethodId) :
    other.sameSignature (ρ.ref first) (ρ.ref second) = symbols.sameSignature first second := by
  unfold Symbols.sameSignature
  rw [same.method?, same.method?]
  cases symbols.method? first with
  | none => rfl
  | some first =>
      cases symbols.method? second with
      | none => rfl
      | some second => simp only [Option.map_some, same.sameParameters]; rfl

theorem listedMethods (same : Renumbered ρ symbols other) (type : TypeId) :
    other.listedMethods (ρ.ref type) = (symbols.listedMethods type).map ρ.ref := by
  unfold Symbols.listedMethods
  rw [same.type?]
  cases symbols.type? type <;> rfl

theorem declaredMethods (same : Renumbered ρ symbols other) (type : TypeId) :
    other.declaredMethods (ρ.ref type) = (symbols.declaredMethods type).map ρ.ref := by
  unfold Symbols.declaredMethods
  rw [same.erasure, same.listedMethods, same.listedMethods]
  by_cases own : symbols.erasure type = type <;> simp [own]

theorem listedSupertypes (same : Renumbered ρ symbols other) (type : TypeId) :
    other.listedSupertypes (ρ.ref type) = (symbols.listedSupertypes type).map ρ.ref := by
  unfold Symbols.listedSupertypes
  rw [same.type?]
  cases symbols.type? type with
  | none => rfl
  | some binding => cases superclass : binding.superclass <;> simp [Renumbering.type, superclass]

theorem supertypes (same : Renumbered ρ symbols other) (type : TypeId) :
    other.supertypes (ρ.ref type) = (symbols.supertypes type).map ρ.ref := by
  unfold Symbols.supertypes
  rw [same.type?, Option.isSome_map, same.erasure, same.listedSupertypes, same.listedSupertypes]
  split <;> simp

theorem unseen_map (ρ : Renumbering) (seen types : List TypeId) :
    unseen (seen.map ρ.ref) (types.map ρ.ref) = (unseen seen types).map ρ.ref := by
  induction types generalizing seen with
  | nil => rfl
  | cons type types ih =>
      have known : ρ.ref type ∈ seen.map ρ.ref ↔ type ∈ seen := List.mem_map_of_injective ρ.ref.injective
      rw [List.map_cons, unseen, unseen]
      by_cases member : type ∈ seen
      · rw [if_pos (known.mpr member), if_pos member, ih]
      · rw [if_neg (known.not.mpr member), if_neg member, ← List.map_cons, ih, List.map_cons]

theorem layersFrom (same : Renumbered ρ symbols other) (fuel : Nat) (layer seen : List TypeId) :
    other.layersFrom fuel (layer.map ρ.ref) (seen.map ρ.ref) =
      (symbols.layersFrom fuel layer seen).map ρ.ref := by
  induction fuel generalizing layer seen with
  | zero => rfl
  | succ fuel ih =>
      have above : unseen (seen.map ρ.ref) ((layer.map ρ.ref).flatMap other.supertypes) =
          (unseen seen (layer.flatMap symbols.supertypes)).map ρ.ref := by
        rw [← unseen_map, List.flatMap_map, List.map_flatMap]
        simp only [same.supertypes]
      rw [Symbols.layersFrom, Symbols.layersFrom, above]
      cases unseen seen (layer.flatMap symbols.supertypes) with
      | nil => rfl
      | cons type types =>
          simp only [List.map_cons]
          rw [← List.map_cons, ← List.map_append, ih, List.map_append]

theorem hierarchy (same : Renumbered ρ symbols other) (type : TypeId) :
    other.hierarchy (ρ.ref type) = (symbols.hierarchy type).map ρ.ref := by
  unfold Symbols.hierarchy
  rw [same.size]
  exact same.layersFrom symbols.types.size [type] [type]

theorem find_satisfying (same : Renumbered ρ symbols other) {test otherTest : MethodBinding → Bool}
    (agree : ∀ method, otherTest (ρ.method method) = test method) (methods : List MethodId) :
    (methods.map ρ.ref).find? (other.methodSatisfies otherTest) =
      (methods.find? (symbols.methodSatisfies test)).map ρ.ref := by
  have tests : other.methodSatisfies otherTest ∘ ρ.ref = symbols.methodSatisfies test := by
    funext id
    simp only [Function.comp_apply, Symbols.methodSatisfies, same.method?]
    cases symbols.method? id with
    | none => rfl
    | some method => exact agree method
  rw [List.find?_map, tests]

theorem realConstructor? (same : Renumbered ρ symbols other) (target : TypeId) (mock : MethodBinding) :
    other.realConstructor? (ρ.ref target) (ρ.method mock) = (symbols.realConstructor? target mock).map ρ.ref := by
  unfold Symbols.realConstructor?
  rw [same.type?, same.declaredMethods]
  cases symbols.type? target with
  | none => rfl
  | some type =>
      refine same.find_satisfying (fun method => ?_) _
      rw [same.sameParameters]
      rfl

theorem realOrdinary? (same : Renumbered ρ symbols other) (target : TypeId) (mock : MethodBinding) :
    other.realOrdinary? (ρ.ref target) (ρ.method mock) = (symbols.realOrdinary? target mock).map ρ.ref := by
  unfold Symbols.realOrdinary?
  rw [same.hierarchy, List.findSome?_map, List.map_findSome?]
  congr 1
  funext type
  simp only [Function.comp_apply, same.declaredMethods]
  refine same.find_satisfying (fun method => ?_) _
  rw [same.sameParameters]
  rfl

theorem realMethod? (same : Renumbered ρ symbols other) (idiom : v.SameIdiom w) (target : TypeId)
    (mock : MethodId) :
    other.realMethod? w (ρ.ref target) (ρ.ref mock) = (symbols.realMethod? v target mock).map ρ.ref := by
  unfold Symbols.realMethod?
  rw [same.method?]
  cases symbols.method? mock with
  | none => rfl
  | some mock =>
      simp only [Option.map_some, Option.bind_some, idiom.constructorName, same.realConstructor?,
        same.realOrdinary?]
      change (if mock.name = v.constructorName then _ else _) = _
      split <;> rfl

end Symbols.Renumbered
end MockAudit
