import MockAudit.Idiom.Site
import MockAudit.Proofs.Idiom.Supertypes
import MockAudit.Proofs.Unit.Ancestry

namespace MockAudit

def AnnotationUse.plain (marking : AnnotationUse) : AnnotationUse := { marking with attributes := .empty }

def MethodBinding.plain (method : MethodBinding) : MethodBinding :=
  { method with modifiers := [], annotations := method.annotations.map AnnotationUse.plain }

theorem MethodBinding.markingOf?_plain (method : MethodBinding) (typeName : String) :
    method.plain.markingOf? typeName = (method.markingOf? typeName).map AnnotationUse.plain := List.find?_map

namespace Symbols

variable {symbols : Symbols} {v : Vocabulary}

def plain (symbols : Symbols) : Symbols := { symbols with methods := symbols.methods.map MethodBinding.plain }

theorem method?_plain (id : MethodId) : symbols.plain.method? id = (symbols.method? id).map MethodBinding.plain := by
  simp [method?, plain, Ref.resolve]

theorem baseAmong_plain (fuel : Nat) (start : Option TypeId) :
    symbols.plain.baseAmong v fuel start = symbols.baseAmong v fuel start := by
  induction fuel generalizing start with
  | zero => rfl
  | succ fuel ih =>
      cases start with
      | none => rfl
      | some type =>
          have above := ih (symbols.superclass? type)
          exact congrArg (if symbols.isMockBase v type then some type else ·) above

theorem mockBase?_plain (type : TypeId) : symbols.plain.mockBase? v type = symbols.mockBase? v type :=
  symbols.baseAmong_plain symbols.types.size (symbols.superclass? type)

theorem isMockDefinition_plain (type : TypeId) :
    symbols.plain.isMockDefinition v type = symbols.isMockDefinition v type := by
  rw [isMockDefinition, mockBase?_plain, isMockDefinition]

theorem mockedTarget?_plain (type : TypeId) : symbols.plain.mockedTarget? v type = symbols.mockedTarget? v type := by
  rw [mockedTarget?, mockBase?_plain]
  rfl

theorem layersFrom_plain (fuel : Nat) (layer seen : List TypeId) :
    symbols.plain.layersFrom fuel layer seen = symbols.layersFrom fuel layer seen := by
  induction fuel generalizing layer seen with
  | zero => rfl
  | succ fuel ih =>
      have supertypes : symbols.plain.supertypes = symbols.supertypes := rfl
      rw [layersFrom_succ, layersFrom_succ, ih, supertypes]

theorem hierarchy_plain (type : TypeId) : symbols.plain.hierarchy type = symbols.hierarchy type :=
  symbols.layersFrom_plain symbols.types.size [type] [type]

theorem marker?_plain (id : MethodId) :
    symbols.plain.marker? v id = (symbols.marker? v id).map AnnotationUse.plain := by
  rw [marker?, marker?, method?_plain]
  cases symbols.method? id with
  | none => rfl
  | some method => exact method.markingOf?_plain v.marker

theorem isMockMethod_plain (id : MethodId) : symbols.plain.isMockMethod v id = symbols.isMockMethod v id := by
  rw [isMockMethod, marker?_plain, Option.isSome_map, isMockMethod]

theorem isReentrant_plain (id : MethodId) : symbols.plain.isReentrant v id = false := by
  rw [isReentrant, marker?_plain]
  cases symbols.marker? v id <;> rfl

theorem sameSignature_plain (first second : MethodId) :
    symbols.plain.sameSignature first second = symbols.sameSignature first second := by
  rw [sameSignature, method?_plain, method?_plain, sameSignature]
  cases symbols.method? first with
  | none => rfl
  | some method => cases symbols.method? second <;> rfl

theorem methodSatisfies_plain (test : MethodBinding → Bool) (id : MethodId) :
    symbols.plain.methodSatisfies test id = symbols.methodSatisfies (fun method => test method.plain) id := by
  rw [methodSatisfies, method?_plain, methodSatisfies]
  cases symbols.method? id <;> rfl

theorem realConstructor?_plain (target : TypeId) (mock : MethodBinding) :
    symbols.plain.realConstructor? target mock.plain = symbols.realConstructor? target mock := by
  simp only [realConstructor?, funext (methodSatisfies_plain _)]
  rfl

theorem realOrdinary?_plain (target : TypeId) (mock : MethodBinding) :
    symbols.plain.realOrdinary? target mock.plain = symbols.realOrdinary? target mock := by
  simp only [realOrdinary?, funext (methodSatisfies_plain _), hierarchy_plain]
  rfl

theorem realMethod?_plain (target : TypeId) (mock : MethodId) :
    symbols.plain.realMethod? v target mock = symbols.realMethod? v target mock := by
  rw [realMethod?, method?_plain, realMethod?]
  cases symbols.method? mock with
  | none => rfl
  | some mock =>
      simp only [Option.map_some, Option.bind_some, realConstructor?_plain, realOrdinary?_plain]
      rfl

end Symbols

namespace Site

def plain (site : Site) : Site := { site with unit := site.unit.withSymbols site.symbols.plain }

variable (site : Site)

theorem kind?_plain : site.plain.kind? = site.kind? := rfl

theorem method?_plain (method : MethodId) :
    site.plain.symbols.method? method = (site.symbols.method? method).map MethodBinding.plain :=
  Symbols.method?_plain method

theorem isMockMethod_plain :
    site.plain.symbols.isMockMethod site.plain.vocabulary = site.symbols.isMockMethod site.vocabulary :=
  funext Symbols.isMockMethod_plain

theorem isReentrant_plain (method : MethodId) :
    site.plain.symbols.isReentrant site.plain.vocabulary method = false := Symbols.isReentrant_plain method

theorem ancestors_plain : site.plain.unit.ancestors site.plain.node = site.unit.ancestors site.node :=
  site.unit.ancestors_withSymbols site.symbols.plain site.node

theorem enclosingType?_plain : site.plain.enclosingType? = site.enclosingType? := by
  rw [enclosingType?, ancestors_plain]
  rfl

theorem enclosingMock?_plain : site.plain.enclosingMock? = site.enclosingMock? := by
  rw [enclosingMock?, ancestors_plain, isMockMethod_plain]
  rfl

theorem target?_plain : site.plain.target? = site.target? := by
  have created : site.plain.createdType? = site.createdType? := rfl
  have mocked : site.plain.symbols.mockedTarget? site.plain.vocabulary =
      site.symbols.mockedTarget? site.vocabulary := funext Symbols.mockedTarget?_plain
  rw [target?, target?, relevantType?, relevantType?, kind?_plain, created, enclosingType?_plain, mocked]

theorem defines_plain (type : Option TypeId) : site.plain.defines type = site.defines type := by
  cases type with
  | none => rfl
  | some type => exact Symbols.isMockDefinition_plain type

theorem classification_plain :
    site.plain.classification = { site.classification with isReentrant := false } := by
  unfold classification
  rw [kind?_plain, target?_plain, enclosingType?_plain, isMockMethod_plain, funext site.isReentrant_plain]
  simp only [defines_plain]
  cases site.kind? with
  | none => rfl
  | some kind => cases kind <;> simp

theorem methodName?_plain : site.plain.methodName? = site.methodName? := by
  have name (method : Option MethodId) : (method.bind site.plain.symbols.method?).map (·.name) =
      (method.bind site.symbols.method?).map (·.name) := by
    cases method with
    | none => rfl
    | some method =>
        rw [Option.bind_some, method?_plain, Option.map_map]
        rfl
  unfold methodName?
  rw [kind?_plain]
  simp only [name]

end Site
end MockAudit
