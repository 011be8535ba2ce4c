import MockAudit.Proofs.Idiom.MockDefinition
import MockAudit.Proofs.Idiom.Supertypes

/-!
# Searches that pass over gaps

References that lead nowhere can be taken off all types without a change to any search. An erasure stays even if it is
unresolved, because parameter types are compared by it.
-/

namespace MockAudit.Symbols

open Relation (ReflTransGen)

variable {symbols : Symbols} {v : Vocabulary} {type target : TypeId}

def knowsType (symbols : Symbols) (type : TypeId) : Bool := (symbols.type? type).isSome

def knowsMethod (symbols : Symbols) (method : MethodId) : Bool := (symbols.method? method).isSome

def Complete (symbols : Symbols) (target : TypeId) : Prop :=
  ∀ type, ReflTransGen symbols.HasSupertype target type →
    symbols.knowsType type ∧ ∀ method ∈ symbols.declaredMethods type, symbols.knowsMethod method

def prune (symbols : Symbols) (binding : TypeBinding) : TypeBinding :=
  { binding with
    superclass := binding.superclass.filter symbols.knowsType
    interfaces := binding.interfaces.filter symbols.knowsType
    methods := binding.methods.filter symbols.knowsMethod }

def pruned (symbols : Symbols) : Symbols := { symbols with types := symbols.types.map symbols.prune }

theorem type?_pruned (type : TypeId) : symbols.pruned.type? type = (symbols.type? type).map symbols.prune := by
  simp [type?, pruned, Ref.resolve]

theorem method?_pruned (method : MethodId) : symbols.pruned.method? method = symbols.method? method := rfl

theorem size_pruned (symbols : Symbols) : symbols.pruned.types.size = symbols.types.size := Array.size_map

theorem type?_of_unknown (unknown : symbols.knowsType type = false) : symbols.type? type = none := by
  simpa [knowsType] using unknown

theorem knowsType_pruned (type : TypeId) : symbols.pruned.knowsType type = symbols.knowsType type := by
  rw [knowsType, type?_pruned, Option.isSome_map, knowsType]

theorem erasure_pruned (type : TypeId) : symbols.pruned.erasure type = symbols.erasure type := by
  unfold erasure
  rw [type?_pruned]
  cases symbols.type? type <;> rfl

theorem isMockBase_pruned (type : TypeId) : symbols.pruned.isMockBase v type = symbols.isMockBase v type := by
  unfold isMockBase
  rw [erasure_pruned, type?_pruned]
  cases symbols.type? (symbols.erasure type) <;> rfl

theorem superclass?_pruned (type : TypeId) :
    symbols.pruned.superclass? type = (symbols.superclass? type).filter symbols.knowsType := by
  unfold superclass?
  rw [type?_pruned]
  cases symbols.type? type <;> rfl

theorem isMockBase_of_unknown (unknown : symbols.knowsType type = false) : symbols.isMockBase v type = false := by
  simp [isMockBase, erasure, type?_of_unknown unknown]

theorem superclass?_of_unknown (unknown : symbols.knowsType type = false) : symbols.superclass? type = none := by
  simp [superclass?, type?_of_unknown unknown]

theorem baseAmong_pruned (fuel : Nat) (start : Option TypeId) :
    symbols.pruned.baseAmong v fuel (start.filter symbols.knowsType) = symbols.baseAmong v fuel start := by
  induction fuel generalizing start with
  | zero => rfl
  | succ fuel ih =>
      cases start with
      | none => rfl
      | some type =>
          cases known : symbols.knowsType type with
          | true =>
              rw [Option.filter_some_pos known, baseAmong, baseAmong, isMockBase_pruned, superclass?_pruned, ih]
          | false =>
              -- An unresolved type is no base type and has no superclass.
              rw [Option.filter_some_neg (by simp [known])]
              simp [baseAmong, isMockBase_of_unknown known, superclass?_of_unknown known, baseAmong_none]

theorem mockBase?_pruned (type : TypeId) : symbols.pruned.mockBase? v type = symbols.mockBase? v type := by
  rw [mockBase?, size_pruned, superclass?_pruned, baseAmong_pruned, mockBase?]

theorem mockedTarget?_pruned (type : TypeId) :
    symbols.pruned.mockedTarget? v type = symbols.mockedTarget? v type := by
  unfold mockedTarget?
  rw [mockBase?_pruned]
  cases symbols.mockBase? v type with
  | none => rfl
  | some base =>
      simp only [Option.bind_eq_bind, Option.bind_some, type?_pruned]
      cases symbols.type? base with
      | none => rfl
      | some binding =>
          simp only [Option.map_some, Option.bind_some, prune]
          split
          · rename_i target _
            cases symbols.type? target <;> rfl
          · rfl

theorem listedSupertypes_pruned (type : TypeId) :
    symbols.pruned.listedSupertypes type = (symbols.listedSupertypes type).filter symbols.knowsType := by
  unfold listedSupertypes
  rw [type?_pruned]
  cases symbols.type? type with
  | none => rfl
  | some binding => simp [prune, Option.toList_filter]

theorem supertypes_pruned (type : TypeId) :
    symbols.pruned.supertypes type = (symbols.supertypes type).filter symbols.knowsType := by
  unfold supertypes
  rw [type?_pruned, Option.isSome_map, erasure_pruned, listedSupertypes_pruned, listedSupertypes_pruned]
  split <;> simp

theorem supertypes_of_unknown (unknown : symbols.knowsType type = false) : symbols.supertypes type = [] := by
  simp [supertypes, type?_of_unknown unknown]

theorem flatMap_supertypes_pruned (layer : List TypeId) :
    (layer.filter symbols.knowsType).flatMap symbols.pruned.supertypes =
      (layer.flatMap symbols.supertypes).filter symbols.knowsType := by
  induction layer with
  | nil => rfl
  | cons type layer ih =>
      rw [List.flatMap_cons, List.filter_append, ← ih, List.filter_cons]
      cases known : symbols.knowsType type with
      | true => rw [if_pos rfl, List.flatMap_cons, supertypes_pruned]
      | false => simp [supertypes_of_unknown known]

theorem unseen_filter (p : TypeId → Bool) (seen types : List TypeId) :
    unseen (seen.filter p) (types.filter p) = (unseen seen types).filter p := by
  induction types generalizing seen with
  | nil => rfl
  | cons type types ih =>
      -- The head joins those seen on the right, but on the left only if it is kept.
      have kept := ih (type :: seen)
      rw [List.filter_cons] at kept ⊢
      rw [unseen]
      cases holds : p type with
      | true =>
          rw [if_pos holds] at kept
          rw [if_pos rfl, unseen]
          by_cases member : type ∈ seen
          · rw [if_pos (List.mem_filter.mpr ⟨member, holds⟩), if_pos member, ih]
          · rw [if_neg fun both => member (List.mem_filter.mp both).1, if_neg member, kept,
              List.filter_cons_of_pos holds]
      | false =>
          rw [if_neg (by simp [holds])] at kept
          rw [if_neg (by simp)]
          by_cases member : type ∈ seen
          · rw [if_pos member, ih]
          · rw [if_neg member, kept, List.filter_cons_of_neg (by simp [holds])]

theorem layersFrom_pruned (fuel : Nat) (layer seen : List TypeId) :
    symbols.pruned.layersFrom fuel (layer.filter symbols.knowsType) (seen.filter symbols.knowsType) =
      (symbols.layersFrom fuel layer seen).filter symbols.knowsType := by
  induction fuel generalizing layer seen with
  | zero => rfl
  | succ fuel ih =>
      rw [layersFrom_succ, layersFrom_succ, flatMap_supertypes_pruned, unseen_filter, ← List.filter_append, ih,
        List.filter_append]

theorem hierarchy_pruned (resolved : symbols.knowsType target) :
    symbols.pruned.hierarchy target = (symbols.hierarchy target).filter symbols.knowsType := by
  have start : [target].filter symbols.knowsType = [target] := List.filter_cons_of_pos resolved
  rw [hierarchy, hierarchy, ← layersFrom_pruned, start, size_pruned]

theorem listedMethods_pruned (type : TypeId) :
    symbols.pruned.listedMethods type = (symbols.listedMethods type).filter symbols.knowsMethod := by
  unfold listedMethods
  rw [type?_pruned]
  cases symbols.type? type <;> rfl

theorem declaredMethods_pruned (type : TypeId) :
    symbols.pruned.declaredMethods type = (symbols.declaredMethods type).filter symbols.knowsMethod := by
  unfold declaredMethods
  rw [erasure_pruned, listedMethods_pruned, listedMethods_pruned, List.filter_append]
  split <;> rfl

theorem declaredMethods_of_unknown (unknown : symbols.knowsType type = false) : symbols.declaredMethods type = [] := by
  simp [declaredMethods, listedMethods, erasure, type?_of_unknown unknown]

theorem complete_pruned (resolved : symbols.knowsType target) : symbols.pruned.Complete target := by
  intro type reached
  rw [← mem_hierarchy, hierarchy_pruned resolved] at reached
  rw [knowsType_pruned, declaredMethods_pruned]
  exact ⟨(List.mem_filter.mp reached).2, fun method listed => (List.mem_filter.mp listed).2⟩

theorem sameParameters_pruned (first second : MethodBinding) :
    symbols.pruned.sameParameters first second = symbols.sameParameters first second := by
  have erasures : symbols.pruned.erasure = symbols.erasure := funext erasure_pruned
  rw [sameParameters, erasures, sameParameters]

theorem find?_pruned (test : MethodBinding → Bool) (type : TypeId) :
    (symbols.pruned.declaredMethods type).find? (symbols.pruned.methodSatisfies test) =
      (symbols.declaredMethods type).find? (symbols.methodSatisfies test) := by
  have same : symbols.pruned.methodSatisfies test = symbols.methodSatisfies test := rfl
  rw [declaredMethods_pruned, same, List.find?_filter]
  -- An unresolved method passes no test anyway.
  congr 1
  funext method
  unfold methodSatisfies knowsMethod
  cases symbols.method? method <;> simp

theorem realConstructor?_pruned (target : TypeId) (mock : MethodBinding) :
    symbols.pruned.realConstructor? target mock = symbols.realConstructor? target mock := by
  unfold realConstructor?
  simp only [find?_pruned, sameParameters_pruned, type?_pruned]
  cases symbols.type? target <;> rfl

theorem findSome?_filter_knowsType {α : Type} {f : TypeId → Option α}
    (nothing : ∀ type, symbols.knowsType type = false → f type = none) (types : List TypeId) :
    (types.filter symbols.knowsType).findSome? f = types.findSome? f := by
  induction types with
  | nil => rfl
  | cons type types ih =>
      rw [List.filter_cons]
      cases known : symbols.knowsType type with
      | true => rw [if_pos rfl, List.findSome?_cons, List.findSome?_cons, ih]
      | false => rw [if_neg Bool.false_ne_true, ih, List.findSome?_cons_of_isNone (by simp [nothing type known])]

theorem realOrdinary?_pruned (resolved : symbols.knowsType target) (mock : MethodBinding) :
    symbols.pruned.realOrdinary? target mock = symbols.realOrdinary? target mock := by
  unfold realOrdinary?
  simp only [find?_pruned, sameParameters_pruned]
  rw [hierarchy_pruned resolved]
  apply findSome?_filter_knowsType
  intro type unknown
  rw [declaredMethods_of_unknown unknown, List.find?_nil]

theorem realMethod?_pruned (resolved : symbols.knowsType target) (mock : MethodId) :
    symbols.pruned.realMethod? v target mock = symbols.realMethod? v target mock := by
  unfold realMethod?
  simp only [method?_pruned, realConstructor?_pruned, realOrdinary?_pruned resolved]

end MockAudit.Symbols
