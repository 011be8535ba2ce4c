import MockAudit.Proofs.Idiom.Supertypes

namespace MockAudit

open Relation (ReflTransGen)

def IsFirst {α : Type} (p : α → Prop) (xs : List α) (x : α) : Prop :=
  p x ∧ ∃ before after, xs = before ++ x :: after ∧ ∀ y ∈ before, ¬ p y

theorem find?_eq_some_iff_isFirst {α : Type} {test : α → Bool} {p : α → Prop} (decides : ∀ x, test x = true ↔ p x)
    {xs : List α} {x : α} : xs.find? test = some x ↔ IsFirst p xs x := by
  simp [List.find?_eq_some_iff_append, IsFirst, ← decides]

namespace Symbols

variable {symbols : Symbols} {v : Vocabulary} {target type : TypeId} {mock : MethodBinding}

def Agrees (symbols : Symbols) (isConstructor : Bool) (name : String) (mock : MethodBinding) (id : MethodId) : Prop :=
  ∃ method, symbols.method? id = some method ∧ method.isConstructor = isConstructor ∧ method.name = name ∧
    method.parameters.map symbols.erasure = mock.parameters.map symbols.erasure

def Offers (symbols : Symbols) (isConstructor : Bool) (name : String) (mock : MethodBinding) (type : TypeId) : Prop :=
  ∃ id ∈ symbols.declaredMethods type, symbols.Agrees isConstructor name mock id

theorem methodSatisfies_constructor (name : String) (mock : MethodBinding) (id : MethodId) :
    symbols.methodSatisfies (fun method =>
      method.isConstructor && method.name == name && symbols.sameParameters method mock) id = true ↔
      symbols.Agrees true name mock id := by
  unfold methodSatisfies Agrees sameParameters
  cases symbols.method? id <;> simp [and_assoc]

theorem methodSatisfies_ordinary (name : String) (mock : MethodBinding) (id : MethodId) :
    symbols.methodSatisfies (fun method =>
      !method.isConstructor && method.name == name && symbols.sameParameters method mock) id = true ↔
      symbols.Agrees false name mock id := by
  unfold methodSatisfies Agrees sameParameters
  cases symbols.method? id <;> simp [and_assoc]

theorem realConstructor?_eq_some {real : MethodId} : symbols.realConstructor? target mock = some real ↔
    ∃ type, symbols.type? target = some type ∧
      IsFirst (symbols.Agrees true type.name mock) (symbols.declaredMethods target) real := by
  rw [realConstructor?, Option.bind_eq_some_iff]
  apply exists_congr
  intro type
  rw [find?_eq_some_iff_isFirst (methodSatisfies_constructor type.name mock)]

theorem realConstructor?_isSome : (symbols.realConstructor? target mock).isSome ↔
    ∃ type, symbols.type? target = some type ∧ symbols.Offers true type.name mock target := by
  unfold realConstructor? Offers
  cases symbols.type? target <;> simp [methodSatisfies_constructor]

theorem realOrdinary?_isSome : (symbols.realOrdinary? target mock).isSome ↔
    ∃ type, ReflTransGen symbols.HasSupertype target type ∧ symbols.Offers false mock.name mock type := by
  simp [realOrdinary?, mem_hierarchy, methodSatisfies_ordinary, Offers]

/-- The first method listed on a type that the mock method stands in for, where no type that offers one is nearer to
the target. -/
def IsNearestReal (symbols : Symbols) (target : TypeId) (mock : MethodBinding) (real : MethodId) : Prop :=
  ∃ type n, Distance symbols.HasSupertype target n type ∧
    IsFirst (symbols.Agrees false mock.name mock) (symbols.declaredMethods type) real ∧
    ∀ other m, Distance symbols.HasSupertype target m other → symbols.Offers false mock.name mock other → n ≤ m

theorem isNearestReal_of_realOrdinary? {real : MethodId} (found : symbols.realOrdinary? target mock = some real) :
    symbols.IsNearestReal target mock real := by
  obtain ⟨before, type, after, split, here, none⟩ := List.findSome?_eq_some_iff.mp found
  have ordered := hierarchy_pairwise symbols target
  have inHierarchy : type ∈ symbols.hierarchy target := split ▸ List.mem_append_right _ List.mem_cons_self
  obtain ⟨n, distance⟩ := exists_distance.mp (mem_hierarchy.mp inHierarchy)
  refine ⟨type, n, distance, (find?_eq_some_iff_isFirst (methodSatisfies_ordinary mock.name mock)).mp here, ?_⟩
  intro other m distanceToo offers
  -- The other type is in the hierarchy, and not before the first one with an answer.
  have member : other ∈ symbols.hierarchy target := mem_hierarchy.mpr (exists_distance.mpr ⟨m, distanceToo⟩)
  rw [split] at member ordered
  rcases List.mem_append.mp member with early | late
  · obtain ⟨id, listed, agrees⟩ := offers
    have rejected := List.find?_eq_none.mp (none other early) id listed
    exact absurd ((methodSatisfies_ordinary mock.name mock id).mpr agrees) rejected
  · rcases List.mem_cons.mp late with rfl | later
    · exact Nat.le_of_eq (distance.unique distanceToo)
    · have first := (List.pairwise_append.mp ordered).2.1
      exact List.rel_of_pairwise_cons first later n m distance distanceToo

def HasReal (symbols : Symbols) (v : Vocabulary) (target : TypeId) (mock : MethodBinding) : Prop :=
  if mock.name = v.constructorName then
    ∃ type, symbols.type? target = some type ∧ symbols.Offers true type.name mock target
  else ∃ type, ReflTransGen symbols.HasSupertype target type ∧ symbols.Offers false mock.name mock type

def Matched (symbols : Symbols) (v : Vocabulary) (target : TypeId) (id : MethodId) : Prop :=
  ∃ mock, symbols.method? id = some mock ∧ symbols.HasReal v target mock

theorem Matched.resolved {id : MethodId} (matched : symbols.Matched v target id) : (symbols.method? id).isSome := by
  obtain ⟨mock, found, -⟩ := matched
  exact Option.isSome_of_eq_some found

theorem realMethod?_isSome {id : MethodId} :
    (symbols.realMethod? v target id).isSome ↔ symbols.Matched v target id := by
  unfold realMethod? Matched HasReal
  cases symbols.method? id with
  | none => simp
  | some mock =>
      simp only [Option.bind_some, Option.some.injEq, exists_eq_left']
      split
      · exact realConstructor?_isSome
      · exact realOrdinary?_isSome

/-- The search for the real method of a mock method gives nothing for an unresolved one, the first constructor of
the target that agrees for a constructor, and otherwise a nearest method that agrees if there is any. -/
theorem realMethod?_nearest_first (symbols : Symbols) (v : Vocabulary) (target : TypeId) (id : MethodId) :
    (symbols.method? id = none → symbols.realMethod? v target id = none) ∧
    ∀ mock, symbols.method? id = some mock →
      (mock.name = v.constructorName → ∀ real, symbols.realMethod? v target id = some real ↔
        ∃ type, symbols.type? target = some type ∧
          IsFirst (symbols.Agrees true type.name mock) (symbols.declaredMethods target) real) ∧
      (mock.name ≠ v.constructorName →
        ((∃ real, symbols.realMethod? v target id = some real) ↔
          ∃ type, ReflTransGen symbols.HasSupertype target type ∧ symbols.Offers false mock.name mock type) ∧
        ∀ real, symbols.realMethod? v target id = some real → symbols.IsNearestReal target mock real) := by
  unfold realMethod?
  refine ⟨fun unresolved => by simp [unresolved], fun mock resolved => ?_⟩
  simp only [resolved, Option.bind_some]
  refine ⟨fun special real => ?_, fun ordinary => ?_⟩
  · rw [if_pos special, realConstructor?_eq_some]
  · simp only [if_neg ordinary]
    rw [← Option.isSome_iff_exists]
    exact ⟨realOrdinary?_isSome, fun real => isNearestReal_of_realOrdinary?⟩

-- `pay` is listed on the erasure of the target and on an interface of that erasure, `sum` on the interface alone, and
-- `add` takes parameters of the same erasure.
example :
    let symbols : Symbols :=
      { types := #[{ name := "Bag", qualifiedName := "shop.Bag", erasure := some ⟨1⟩ },
          { name := "Bag", qualifiedName := "shop.Bag", interfaces := [⟨2⟩], methods := [⟨3⟩, ⟨4⟩] },
          { name := "Priced", qualifiedName := "shop.Priced", methods := [⟨5⟩, ⟨6⟩] }]
        methods := #[{ name := "pay", declaringType := ⟨9⟩ }, { name := "sum", declaringType := ⟨9⟩ },
          { name := "add", declaringType := ⟨9⟩, parameters := [⟨0⟩] }, { name := "pay", declaringType := ⟨1⟩ },
          { name := "add", declaringType := ⟨1⟩, parameters := [⟨1⟩] }, { name := "pay", declaringType := ⟨2⟩ },
          { name := "sum", declaringType := ⟨2⟩ }] }
    symbols.realMethod? {} ⟨0⟩ ⟨0⟩ = some ⟨3⟩ ∧ symbols.realMethod? {} ⟨0⟩ ⟨1⟩ = some ⟨6⟩ ∧
      symbols.realMethod? {} ⟨0⟩ ⟨2⟩ = some ⟨4⟩ := by decide

end Symbols
end MockAudit
