import MockAudit.Idiom.Hierarchy
import MockAudit.Proofs.Idiom.Distance

namespace MockAudit.Symbols

variable {symbols : Symbols} {v : Vocabulary} {type superclass base : TypeId}

def HasSuperclass (symbols : Symbols) (type superclass : TypeId) : Prop :=
  ∃ binding, symbols.type? type = some binding ∧ binding.superclass = some superclass

theorem superclass?_eq_some : symbols.superclass? type = some superclass ↔ symbols.HasSuperclass type superclass :=
  Option.bind_eq_some_iff

theorem HasSuperclass.unique {other : TypeId} (first : symbols.HasSuperclass type superclass)
    (second : symbols.HasSuperclass type other) : superclass = other := by
  rw [← superclass?_eq_some] at first second
  exact Option.some.inj (first.symm.trans second)

theorem HasSuperclass.inRange (linked : symbols.HasSuperclass type superclass) :
    type.toNat < symbols.types.size := by
  obtain ⟨binding, found, -⟩ := linked
  exact Ref.resolve_isSome.mp (Option.isSome_of_eq_some found)

theorem inRange_of_isMockBase (isBase : symbols.isMockBase v type) : type.toNat < symbols.types.size := by
  cases found : symbols.type? type with
  | none => simp [isMockBase, erasure, found] at isBase
  | some binding => exact Ref.resolve_isSome.mp (Option.isSome_of_eq_some found)

structure NearestBase (symbols : Symbols) (v : Vocabulary) (type : TypeId) (k : Nat) (base : TypeId) : Prop where
  positive : 1 ≤ k
  above : Steps symbols.HasSuperclass type k base
  isBase : symbols.isMockBase v base
  first : ∀ j other, 1 ≤ j → j < k → Steps symbols.HasSuperclass type j other → ¬ symbols.isMockBase v other

theorem exists_nearestBase {k : Nat} (positive : 1 ≤ k) (above : Steps symbols.HasSuperclass type k base)
    (isBase : symbols.isMockBase v base) : ∃ k base, symbols.NearestBase v type k base := by
  have met : ∃ k, 1 ≤ k ∧ ∃ base, Steps symbols.HasSuperclass type k base ∧ symbols.isMockBase v base :=
    ⟨k, positive, base, above, isBase⟩
  classical
  obtain ⟨positive, base, above, isBase⟩ := Nat.find_spec met
  refine ⟨_, base, positive, above, isBase, ?_⟩
  intro j other positive lt above isBase
  exact Nat.find_min met lt ⟨positive, other, above, isBase⟩

theorem nearestBase_one (linked : symbols.HasSuperclass type superclass) (isBase : symbols.isMockBase v superclass) :
    symbols.NearestBase v type 1 superclass where
  positive := Nat.le_refl 1
  above := .further .here linked
  isBase := isBase
  first j other positive lt := by omega

theorem NearestBase.exists_superclass {k : Nat} (nearest : symbols.NearestBase v type k base) :
    ∃ superclass j, k = j + 1 ∧ symbols.HasSuperclass type superclass ∧
      Steps symbols.HasSuperclass superclass j base := by
  obtain ⟨j, rfl⟩ := Nat.exists_eq_add_of_le' nearest.positive
  obtain ⟨superclass, linked, above⟩ := nearest.above.cases_ahead
  exact ⟨superclass, j, rfl, linked, above⟩

theorem NearestBase.eq_of_isMockBase {k : Nat} (nearest : symbols.NearestBase v type k base)
    (linked : symbols.HasSuperclass type superclass) (isBase : symbols.isMockBase v superclass) :
    base = superclass := by
  obtain ⟨other, j, rfl, linkedToo, above⟩ := nearest.exists_superclass
  obtain rfl := linked.unique linkedToo
  cases j with
  | zero =>
      cases above
      rfl
  | succ j => exact absurd isBase (nearest.first 1 superclass (by omega) (by omega) (.further .here linked))

theorem nearestBase_succ {k : Nat} (linked : symbols.HasSuperclass type superclass)
    (plain : ¬ symbols.isMockBase v superclass) :
    symbols.NearestBase v type (k + 1) base ↔ symbols.NearestBase v superclass k base := by
  constructor
  · intro nearest
    obtain ⟨other, j, same, linkedToo, above⟩ := nearest.exists_superclass
    obtain rfl := linked.unique linkedToo
    obtain rfl : k = j := by omega
    refine ⟨?_, above, nearest.isBase, fun j other positive lt above => ?_⟩
    · rcases Nat.eq_zero_or_pos k with rfl | positive
      · cases above
        exact absurd nearest.isBase plain
      · exact positive
    · exact nearest.first (j + 1) other (by omega) (by omega) (above.ahead linked)
  · intro nearest
    refine ⟨by omega, nearest.above.ahead linked, nearest.isBase, fun j other positive lt above => ?_⟩
    obtain ⟨i, rfl⟩ := Nat.exists_eq_add_of_le' positive
    obtain ⟨next, linkedToo, rest⟩ := above.cases_ahead
    obtain rfl := linked.unique linkedToo
    cases i with
    | zero =>
        cases rest
        exact plain
    | succ i => exact nearest.first (i + 1) other (by omega) (by omega) rest

/-- A shorter way to the base type would pass by it earlier, so no type lies on the chain to it twice. -/
theorem NearestBase.le_size {k : Nat} (nearest : symbols.NearestBase v type k base) : k ≤ symbols.types.size := by
  obtain ⟨superclass, j, rfl, linked, above⟩ := nearest.exists_superclass
  have distance : Distance symbols.HasSuperclass superclass j base := by
    refine ⟨above, fun m shorter => Nat.le_of_not_lt fun lt => ?_⟩
    exact nearest.first (m + 1) base (by omega) (by omega) (shorter.ahead linked) nearest.isBase
  exact distance.lt_size HasSuperclass.inRange (inRange_of_isMockBase nearest.isBase)

theorem baseAmong_eq_some {fuel : Nat} : symbols.baseAmong v fuel (symbols.superclass? type) = some base ↔
    ∃ k ≤ fuel, symbols.NearestBase v type k base := by
  induction fuel generalizing type with
  | zero =>
      simp only [baseAmong, Nat.le_zero, exists_eq_left, reduceCtorEq, false_iff]
      intro nearest
      exact absurd nearest.positive (by omega)
  | succ fuel ih =>
      cases found : symbols.superclass? type with
      | none =>
          simp only [baseAmong, reduceCtorEq, false_iff]
          rintro ⟨k, -, nearest⟩
          obtain ⟨superclass, j, -, linked, -⟩ := nearest.exists_superclass
          simp [superclass?_eq_some.mpr linked] at found
      | some superclass =>
          have linked := superclass?_eq_some.mp found
          rw [baseAmong]
          by_cases isBase : symbols.isMockBase v superclass
          · rw [if_pos isBase, Option.some.injEq]
            constructor
            · rintro rfl
              exact ⟨1, by omega, nearestBase_one linked isBase⟩
            · rintro ⟨k, -, nearest⟩
              exact (nearest.eq_of_isMockBase linked isBase).symm
          · rw [if_neg isBase, ih]
            constructor
            · rintro ⟨k, le, nearest⟩
              exact ⟨k + 1, by omega, (nearestBase_succ linked isBase).mpr nearest⟩
            · rintro ⟨k, le, nearest⟩
              obtain ⟨j, rfl⟩ := Nat.exists_eq_add_of_le' nearest.positive
              exact ⟨j, by omega, (nearestBase_succ linked isBase).mp nearest⟩

theorem baseAmong_of_size_le {fuel : Nat} (enough : symbols.types.size ≤ fuel) :
    symbols.baseAmong v fuel (symbols.superclass? type) = some base ↔ ∃ k, symbols.NearestBase v type k base := by
  rw [baseAmong_eq_some]
  constructor
  · rintro ⟨k, -, nearest⟩
    exact ⟨k, nearest⟩
  · rintro ⟨k, nearest⟩
    exact ⟨k, Nat.le_trans nearest.le_size enough, nearest⟩

theorem mockBase?_eq_some : symbols.mockBase? v type = some base ↔ ∃ k, symbols.NearestBase v type k base :=
  baseAmong_of_size_le (Nat.le_refl _)

theorem baseAmong_eq_mockBase? {fuel : Nat} (enough : symbols.types.size ≤ fuel) :
    symbols.baseAmong v fuel (symbols.superclass? type) = symbols.mockBase? v type := by
  apply Option.ext
  intro base
  rw [baseAmong_of_size_le enough, mockBase?_eq_some]

theorem baseAmong_none (fuel : Nat) : symbols.baseAmong v fuel none = none := by
  cases fuel <;> rfl

theorem baseAmong_eq_none_of_closed {types : List TypeId} (plain : ∀ type ∈ types, ¬ symbols.isMockBase v type)
    (closed : ∀ type ∈ types, ∀ superclass, symbols.HasSuperclass type superclass → superclass ∈ types)
    (member : type ∈ types) {fuel : Nat} : symbols.baseAmong v fuel (some type) = none := by
  induction fuel generalizing type with
  | zero => rfl
  | succ fuel ih =>
      rw [baseAmong, if_neg (plain type member)]
      cases found : symbols.superclass? type with
      | none => exact baseAmong_none fuel
      | some superclass => exact ih (closed type member superclass (superclass?_eq_some.mp found))

/-! ## The search and the types it has met -/

inductive Ascent where
  | climbing (seen : List TypeId) (current : Option TypeId)
  | ended (answer : Option TypeId)

namespace Ascent

def start (symbols : Symbols) (type : TypeId) : Ascent := .climbing [] (symbols.superclass? type)

/-- Only the types met before bound the search: it gives up when it comes to one of them again. -/
def next? (symbols : Symbols) (v : Vocabulary) : Ascent → Option Ascent
  | .ended _ => none
  | .climbing _ none => some (.ended none)
  | .climbing seen (some type) =>
      if seen.contains type then some (.ended none)
      else if symbols.isMockBase v type then some (.ended (some type))
      else some (.climbing (type :: seen) (symbols.superclass? type))

def Advances (symbols : Symbols) (v : Vocabulary) (ascent next : Ascent) : Prop := ascent.next? symbols v = some next

section

variable {seen : List TypeId} {met : TypeId}

theorem advances_of_mem (again : met ∈ seen) : Advances symbols v (.climbing seen (some met)) (.ended none) := by
  simp [Advances, next?, again]

theorem advances_of_isMockBase (fresh : met ∉ seen) (isBase : symbols.isMockBase v met) :
    Advances symbols v (.climbing seen (some met)) (.ended (some met)) := by
  simp [Advances, next?, fresh, isBase]

theorem advances_of_plain (fresh : met ∉ seen) (plain : ¬ symbols.isMockBase v met) :
    Advances symbols v (.climbing seen (some met)) (.climbing (met :: seen) (symbols.superclass? met)) := by
  simp [Advances, next?, fresh, plain]

end
end Ascent

/-- What holds as long as the search from a type goes on. No type is met twice and none is a base type, links from
them lead to one of them or to where the search stands, and what lies ahead of it decides about the type. -/
structure Ascends (symbols : Symbols) (v : Vocabulary) (type : TypeId) (seen : List TypeId)
    (current : Option TypeId) : Prop where
  distinct : seen.Nodup
  plain : ∀ met ∈ seen, ¬ symbols.isMockBase v met
  onward : ∀ met ∈ seen, ∀ superclass, symbols.HasSuperclass met superclass →
    superclass ∈ seen ∨ current = some superclass
  inRange : current.isSome → ∀ met ∈ seen, met.toNat < symbols.types.size
  ahead : ∀ fuel, symbols.types.size ≤ fuel → symbols.baseAmong v fuel current = symbols.mockBase? v type

theorem ascends_start (symbols : Symbols) (v : Vocabulary) (type : TypeId) :
    symbols.Ascends v type [] (symbols.superclass? type) where
  distinct := List.nodup_nil
  plain := by simp
  onward := by simp
  inRange := by simp
  ahead _ enough := baseAmong_eq_mockBase? enough

namespace Ascends

variable {seen : List TypeId} {current : Option TypeId} {met : TypeId}

theorem climb (ascends : symbols.Ascends v type seen (some met)) (fresh : met ∉ seen)
    (plain : ¬ symbols.isMockBase v met) : symbols.Ascends v type (met :: seen) (symbols.superclass? met) where
  distinct := List.nodup_cons.mpr ⟨fresh, ascends.distinct⟩
  plain := List.forall_mem_cons.mpr ⟨plain, ascends.plain⟩
  onward other member superclass linked := by
    rcases List.mem_cons.mp member with rfl | earlier
    · exact .inr (superclass?_eq_some.mpr linked)
    · refine .inl (List.mem_cons.mpr ?_)
      rcases ascends.onward other earlier superclass linked with known | stood
      · exact .inr known
      · exact .inl (Option.some.inj stood).symm
  inRange linked := by
    obtain ⟨superclass, found⟩ := Option.isSome_iff_exists.mp linked
    exact List.forall_mem_cons.mpr ⟨(superclass?_eq_some.mp found).inRange, ascends.inRange rfl⟩
  ahead fuel enough := by
    rw [← ascends.ahead (fuel + 1) (by omega), baseAmong, if_neg plain]

/-- Coming to a type again closes the circle: all that lies ahead has been met and is no base type. -/
theorem mockBase?_eq_none (ascends : symbols.Ascends v type seen (some met)) (again : met ∈ seen) :
    symbols.mockBase? v type = none := by
  rw [← ascends.ahead _ (Nat.le_refl _)]
  apply baseAmong_eq_none_of_closed ascends.plain _ again
  intro other member superclass linked
  rcases ascends.onward other member superclass linked with known | stood
  · exact known
  · rwa [← Option.some.inj stood]

theorem next (ascends : symbols.Ascends v type seen current) :
    Ascent.Advances symbols v (.climbing seen current) (.ended (symbols.mockBase? v type)) ∨
    ∃ met, current = some met ∧ symbols.Ascends v type (met :: seen) (symbols.superclass? met) ∧
      Ascent.Advances symbols v (.climbing seen current) (.climbing (met :: seen) (symbols.superclass? met)) := by
  cases current with
  | none =>
      left
      rw [← ascends.ahead _ (Nat.le_refl _), baseAmong_none]
      rfl
  | some met =>
      by_cases again : met ∈ seen
      · left
        rw [ascends.mockBase?_eq_none again]
        exact Ascent.advances_of_mem again
      · by_cases isBase : symbols.isMockBase v met
        · left
          rw [← ascends.ahead _ (Nat.le_succ _), baseAmong, if_pos isBase]
          exact Ascent.advances_of_isMockBase again isBase
        · right
          exact ⟨met, rfl, ascends.climb again isBase, Ascent.advances_of_plain again isBase⟩

theorem steps {room : Nat} (ascends : symbols.Ascends v type seen current)
    (enough : symbols.types.size < seen.length + room) :
    ∃ turns ≤ room + 1,
      Steps (Ascent.Advances symbols v) (.climbing seen current) turns (.ended (symbols.mockBase? v type)) := by
  induction room generalizing seen current with
  | zero =>
      obtain ends | ⟨met, rfl, -⟩ := ascends.next
      · exact ⟨1, Nat.le_refl 1, .further .here ends⟩
      · -- There is no room left among the types of the table.
        have fit := Ref.length_le_of_nodup ascends.distinct (ascends.inRange rfl)
        omega
  | succ room ih =>
      obtain ends | ⟨met, rfl, higher, climbs⟩ := ascends.next
      · exact ⟨1, by omega, .further .here ends⟩
      · obtain ⟨turns, few, steps⟩ := ih higher (by rw [List.length_cons]; omega)
        exact ⟨turns + 1, by omega, steps.ahead climbs⟩

end Ascends

/-! ## Mock definitions and their targets -/

theorem isMockDefinition_iff : symbols.isMockDefinition v type ↔ ∃ k base, symbols.NearestBase v type k base := by
  rw [isMockDefinition, Option.isSome_iff_exists, exists_comm]
  exact exists_congr fun base => mockBase?_eq_some

def Targets (symbols : Symbols) (base target : TypeId) : Prop :=
  ∃ binding mocked, symbols.type? base = some binding ∧ binding.typeArguments = [target] ∧
    symbols.type? target = some mocked ∧ mocked.isTypeVariable = false

theorem mockedTarget?_eq_some {target : TypeId} : symbols.mockedTarget? v type = some target ↔
    ∃ k base, symbols.NearestBase v type k base ∧ symbols.Targets base target := by
  simp only [mockedTarget?, Option.bind_eq_bind, Option.bind_eq_some_iff, mockBase?_eq_some]
  constructor
  · rintro ⟨base, ⟨k, nearest⟩, binding, found, chosen⟩
    refine ⟨k, base, nearest, binding, ?_⟩
    split at chosen
    · rename_i argument only
      obtain ⟨mocked, resolved, concrete⟩ := Option.bind_eq_some_iff.mp chosen
      by_cases isVariable : mocked.isTypeVariable
      · simp [isVariable] at concrete
      · obtain rfl : argument = target := by simpa [isVariable] using concrete
        exact ⟨mocked, found, only, resolved, by simpa using isVariable⟩
    · simp at chosen
  · rintro ⟨k, base, nearest, binding, mocked, found, only, resolved, concrete⟩
    exact ⟨base, ⟨k, nearest⟩, binding, found, by simp [only, resolved, concrete]⟩

/-- Whatever the links between types, the search for a base type comes to an end. It finds one exactly if some number
of superclass links leads to one, and the mocked type is the argument of the first one on the way. -/
theorem mockDefinition_follows_superclasses (symbols : Symbols) (v : Vocabulary) (type : TypeId) :
    (∃ turns ≤ symbols.types.size + 2,
      Steps (Ascent.Advances symbols v) (.start symbols type) turns (.ended (symbols.mockBase? v type))) ∧
    (∀ fuel, symbols.types.size ≤ fuel →
      symbols.baseAmong v fuel (symbols.superclass? type) = symbols.mockBase? v type) ∧
    (symbols.isMockDefinition v type ↔
      ∃ k base, 1 ≤ k ∧ Steps symbols.HasSuperclass type k base ∧ symbols.isMockBase v base) ∧
    ∀ target, symbols.mockedTarget? v type = some target ↔
      ∃ k base, symbols.NearestBase v type k base ∧ symbols.Targets base target := by
  refine ⟨?_, fun fuel => baseAmong_eq_mockBase?, ?_, fun target => mockedTarget?_eq_some⟩
  · exact (symbols.ascends_start v type).steps (by rw [List.length_nil]; omega)
  · rw [isMockDefinition_iff]
    constructor
    · rintro ⟨k, base, nearest⟩
      exact ⟨k, base, nearest.positive, nearest.above, nearest.isBase⟩
    · rintro ⟨k, base, positive, above, isBase⟩
      exact exists_nearestBase positive above isBase

-- A base type in a circle is above itself. A circle without one leads to none.
example :
    let symbols : Symbols :=
      { types := #[{ name := "MockUp", qualifiedName := "mockit.MockUp", superclass := some ⟨1⟩ },
          { name := "Fake", qualifiedName := "shop.Fake", superclass := some ⟨0⟩ },
          { name := "Cart", qualifiedName := "shop.Cart", superclass := some ⟨2⟩ }] }
    symbols.mockBase? {} ⟨0⟩ = some ⟨0⟩ ∧ symbols.mockBase? {} ⟨2⟩ = none := by decide

end MockAudit.Symbols
