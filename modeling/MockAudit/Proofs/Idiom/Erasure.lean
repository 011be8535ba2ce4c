import MockAudit.Proofs.Idiom.Supertypes
import MockAudit.Proofs.Idiom.MockDefinition

/-!
# Superclasses of erasures

The search for real methods goes on from a parameterized type to the superclass of its erasure as well; the search for a
base type follows the type's own superclass only.
-/

namespace MockAudit

open Relation (ReflTransGen TransGen)

theorem transGen_or_departs {α : Type} {link : α → α → Prop} {a b : α} (reaches : TransGen link a b)
    (other : α → α → Prop) :
    TransGen other a b ∨ ∃ c d, ReflTransGen other a c ∧ link c d ∧ ¬ other c d ∧ ReflTransGen link d b := by
  induction reaches using TransGen.head_induction_on with
  | @single a last =>
      by_cases kept : other a b
      · exact .inl (.single kept)
      · exact .inr ⟨a, b, .refl, last, kept, .refl⟩
  | @head a c first rest ih =>
      by_cases kept : other a c
      · rcases ih with whole | ⟨d, e, upTo, next, departs, later⟩
        · exact .inl (.head kept whole)
        · exact .inr ⟨d, e, .head kept upTo, next, departs, later⟩
      · exact .inr ⟨a, c, .refl, first, kept, rest.to_reflTransGen⟩

namespace Symbols

variable {symbols : Symbols} {v : Vocabulary} {type other superclass base : TypeId}

def Extends (symbols : Symbols) (type superclass : TypeId) : Prop :=
  (symbols.type? type).isSome ∧
    (symbols.HasSuperclass type superclass ∨ symbols.HasSuperclass (symbols.erasure type) superclass)

theorem HasSuperclass.extends (linked : symbols.HasSuperclass type superclass) : symbols.Extends type superclass := by
  obtain ⟨binding, found, -⟩ := id linked
  exact ⟨Option.isSome_of_eq_some found, .inl linked⟩

theorem reaches_of_superclasses (above : ReflTransGen symbols.HasSuperclass type superclass) :
    ReflTransGen symbols.Extends type superclass :=
  above.lift id fun _ _ => HasSuperclass.extends

theorem isSome_of_erasure (linked : symbols.HasSuperclass (symbols.erasure type) superclass) :
    (symbols.type? type).isSome := by
  obtain ⟨binding, found, -⟩ := linked
  cases unresolved : symbols.type? type with
  | some own => rfl
  | none => simp [erasure, unresolved] at found

theorem Extends.hasSupertype (linked : symbols.Extends type superclass) : symbols.HasSupertype type superclass := by
  have names {type : TypeId} : symbols.HasSuperclass type superclass → symbols.Names type superclass :=
    fun ⟨binding, found, extended⟩ => ⟨binding, found, .inl extended⟩
  exact ⟨linked.1, linked.2.imp names names⟩

theorem isMockBase_congr (same : symbols.erasure type = symbols.erasure other) :
    symbols.isMockBase v type = symbols.isMockBase v other := by
  rw [isMockBase, same, isMockBase]

theorem isMockDefinition_iff_transGen : symbols.isMockDefinition v type ↔
    ∃ base, TransGen symbols.HasSuperclass type base ∧ symbols.isMockBase v base := by
  simp only [isMockDefinition_iff, transGen_iff_steps]
  constructor
  · rintro ⟨k, base, nearest⟩
    obtain ⟨n, rfl⟩ := Nat.exists_eq_add_of_le' nearest.positive
    exact ⟨base, ⟨n, nearest.above⟩, nearest.isBase⟩
  · rintro ⟨base, ⟨n, above⟩, isBase⟩
    exact exists_nearestBase (Nat.succ_pos n) above isBase

/-- The superclass of the type and that of its erasure have the same erasure, or there is neither. -/
def KeepsSuperclass (symbols : Symbols) (type : TypeId) : Prop :=
  (symbols.superclass? type).map symbols.erasure =
    (symbols.superclass? (symbols.erasure type)).map symbols.erasure

instance (symbols : Symbols) (type : TypeId) : Decidable (symbols.KeepsSuperclass type) :=
  inferInstanceAs (Decidable (_ = _))

theorem KeepsSuperclass.erased (keeps : symbols.KeepsSuperclass type) (linked : symbols.Extends type superclass) :
    (symbols.superclass? (symbols.erasure type)).map symbols.erasure = some (symbols.erasure superclass) := by
  rcases linked.2 with own | erased
  · rw [← keeps, superclass?_eq_some.mpr own, Option.map_some]
  · rw [superclass?_eq_some.mpr erased, Option.map_some]

theorem KeepsSuperclass.exists_own (keeps : symbols.KeepsSuperclass type)
    (erased : (symbols.superclass? (symbols.erasure type)).map symbols.erasure = some (symbols.erasure superclass)) :
    ∃ own, symbols.HasSuperclass type own ∧ symbols.erasure own = symbols.erasure superclass := by
  obtain ⟨own, found, same⟩ := Option.map_eq_some_iff.mp (keeps.trans erased)
  exact ⟨own, superclass?_eq_some.mp found, same⟩

theorem exists_step_of_extends {last own : TypeId}
    (keep : ∀ other, ReflTransGen symbols.Extends type other → symbols.KeepsSuperclass other)
    (before : ReflTransGen symbols.Extends type last) (next : symbols.Extends last superclass)
    (ownBefore : ReflTransGen symbols.HasSuperclass type own) (same : symbols.erasure own = symbols.erasure last) :
    ∃ above, symbols.HasSuperclass own above ∧ symbols.erasure above = symbols.erasure superclass := by
  have erased := (keep last before).erased next
  rw [← same] at erased
  exact (keep own (reaches_of_superclasses ownBefore)).exists_own erased

theorem exists_of_extends (keep : ∀ other, ReflTransGen symbols.Extends type other → symbols.KeepsSuperclass other)
    (reaches : ReflTransGen symbols.Extends type superclass) :
    ∃ own, ReflTransGen symbols.HasSuperclass type own ∧ symbols.erasure own = symbols.erasure superclass := by
  induction reaches with
  | refl => exact ⟨type, .refl, rfl⟩
  | tail before next ih =>
      obtain ⟨own, ownBefore, same⟩ := ih
      obtain ⟨above, ownNext, sameToo⟩ := exists_step_of_extends keep before next ownBefore same
      exact ⟨above, ownBefore.tail ownNext, sameToo⟩

theorem exists_transGen_of_extends
    (keep : ∀ other, ReflTransGen symbols.Extends type other → symbols.KeepsSuperclass other)
    (reaches : TransGen symbols.Extends type superclass) :
    ∃ own, TransGen symbols.HasSuperclass type own ∧ symbols.erasure own = symbols.erasure superclass := by
  obtain ⟨last, before, next⟩ := Relation.TransGen.tail'_iff.mp reaches
  obtain ⟨own, ownBefore, same⟩ := exists_of_extends keep before
  obtain ⟨above, ownNext, sameToo⟩ := exists_step_of_extends keep before next ownBefore same
  exact ⟨above, .tail' ownBefore ownNext, sameToo⟩

/-- A base type that can be reached with the superclasses of erasures makes a mock definition, unless the way to it
leaves the type's own superclasses, at a type whose erasure has a superclass that it does not have itself. -/
theorem mockDefinition_across_erasures (symbols : Symbols) (v : Vocabulary) (type : TypeId) :
    ((∃ base, TransGen symbols.Extends type base ∧ symbols.isMockBase v base) ↔
      symbols.isMockDefinition v type ∨ ∃ last superclass base, ReflTransGen symbols.HasSuperclass type last ∧
        symbols.HasSuperclass (symbols.erasure last) superclass ∧ ¬ symbols.HasSuperclass last superclass ∧
        ReflTransGen symbols.Extends superclass base ∧ symbols.isMockBase v base) ∧
    ((∀ other, ReflTransGen symbols.Extends type other → symbols.KeepsSuperclass other) →
      ((∃ base, TransGen symbols.Extends type base ∧ symbols.isMockBase v base) ↔
        symbols.isMockDefinition v type)) := by
  rw [isMockDefinition_iff_transGen]
  have own : (∃ base, TransGen symbols.HasSuperclass type base ∧ symbols.isMockBase v base) →
      ∃ base, TransGen symbols.Extends type base ∧ symbols.isMockBase v base := by
    rintro ⟨base, above, isBase⟩
    exact ⟨base, above.lift id fun _ _ => HasSuperclass.extends, isBase⟩
  refine ⟨⟨?_, ?_⟩, fun keep => ⟨?_, own⟩⟩
  · rintro ⟨base, above, isBase⟩
    rcases transGen_or_departs above symbols.HasSuperclass with kept | departed
    · exact .inl ⟨base, kept, isBase⟩
    · obtain ⟨last, superclass, upTo, next, departs, later⟩ := departed
      exact .inr ⟨last, superclass, base, upTo, next.2.resolve_left departs, departs, later, isBase⟩
  · rintro (definition | ⟨last, superclass, base, upTo, erased, -, later, isBase⟩)
    · exact own definition
    · have next : symbols.Extends last superclass := ⟨isSome_of_erasure erased, .inr erased⟩
      exact ⟨base, (TransGen.tail' (reaches_of_superclasses upTo) next).trans_left later, isBase⟩
  · rintro ⟨base, above, isBase⟩
    obtain ⟨base', above', same⟩ := exists_transGen_of_extends keep above
    exact ⟨base', above', by rw [isMockBase_congr same]; exact isBase⟩

/-- A class that extends a parameterized type, whose erasure extends the base type. The superclass of the parameterized
type itself is left open. -/
def genericFake (superclass : Option TypeId) : Symbols where
  types := #[{ name := "MockUp", qualifiedName := "mockit.MockUp" },
    { name := "MockUp", qualifiedName := "mockit.MockUp", typeArguments := [⟨5⟩], erasure := some ⟨0⟩ },
    { name := "BaseFake", qualifiedName := "shop.BaseFake", superclass := some ⟨0⟩ },
    { name := "BaseFake", qualifiedName := "shop.BaseFake", typeArguments := [⟨5⟩], erasure := some ⟨2⟩, superclass },
    { name := "FakeCart", qualifiedName := "shop.FakeCart", superclass := some ⟨3⟩ },
    { name := "Cart", qualifiedName := "shop.Cart" }]

theorem genericFake_extends (superclass : Option TypeId) :
    TransGen (genericFake superclass).Extends ⟨4⟩ ⟨0⟩ ∧ (genericFake superclass).isMockBase {} ⟨0⟩ := by
  have first : (genericFake superclass).Extends ⟨4⟩ ⟨3⟩ := ⟨rfl, .inl ⟨_, rfl, rfl⟩⟩
  have second : (genericFake superclass).Extends ⟨3⟩ ⟨0⟩ := ⟨rfl, .inr ⟨_, rfl, rfl⟩⟩
  exact ⟨.tail (.single first) second, rfl⟩

theorem mockDefinition_across_erasures_genericFake :
    (∀ other, ReflTransGen (genericFake (some ⟨1⟩)).Extends ⟨4⟩ other →
      (genericFake (some ⟨1⟩)).KeepsSuperclass other) ∧
    (genericFake (some ⟨1⟩)).isMockDefinition {} ⟨4⟩ := by
  have keep : ∀ other, ReflTransGen (genericFake (some ⟨1⟩)).Extends ⟨4⟩ other →
      (genericFake (some ⟨1⟩)).KeepsSuperclass other := by
    have listed : ∀ other ∈ (genericFake (some ⟨1⟩)).hierarchy ⟨4⟩,
        (genericFake (some ⟨1⟩)).KeepsSuperclass other := by decide +kernel
    intro other reaches
    exact listed other (mem_hierarchy.mpr (reaches.lift id fun _ _ => Extends.hasSupertype))
  exact ⟨keep, ((mockDefinition_across_erasures _ {} ⟨4⟩).2 keep).mp ⟨⟨0⟩, genericFake_extends _⟩⟩

/-- The base type goes unnoticed when the erasure alone has a superclass. -/
theorem mockDefinition_misses_genericFake :
    TransGen (genericFake none).Extends ⟨4⟩ ⟨0⟩ ∧ (genericFake none).isMockBase {} ⟨0⟩ ∧
      ⟨0⟩ ∈ (genericFake none).hierarchy ⟨4⟩ ∧ (genericFake none).isMockDefinition {} ⟨4⟩ = false := by
  obtain ⟨above, isBase⟩ := genericFake_extends none
  exact ⟨above, isBase, by decide +kernel, by decide +kernel⟩

end Symbols
end MockAudit
