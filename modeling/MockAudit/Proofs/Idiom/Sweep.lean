import MockAudit.Proofs.Idiom.Supertypes
import Mathlib.Data.List.Dedup

namespace MockAudit.Symbols

open Relation (ReflTransGen)

variable {symbols : Symbols} {target type other : TypeId}

def note (noted : List TypeId) (type : TypeId) : List TypeId :=
  if noted.contains type then noted else noted ++ [type]

theorem note_of_mem {noted : List TypeId} (known : type ∈ noted) : note noted type = noted := by
  simp [note, known]

theorem note_of_not_mem {noted : List TypeId} (fresh : type ∉ noted) : note noted type = noted ++ [type] := by
  simp [note, fresh]

theorem nodup_note {noted : List TypeId} (distinct : noted.Nodup) : (note noted type).Nodup := by
  by_cases known : type ∈ noted
  · rwa [note_of_mem known]
  · rw [note_of_not_mem known, ← List.concat_eq_append]
    exact distinct.concat known

theorem nodup_foldl_note {noted : List TypeId} (distinct : noted.Nodup) (types : List TypeId) :
    (types.foldl note noted).Nodup := by
  induction types generalizing noted with
  | nil => exact distinct
  | cons type types ih => exact ih (nodup_note distinct)

theorem unseen_congr {seen others : List TypeId} (same : ∀ type, type ∈ seen ↔ type ∈ others)
    (types : List TypeId) : unseen seen types = unseen others types := by
  induction types generalizing seen others with
  | nil => rfl
  | cons type types ih =>
      have sameAfter : ∀ other, other ∈ type :: seen ↔ other ∈ type :: others := by simp [same]
      rw [unseen, unseen, ih same, ih sameAfter]
      simp only [same]

theorem foldl_note (noted types : List TypeId) : types.foldl note noted = noted ++ unseen noted types := by
  induction types generalizing noted with
  | nil => simp [unseen]
  | cons type types ih =>
      rw [List.foldl_cons, ih, unseen]
      by_cases known : type ∈ noted
      · rw [note_of_mem known, if_pos known]
      · have same : ∀ other, other ∈ noted ++ [type] ↔ other ∈ type :: noted := by simp [or_comm]
        rw [note_of_not_mem known, if_neg known, unseen_congr same, List.append_assoc, List.singleton_append]

structure Sweep where
  noted : List TypeId
  read : Nat

namespace Sweep

def start (target : TypeId) : Sweep := ⟨[target], 0⟩

def finished (noted : List TypeId) : Sweep := ⟨noted, noted.length⟩

def next? (symbols : Symbols) (sweep : Sweep) : Option Sweep :=
  sweep.noted[sweep.read]?.map fun type => ⟨(symbols.supertypes type).foldl note sweep.noted, sweep.read + 1⟩

def Advances (symbols : Symbols) (sweep next : Sweep) : Prop := sweep.next? symbols = some next

theorem next?_finished (symbols : Symbols) (noted : List TypeId) : (finished noted).next? symbols = none := by
  simp [finished, next?]

theorem nodup_of_steps {n : Nat} {sweep : Sweep} (steps : Steps (Advances symbols) (start target) n sweep) :
    sweep.noted.Nodup := by
  induction steps with
  | here => exact List.nodup_singleton target
  | further _ next ih =>
      obtain ⟨type, -, rfl⟩ := Option.map_eq_some_iff.mp next
      exact nodup_foldl_note ih _

theorem steps_layer (symbols : Symbols) (before layer after : List TypeId) :
    Steps (Advances symbols) ⟨before ++ layer ++ after, before.length⟩ layer.length
      ⟨(layer.flatMap symbols.supertypes).foldl note (before ++ layer ++ after), before.length + layer.length⟩ := by
  induction layer generalizing before after with
  | nil => exact .here
  | cons type layer ih =>
      -- What is noted when the first type is read goes behind the rest of the layer.
      obtain ⟨added, noted⟩ : ∃ added, (symbols.supertypes type).foldl note (before ++ type :: (layer ++ after)) =
          before ++ type :: (layer ++ (after ++ added)) :=
        ⟨unseen (before ++ type :: (layer ++ after)) (symbols.supertypes type), by simp [foldl_note]⟩
      have first : Advances symbols ⟨before ++ type :: layer ++ after, before.length⟩
          ⟨(before ++ [type]) ++ layer ++ (after ++ added), (before ++ [type]).length⟩ := by
        simp [Advances, next?, noted]
      have rest := Steps.ahead first (ih (before ++ [type]) (after ++ added))
      simpa [noted, Nat.add_assoc, Nat.add_comm 1] using rest

theorem steps_up (symbols : Symbols) (before layer : List TypeId) :
    Steps (Advances symbols) ⟨before ++ layer, before.length⟩ layer.length
      ⟨before ++ layer ++ unseen (before ++ layer) (layer.flatMap symbols.supertypes), (before ++ layer).length⟩ := by
  simpa [foldl_note] using steps_layer symbols before layer []

end Sweep

theorem Layered.steps_layersFrom {fuel n : Nat} (before : List TypeId) {layer : List TypeId}
    (layered : symbols.Layered target n layer (before ++ layer)) (enough : symbols.types.size ≤ n + fuel) :
    Steps (Sweep.Advances symbols) ⟨before ++ layer, before.length⟩
      (symbols.layersFrom fuel layer (before ++ layer)).length
      (.finished (before ++ symbols.layersFrom fuel layer (before ++ layer))) := by
  induction fuel generalizing n before layer with
  | zero =>
      have read := Sweep.steps_up symbols before layer
      -- Nothing is further away than there are types in the table, so nothing is left to note.
      have nothing : unseen (before ++ layer) (layer.flatMap symbols.supertypes) = [] := by
        refine List.eq_nil_iff_forall_not_mem.mpr fun type above => ?_
        have near := (layered.up.mem_layer.mp above).le_size HasSupertype.inRange
        omega
      rwa [nothing, List.append_nil] at read
  | succ fuel ih =>
      rw [layersFrom_succ, List.length_append, ← List.append_assoc]
      exact (Sweep.steps_up symbols before layer).trans (ih (before ++ layer) layered.up (by omega))

def named (symbols : Symbols) : List TypeId :=
  symbols.types.toList.flatMap fun binding => binding.superclass.toList ++ binding.interfaces

theorem Names.mem_named (names : symbols.Names type other) : other ∈ symbols.named := by
  obtain ⟨binding, found, listed⟩ := names
  have member : binding ∈ symbols.types.toList := Array.mem_toList_iff.mpr (Array.mem_of_getElem? found)
  exact List.mem_flatMap.mpr ⟨binding, member, by simpa using listed⟩

theorem mem_named_of_mem_hierarchy (member : type ∈ symbols.hierarchy target) :
    type = target ∨ type ∈ symbols.named := by
  rcases (mem_hierarchy.mp member).cases_tail with same | ⟨lower, -, -, own | erased⟩
  · exact .inl same
  · exact .inr own.mem_named
  · exact .inr erased.mem_named

theorem steps_hierarchy (symbols : Symbols) (target : TypeId) :
    Steps (Sweep.Advances symbols) (.start target) (symbols.hierarchy target).length
      (.finished (symbols.hierarchy target)) :=
  Layered.steps_layersFrom [] (symbols.layered_start target) (Nat.le_add_left _ _)

theorem nodup_hierarchy (symbols : Symbols) (target : TypeId) : (symbols.hierarchy target).Nodup :=
  Sweep.nodup_of_steps (symbols.steps_hierarchy target)

theorem length_hierarchy_le (symbols : Symbols) (target : TypeId) :
    (symbols.hierarchy target).length ≤ (target :: symbols.named).dedup.length := by
  apply List.Subperm.length_le
  apply List.subperm_of_subset (symbols.nodup_hierarchy target)
  intro type member
  exact List.mem_dedup.mpr (List.mem_cons.mpr (mem_named_of_mem_hierarchy member))

theorem head?_hierarchy (symbols : Symbols) (target : TypeId) : (symbols.hierarchy target).head? = some target := by
  unfold hierarchy
  cases symbols.types.size with
  | zero => rfl
  | succ fuel => rw [layersFrom_succ, List.singleton_append, List.head?_cons]

/-- In whatever tables, a sweep that starts with a type comes to an end, and its list is then the hierarchy of the
type: exactly what links to supertypes lead to, each once, and nearer ones first. -/
theorem hierarchy_enumerates_supertypes (symbols : Symbols) (target : TypeId) :
    Steps (Sweep.Advances symbols) (.start target) (symbols.hierarchy target).length
      (.finished (symbols.hierarchy target)) ∧
    (Sweep.finished (symbols.hierarchy target)).next? symbols = none ∧
    (symbols.hierarchy target).length ≤ (target :: symbols.named).dedup.length ∧
    (symbols.hierarchy target).head? = some target ∧
    (symbols.hierarchy target).Nodup ∧
    (∀ type, type ∈ symbols.hierarchy target ↔ ReflTransGen symbols.HasSupertype target type) ∧
    (symbols.hierarchy target).Pairwise (symbols.NoFurther target) :=
  ⟨symbols.steps_hierarchy target, Sweep.next?_finished symbols _, symbols.length_hierarchy_le target,
    symbols.head?_hierarchy target, symbols.nodup_hierarchy target, fun _ => mem_hierarchy,
    symbols.hierarchy_pairwise target⟩

-- The first type is its own supertype by way of the third one, two types share an interface, the superclass of the
-- second one's erasure is in no table.
example :
    hierarchy
      { types := #[{ name := "Cart", qualifiedName := "shop.Cart", superclass := some ⟨1⟩, interfaces := [⟨2⟩] },
          { name := "Bag", qualifiedName := "shop.Bag", interfaces := [⟨4⟩], erasure := some ⟨3⟩ },
          { name := "Priced", qualifiedName := "shop.Priced", interfaces := [⟨4⟩, ⟨0⟩] },
          { name := "Bag", qualifiedName := "shop.Bag", superclass := some ⟨9⟩ },
          { name := "Named", qualifiedName := "shop.Named" }] } ⟨0⟩ = [⟨0⟩, ⟨1⟩, ⟨2⟩, ⟨4⟩, ⟨9⟩] := by
  decide

end MockAudit.Symbols
