import MockAudit.Idiom.Site
import MockAudit.Proofs.Idiom.MockDefinition
import MockAudit.Proofs.Unit.Ancestry

namespace MockAudit

open Relation (TransGen ReflTransGen)

namespace CompilationUnit

variable {unit : CompilationUnit} {id scope : NodeId} {kind : NodeKind}

structure Innermost (unit : CompilationUnit) (p : NodeKind → Prop) (id scope : NodeId) (kind : NodeKind) : Prop where
  around : TransGen (Lists unit.nodes) scope id
  isKind : unit.kind? scope = some kind
  holds : p kind
  innermost : ∀ other otherKind, TransGen (Lists unit.nodes) other id → unit.kind? other = some otherKind →
    p otherKind → Reaches unit.nodes other scope

theorem Innermost.unique {p : NodeKind → Prop} {other : NodeId} {otherKind : NodeKind}
    (first : unit.Innermost p id scope kind) (second : unit.Innermost p id other otherKind) :
    scope = other ∧ kind = otherKind := by
  have up : Reaches unit.nodes other scope :=
    first.innermost other otherKind second.around second.isKind second.holds
  have down : Reaches unit.nodes scope other :=
    second.innermost scope kind first.around first.isKind first.holds
  obtain rfl : scope = other := by
    rcases Relation.reflTransGen_iff_eq_or_transGen.mp up with same | above
    · exact same
    · exact absurd (above.trans_left down) (unit.not_above_self other)
  exact ⟨rfl, Option.some.inj (first.isKind.symm.trans second.isKind)⟩

theorem findSome?_ancestors_eq_some {α : Type} {f : NodeKind → Option α} {p : NodeKind → Prop}
    (decides : ∀ kind, (f kind).isSome ↔ p kind) {a : α} :
    (unit.ancestors id).findSome? (fun ancestor => (unit.kind? ancestor).bind f) = some a ↔
      ∃ scope kind, unit.Innermost p id scope kind ∧ f kind = some a := by
  have ordered := unit.ancestors_pairwise id
  rw [List.findSome?_eq_some_iff]
  constructor
  · rintro ⟨inner, scope, outer, split, found, none⟩
    obtain ⟨kind, isKind, value⟩ := Option.bind_eq_some_iff.mp found
    have listed : scope ∈ unit.ancestors id := split ▸ List.mem_append_right _ List.mem_cons_self
    refine ⟨scope, kind, ⟨unit.mem_ancestors.mp listed, isKind, ?_, ?_⟩, value⟩
    · exact (decides kind).mp (Option.isSome_of_eq_some value)
    · intro other otherKind around isOther holds
      have member := unit.mem_ancestors.mpr around
      rw [split] at member ordered
      rcases List.mem_append.mp member with lower | upper
      · have skipped := none other lower
        rw [isOther, Option.bind_some] at skipped
        simpa [skipped] using (decides otherKind).mpr holds
      · rcases List.mem_cons.mp upper with rfl | higher
        · exact .refl
        · exact (List.rel_of_pairwise_cons (List.pairwise_append.mp ordered).2.1 higher).to_reflTransGen
  · rintro ⟨scope, kind, innermost, value⟩
    obtain ⟨inner, outer, split⟩ := List.append_of_mem (unit.mem_ancestors.mpr innermost.around)
    refine ⟨inner, scope, outer, split, by simp [innermost.isKind, value], fun lower member => ?_⟩
    rw [split] at ordered
    -- A node further in with the property would be both below the innermost one and above it.
    by_contra found
    obtain ⟨b, hit⟩ := Option.ne_none_iff_exists'.mp found
    obtain ⟨lowerKind, isLower, value⟩ := Option.bind_eq_some_iff.mp hit
    have around := unit.mem_ancestors.mp (split ▸ List.mem_append_left _ member)
    have above := innermost.innermost lower lowerKind around isLower
      ((decides lowerKind).mp (Option.isSome_of_eq_some value))
    have below := (List.pairwise_append.mp ordered).2.2 lower member scope List.mem_cons_self
    exact unit.not_above_self scope (below.trans_left above)

end CompilationUnit

def NodeKind.declares? : NodeKind → Option (Option MethodId)
  | .methodDecl _ method => some method
  | _ => none

namespace Site

variable {site : Site} {type target : TypeId}

def InBody (site : Site) (type : Option TypeId) : Prop :=
  ∃ body kind, site.unit.Innermost (fun kind => kind.isTypeBody = true) site.node body kind ∧ kind.bodyType? = type

theorem InBody.unique {type other : Option TypeId} (first : site.InBody type) (second : site.InBody other) :
    type = other := by
  obtain ⟨body, kind, innermost, rfl⟩ := first
  obtain ⟨bodyToo, kindToo, innermostToo, rfl⟩ := second
  rw [(innermost.unique innermostToo).2]

theorem inBody_iff {type : Option TypeId} : site.InBody type ↔
    ((site.unit.ancestors site.node).findSome? fun ancestor =>
      match site.unit.kind? ancestor with
      | some kind => if kind.isTypeBody then some kind.bodyType? else none
      | none => none) = some type := by
  have search (ancestor : NodeId) : (match site.unit.kind? ancestor with
      | some kind => if kind.isTypeBody then some kind.bodyType? else none
      | none => none) = (site.unit.kind? ancestor).bind fun kind =>
        if kind.isTypeBody then some kind.bodyType? else none := by
    cases site.unit.kind? ancestor <;> rfl
  simp only [search]
  rw [CompilationUnit.findSome?_ancestors_eq_some (p := fun kind => kind.isTypeBody)]
  · refine exists_congr fun body => exists_congr fun kind => and_congr_right fun innermost => ?_
    rw [if_pos innermost.holds, Option.some.injEq]
  · intro kind
    cases kind.isTypeBody <;> simp

instance (type : Option TypeId) : Decidable (site.InBody type) := decidable_of_iff _ inBody_iff.symm

theorem enclosingType?_eq_some : site.enclosingType? = some type ↔
    ∃ body kind, site.unit.Innermost (fun kind => kind.isTypeBody = true) site.node body kind ∧
      kind.bodyType? = some type := by
  rw [enclosingType?, Option.join_eq_some_iff]
  exact inBody_iff.symm

def Mocks (site : Site) (target : TypeId) : Prop :=
  ∃ body kind type k base, site.unit.Innermost (fun kind => kind.isTypeBody = true) site.node body kind ∧
    kind.bodyType? = some type ∧ site.symbols.NearestBase site.vocabulary type k base ∧
    site.symbols.Targets base target

theorem bind_enclosingType?_eq_some :
    site.enclosingType?.bind (site.symbols.mockedTarget? site.vocabulary) = some target ↔ site.Mocks target := by
  rw [Option.bind_eq_some_iff]
  constructor
  · rintro ⟨type, encloses, mocks⟩
    obtain ⟨body, kind, innermost, bound⟩ := enclosingType?_eq_some.mp encloses
    obtain ⟨k, base, nearest, targets⟩ := Symbols.mockedTarget?_eq_some.mp mocks
    exact ⟨body, kind, type, k, base, innermost, bound, nearest, targets⟩
  · rintro ⟨body, kind, type, k, base, innermost, bound, nearest, targets⟩
    exact ⟨type, enclosingType?_eq_some.mpr ⟨body, kind, innermost, bound⟩,
      Symbols.mockedTarget?_eq_some.mpr ⟨k, base, nearest, targets⟩⟩

theorem classification_target_eq_some {name : NodeId} {method : Option MethodId}
    (isDecl : site.kind? = some (.methodDecl name method)) :
    site.classification.target = some target ↔ site.Mocks target := by
  rw [← bind_enclosingType?_eq_some]
  simp [classification, target?, relevantType?, isDecl]

theorem classification_target_of_call {name : NodeId} {receiver : Option NodeId} {method : Option MethodId}
    {result : Option TypeId} (isCall : site.kind? = some (.call name receiver method result)) :
    site.classification.target = some target ↔ site.Mocks target := by
  rw [← bind_enclosingType?_eq_some]
  simp [classification, target?, relevantType?, isCall]

def InMethod (site : Site) (method : Option MethodId) : Prop :=
  ∃ decl name, site.unit.Innermost (fun kind => ∃ name method, kind = .methodDecl name method) site.node decl
    (.methodDecl name method)

theorem InMethod.unique {method other : Option MethodId} (first : site.InMethod method)
    (second : site.InMethod other) : method = other := by
  obtain ⟨decl, name, innermost⟩ := first
  obtain ⟨declToo, nameToo, innermostToo⟩ := second
  have same := (innermost.unique innermostToo).2
  simp only [NodeKind.methodDecl.injEq] at same
  exact same.2

theorem inMethod_iff {method : Option MethodId} : site.InMethod method ↔
    ((site.unit.ancestors site.node).findSome? fun ancestor =>
      match site.unit.kind? ancestor with
      | some (.methodDecl _ method) => some method
      | _ => none) = some method := by
  have decides (kind : NodeKind) : kind.declares?.isSome ↔ ∃ name method, kind = .methodDecl name method := by
    cases kind <;> simp [NodeKind.declares?]
  have search (ancestor : NodeId) : (match site.unit.kind? ancestor with
      | some (.methodDecl _ method) => some method
      | _ => none) = (site.unit.kind? ancestor).bind NodeKind.declares? := by
    cases site.unit.kind? ancestor with
    | none => rfl
    | some kind => cases kind <;> rfl
  simp only [search]
  rw [CompilationUnit.findSome?_ancestors_eq_some decides]
  constructor
  · rintro ⟨decl, name, innermost⟩
    exact ⟨decl, _, innermost, rfl⟩
  · rintro ⟨decl, kind, innermost, bound⟩
    obtain ⟨name, other, rfl⟩ := innermost.holds
    obtain rfl : other = method := Option.some.inj bound
    exact ⟨decl, name, innermost⟩

instance (method : Option MethodId) : Decidable (site.InMethod method) := decidable_of_iff _ inMethod_iff.symm

theorem enclosingMock?_eq_some {method : MethodId} : site.enclosingMock? = some method ↔
    site.InMethod (some method) ∧ site.symbols.isMockMethod site.vocabulary method := by
  rw [enclosingMock?, Option.filter_eq_some_iff, Option.join_eq_some_iff]
  exact and_congr_left fun _ => inMethod_iff.symm

end Site
end MockAudit
