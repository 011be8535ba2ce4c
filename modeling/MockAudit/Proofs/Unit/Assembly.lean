import MockAudit.Proofs.Unit.Preorder
import MockAudit.Proofs.Unit.Renumbering
import MockAudit.Proofs.Unit.Transcript
import MockAudit.Proofs.Unit.Validation

namespace MockAudit.Assembly

def FirstLoose (events : List Event) (id : NodeId) : Prop :=
  ∃ before parent kind span after, events = before ++ .node id parent kind span :: after ∧
    Each Event.Grounded before ∧ ¬ Event.Grounded before (.node id parent kind span)

theorem grounded_or_firstLoose (events : List Event) :
    Each Event.Grounded events ∨ ∃ id, FirstLoose events id := by
  rcases each_or_first Event.Grounded events with grounded | ⟨before, event, after, split, grounded, loose⟩
  · exact .inl grounded
  · cases event with
    | node id parent kind span => exact .inr ⟨id, before, parent, kind, span, after, split, grounded, loose⟩
    | _ => exact absurd trivial loose

namespace Records

variable {events before after : List Event} {assembly : Assembly} {id parent : NodeId} {kind : NodeKind} {span : Span}

theorem mem_of_node (records : Records events assembly) (inside : id.toNat < assembly.nodes.size)
    (notRoot : id ≠ rootId) : ∃ parent kind span, .node id parent kind span ∈ events := by
  rcases List.mem_cons.mp ((records.known id).mpr inside) with isRoot | added
  · exact absurd isRoot notRoot
  · obtain ⟨event, member, isNode⟩ := List.mem_filterMap.mp added
    obtain ⟨parent, kind, span, rfl⟩ := Event.node?_eq_some.mp isNode
    exact ⟨parent, kind, span, member⟩

theorem lists_iff (records : Records events assembly) :
    Lists assembly.nodes parent id ↔ ∃ kind span, .node id parent kind span ∈ events ∧ parent.toNat ≤ id.toNat := by
  have listed : Lists assembly.nodes parent id ↔ id ∈ assembly.children parent := lists_iff_mem
  rw [listed, records.children, List.mem_filterMap]
  constructor
  · rintro ⟨event, member, entered⟩
    obtain ⟨kind, span, rfl, inTime⟩ := Event.enters?_eq_some.mp entered
    exact ⟨kind, span, member, inTime⟩
  · rintro ⟨kind, span, member, inTime⟩
    exact ⟨_, member, Event.enters?_eq_some.mpr ⟨kind, span, rfl, inTime⟩⟩

theorem added (records : Records events assembly) (member : .node id parent kind span ∈ events) :
    0 < id.toNat ∧ id.toNat < assembly.nodes.size := by
  have isNode : id ∈ events.filterMap Event.node? := List.mem_filterMap.mpr ⟨_, member, rfl⟩
  exact ⟨(List.pairwise_cons.mp records.ordered).1 id isNode, (records.known id).mp (List.mem_cons_of_mem _ isNode)⟩

theorem apart (records : Records events assembly) (split : events = before ++ .node id parent kind span :: after) :
    (∀ other ∈ before.filterMap Event.node?, other.toNat < id.toNat) ∧
      ∀ other ∈ after.filterMap Event.node?, id.toNat < other.toNat := by
  have ordered := (List.pairwise_cons.mp records.ordered).2
  rw [split, List.filterMap_append, List.pairwise_append] at ordered
  obtain ⟨-, later, crossing⟩ := ordered
  exact ⟨fun other earlier => crossing other earlier id List.mem_cons_self, (List.pairwise_cons.mp later).1⟩

theorem unique (records : Records events assembly) {other : NodeId} {kind' : NodeKind} {span' : Span}
    (member : .node id parent kind span ∈ events) (again : .node id other kind' span' ∈ events) : parent = other := by
  obtain ⟨before, after, split⟩ := List.append_of_mem member
  have apart := records.apart split
  rw [split, List.mem_append, List.mem_cons] at again
  rcases again with earlier | same | later
  · exact absurd (apart.1 id (List.mem_filterMap.mpr ⟨_, earlier, rfl⟩)) (Nat.lt_irrefl _)
  · injection same with _ above
    exact above.symm
  · exact absurd (apart.2 id (List.mem_filterMap.mpr ⟨_, later, rfl⟩)) (Nat.lt_irrefl _)

theorem linked (records : Records events assembly) : Linked assembly.nodes where
  inRange lists := by
    obtain ⟨kind, span, member, -⟩ := records.lists_iff.mp lists
    exact (records.added member).2
  rootFree lists := by
    obtain ⟨kind, span, member, -⟩ := records.lists_iff.mp lists
    exact absurd (records.added member).1 (Nat.lt_irrefl 0)
  unique lists again := by
    obtain ⟨kind, span, member, -⟩ := records.lists_iff.mp lists
    obtain ⟨kind', span', memberToo, -⟩ := records.lists_iff.mp again
    exact records.unique member memberToo
  distinct {id node} found := by
    have own : node.children = events.filterMap (·.enters? id) := by
      rw [← records.children, Assembly.children, node?, found, Option.map_some, Option.getD_some]
    have entered {event : Event} {child : NodeId} (enters : event.enters? id = some child) :
        event.node? = some child := by
      obtain ⟨kind, span, rfl, -⟩ := Event.enters?_eq_some.mp enters
      rfl
    have ordered := List.pairwise_filterMap.mp (List.pairwise_cons.mp records.ordered).2
    rw [own]
    refine List.pairwise_filterMap.mpr (ordered.imp fun rises first isFirst second isSecond same => ?_)
    have below := rises first (entered isFirst) second (entered isSecond)
    rw [same] at below
    exact Nat.lt_irrefl _ below

theorem reaches (records : Records events assembly) {bound : Nat}
    (inTime : ∀ {id parent kind span}, .node id parent kind span ∈ events → id.toNat < bound → parent.toNat < id.toNat)
    (inside : id.toNat < assembly.nodes.size) (below : id.toNat < bound) : Reaches assembly.nodes rootId id := by
  -- By induction on positions: a parent that was there in time has a lower one.
  induction position : id.toNat using Nat.strong_induction_on generalizing id with
  | _ n ih =>
      by_cases isRoot : id = rootId
      · rw [isRoot]
      · obtain ⟨parent, kind, span, member⟩ := records.mem_of_node inside isRoot
        have above := inTime member below
        have lists : Lists assembly.nodes parent id := records.lists_iff.mpr ⟨kind, span, member, above.le⟩
        exact (ih parent.toNat (by omega) (by omega) (by omega) rfl).tail lists

theorem not_reaches (records : Records events assembly) (member : .node id parent kind span ∈ events)
    (late : id.toNat ≤ parent.toNat) : ¬ Reaches assembly.nodes rootId id := by
  -- Nothing but the node itself can list it, so no path leads to it for the first time.
  have alone {above : NodeId} (lists : Lists assembly.nodes above id) : above = id := by
    obtain ⟨kind', span', again, inTime⟩ := records.lists_iff.mp lists
    obtain rfl := records.unique member again
    exact Ref.toNat_injective (Nat.le_antisymm inTime late)
  suffices avoided : ∀ other, Reaches assembly.nodes rootId other → other ≠ id from fun path => avoided id path rfl
  intro other path
  induction path with
  | refl =>
      rintro rfl
      exact absurd (records.added member).1 (Nat.lt_irrefl 0)
  | tail _ lists ih =>
      rintro rfl
      exact ih (alone lists)

theorem inTime (records : Records events assembly) (split : events = before ++ after)
    (grounded : Each Event.Grounded before) (member : .node id parent kind span ∈ before) :
    parent.toNat < id.toNat := by
  obtain ⟨earlier, between, cut⟩ := List.append_of_mem member
  exact (records.grounded (by rw [split, cut, List.append_assoc, List.cons_append])).mp (grounded _ _ _ cut)

theorem inTime_of_mem (records : Records events assembly) (grounded : Each Event.Grounded events)
    (member : .node id parent kind span ∈ events) : parent.toNat < id.toNat :=
  records.inTime (List.append_nil events).symm grounded member

theorem isTree (records : Records events assembly) (bounded : assembly.nodes.size ≤ 2 ^ 32)
    (grounded : Each Event.Grounded events) : IsTree assembly.nodes := by
  have nonempty : 0 < assembly.nodes.size := (records.known rootId).mp List.mem_cons_self
  refine (records.linked.sound bounded).isTree nonempty fun id inside => ?_
  exact records.reaches (fun member _ => records.inTime_of_mem grounded member) inside inside

theorem firstDefect (records : Records events assembly) (bounded : assembly.nodes.size ≤ 2 ^ 32)
    (loose : FirstLoose events id) : FirstDefect assembly.nodes (.unreachable id) := by
  obtain ⟨before, parent, kind, span, after, split, grounded, late⟩ := loose
  have member : .node id parent kind span ∈ events := by simp [split]
  have inside := (records.added member).2
  rw [records.grounded split, Nat.not_lt] at late
  refine .unreachable (records.linked.sound bounded) inside (records.not_reaches member late) ?_
  intro other below
  refine records.reaches (fun {id' parent' kind' span'} memberToo lower => ?_) (by omega) below
  -- The nodes at lower positions were added before the first loose one.
  have earlier : .node id' parent' kind' span' ∈ before := by
    rw [split, List.mem_append, List.mem_cons] at memberToo
    rcases memberToo with earlier | same | later
    · exact earlier
    · injection same with equal
      rw [equal] at lower
      exact absurd lower (Nat.lt_irrefl _)
    · have above := (records.apart split).2 id' (List.mem_filterMap.mpr ⟨_, later, rfl⟩)
      omega
  exact records.inTime split grounded earlier

end Records

/-- What a transcript says about the unit that is built in the end. -/
structure Tells (events : List Event) (unit : CompilationUnit) : Prop where
  parent : ∀ id parent, unit.parent? id = some parent ↔ ∃ kind span, .node id parent kind span ∈ events
  children : ∀ id, unit.children id = events.filterMap (·.childOf? id)
  methods : ∀ before id binding after, events = before ++ .type id binding :: after →
    unit.symbols.type? id = some { binding with methods := binding.methods ++ after.filterMap (·.methodOf? id) }

section Build

variable {events : List Event} {assembly : Assembly}

theorem toDraft_lineIndex (assembly : Assembly) :
    assembly.toDraft.lineIndex = .ok ⟨.ofSource assembly.source, rfl⟩ := rfl

theorem Records.build_ok (records : Records events assembly) (bounded : assembly.nodes.size ≤ 2 ^ 32)
    (grounded : Each Event.Grounded events) : ∃ unit, assembly.build = .ok unit := by
  obtain ⟨parents, linked, -⟩ := parentIndex_of_isTree bounded (records.isTree bounded grounded)
  exact ⟨_, Draft.validate_eq_ok assembly.toDraft_lineIndex linked⟩

theorem Records.build_error (records : Records events assembly) (bounded : assembly.nodes.size ≤ 2 ^ 32) {id : NodeId}
    (loose : FirstLoose events id) : assembly.build = .error (.unreachable id) :=
  (Draft.validate_eq_error assembly.toDraft_lineIndex).mpr
    (parentIndex_of_firstDefect bounded (records.firstDefect bounded loose))

theorem Records.build_ok_iff (records : Records events assembly) (bounded : assembly.nodes.size ≤ 2 ^ 32) :
    (∃ unit, assembly.build = .ok unit) ↔ Each Event.Grounded events := by
  refine ⟨?_, records.build_ok bounded⟩
  rintro ⟨unit, built⟩
  rcases grounded_or_firstLoose events with grounded | ⟨id, loose⟩
  · exact grounded
  · simp [records.build_error bounded loose] at built

theorem Records.build_error_iff (records : Records events assembly) (bounded : assembly.nodes.size ≤ 2 ^ 32)
    {defect : Defect} :
    assembly.build = .error defect ↔ ∃ id, defect = .unreachable id ∧ FirstLoose events id := by
  constructor
  · intro rejected
    rcases grounded_or_firstLoose events with grounded | ⟨id, loose⟩
    · obtain ⟨unit, built⟩ := records.build_ok bounded grounded
      simp [built] at rejected
    · rw [records.build_error bounded loose, Except.error.injEq] at rejected
      exact ⟨id, rejected.symm, loose⟩
  · rintro ⟨id, rfl, loose⟩
    exact records.build_error bounded loose

theorem Records.children_eq (records : Records events assembly) (grounded : Each Event.Grounded events) (id : NodeId) :
    assembly.children id = events.filterMap (·.childOf? id) := by
  rw [records.children]
  refine List.filterMap_congr fun event member => ?_
  cases event with
  | node own parent kind span =>
      have inTime := records.inTime_of_mem grounded member
      by_cases under : parent = id
      · subst under
        simp [Event.enters?, Event.childOf?, inTime.le]
      · simp [Event.enters?, Event.childOf?, under]
  | _ => rfl

theorem Records.tells (records : Records events assembly) (grounded : Each Event.Grounded events)
    {unit : CompilationUnit} (built : assembly.build = .ok unit) : Tells events unit := by
  have described := Draft.describes_of_validate built
  have nodes : unit.nodes = assembly.nodes := described.nodes
  have symbols : unit.symbols = assembly.symbols := described.symbols
  constructor
  · intro id parent
    rw [unit.parent?_eq_some, nodes, records.lists_iff]
    constructor
    · rintro ⟨kind, span, member, -⟩
      exact ⟨kind, span, member⟩
    · rintro ⟨kind, span, member⟩
      exact ⟨kind, span, member, (records.inTime_of_mem grounded member).le⟩
  · intro id
    rw [← records.children_eq grounded, CompilationUnit.children, CompilationUnit.node?, nodes]
    rfl
  · intro before id binding after split
    rw [symbols]
    exact records.standing split

end Build

/-- Every call answers the position of its entry. The unit is valid if and only if every parent was there in time; it is
then the one that the calls describe, and otherwise the first node without a parent is reported. -/
theorem build_follows_calls {path source : String} {calls : List Call} {events : List Event} {final : Assembly}
    (ran : (start path source).run calls = (events, final)) (bounded : ∀ table, final.size table ≤ 2 ^ 32) :
    events.map Event.call = calls ∧
    (∀ before event after, events = before ++ event :: after →
      event.IsNext before ∧ event.StandsIn final after) ∧
    ((∃ unit, final.build = .ok unit) ↔ Each Event.Grounded events) ∧
    (∀ unit, final.build = .ok unit → Tells events unit) ∧
    (∀ defect, final.build = .error defect ↔ ∃ id, defect = .unreachable id ∧ FirstLoose events id) := by
  have answered := map_call_run (start path source) calls
  have records := records_run path source calls
  rw [ran] at answered records
  have records := records bounded
  have accepted := records.build_ok_iff (bounded .node)
  refine ⟨answered, ?_, accepted, ?_, fun defect => records.build_error_iff (bounded .node)⟩
  · intro before event after split
    exact ⟨records.numbered before event after split, records.standing split⟩
  · intro unit built
    exact records.tells (accepted.mp ⟨unit, built⟩) built

def nestedCalls : List Call :=
  [.type { name := "Cart", qualifiedName := "shop.Cart", methods := [⟨7⟩] },
    .node rootId (.typeDecl ⟨2⟩ (some ⟨0⟩)) ⟨0, 10⟩, .method { name := "total", declaringType := ⟨0⟩ },
    .node ⟨1⟩ (.simpleName "Cart" none) ⟨6, 4⟩, .field { name := "sum" },
    .method { name := "clear", declaringType := ⟨0⟩ }, .node rootId .other ⟨10, 0⟩]

def looseCalls : List Call :=
  [.node rootId .block ⟨0, 10⟩, .node ⟨2⟩ .block ⟨0, 5⟩, .node ⟨9⟩ .other ⟨6, 4⟩]

theorem build_follows_calls_nested_and_loose :
    (∃ unit, ((start "Cart.java" "class Cart").run nestedCalls).2.build = .ok unit ∧
      unit.parent? ⟨2⟩ = some ⟨1⟩ ∧ unit.children rootId = [⟨1⟩, ⟨3⟩] ∧
      (unit.symbols.type? ⟨0⟩).map (·.methods) = some [⟨7⟩, ⟨0⟩, ⟨1⟩]) ∧
    ((start "Cart.java" "class Cart").run looseCalls).2.build = .error (.unreachable ⟨2⟩) := by
  constructor
  · have ran : (start "Cart.java" "class Cart").run nestedCalls = (_, _) := rfl
    obtain ⟨-, -, accepted, tells, -⟩ := build_follows_calls ran fun table => by cases table <;> decide
    obtain ⟨unit, built⟩ := accepted.mpr (by decide)
    have told := tells unit built
    refine ⟨unit, built, ?_, ?_, ?_⟩
    · exact (told.parent ⟨2⟩ ⟨1⟩).mpr ⟨.simpleName "Cart" none, ⟨6, 4⟩, by decide⟩
    · rw [told.children]
      decide
    · rw [told.methods [] ⟨0⟩ _ _ rfl]
      decide
  · have ran : (start "Cart.java" "class Cart").run looseCalls = (_, _) := rfl
    obtain ⟨-, -, -, -, rejected⟩ := build_follows_calls ran fun table => by cases table <;> decide
    refine (rejected _).mpr ⟨⟨2⟩, rfl, ?_⟩
    exact ⟨[.node ⟨1⟩ rootId .block ⟨0, 10⟩], ⟨2⟩, .block, ⟨0, 5⟩, _, rfl, by decide, by decide⟩

end MockAudit.Assembly
