import MockAudit.Unit.Assembly
import MockAudit.Proofs.Unit.Tree

namespace MockAudit

namespace Ref

variable {table : Table} {α : Type} {ref : Ref table} {entries : Array α}

theorem resolve_push {entry : α} :
    ref.resolve (entries.push entry) = if ref.toNat = entries.size then some entry else ref.resolve entries :=
  Array.getElem?_push

theorem resolve_update {other : Ref table} {f : α → α} :
    ref.resolve (other.update entries f) =
      if ref = other then (ref.resolve entries).map f else ref.resolve entries := by
  rw [update, resolve, Array.getElem?_modify]
  by_cases same : ref = other
  · simp [same, resolve]
  · have different : other.toNat ≠ ref.toNat := fun equal => same (toNat_injective equal).symm
    simp [same, different, resolve]

theorem resolve_push_of_eq_some {entry other : α} (found : ref.resolve entries = some entry) :
    ref.resolve (entries.push other) = some entry := by
  have inside : ref.toNat < entries.size := resolve_isSome.mp (by simp [found])
  rw [resolve_push, if_neg (by omega), found]

theorem resolve_eq_none : ref.resolve entries = none ↔ entries.size ≤ ref.toNat := Array.getElem?_eq_none_iff

@[simp] theorem size_update {f : α → α} : (ref.update entries f).size = entries.size := by simp [update]

end Ref

namespace Assembly

/-! ## Transcripts -/

inductive Call where
  | type (binding : TypeBinding)
  | method (binding : MethodBinding)
  | field (binding : FieldBinding)
  | node (parent : NodeId) (kind : NodeKind) (span : Span)
deriving DecidableEq

inductive Event where
  | type (id : TypeId) (binding : TypeBinding)
  | method (id : MethodId) (binding : MethodBinding)
  | field (id : FieldId) (binding : FieldBinding)
  | node (id parent : NodeId) (kind : NodeKind) (span : Span)
deriving DecidableEq

def step (assembly : Assembly) : Call → Event × Assembly
  | .type binding =>
      let (id, next) := assembly.addType binding
      (.type id binding, next)
  | .method binding =>
      let (id, next) := assembly.addMethod binding
      (.method id binding, next)
  | .field binding =>
      let (id, next) := assembly.addField binding
      (.field id binding, next)
  | .node parent kind span =>
      let (id, next) := assembly.addNode parent kind span
      (.node id parent kind span, next)

def run (assembly : Assembly) (calls : List Call) : List Event × Assembly :=
  calls.foldl (fun (events, current) call =>
    let (event, next) := current.step call
    (events ++ [event], next)) ([], assembly)

def size (assembly : Assembly) : Table → Nat
  | .node => assembly.nodes.size
  | .type => assembly.symbols.types.size
  | .method => assembly.symbols.methods.size
  | .field => assembly.symbols.fields.size

def first : Table → Nat
  | .node => 1
  | _ => 0

namespace Event

def call : Event → Call
  | .type _ binding => .type binding
  | .method _ binding => .method binding
  | .field _ binding => .field binding
  | .node _ parent kind span => .node parent kind span

def table : Event → Table
  | .type .. => .type
  | .method .. => .method
  | .field .. => .field
  | .node .. => .node

def position : Event → Nat
  | .type id _ => id.toNat
  | .method id _ => id.toNat
  | .field id _ => id.toNat
  | .node id .. => id.toNat

def node? : Event → Option NodeId
  | .node id .. => some id
  | _ => none

def childOf? (parent : NodeId) : Event → Option NodeId
  | .node id above _ _ => if above = parent then some id else none
  | _ => none

def methodOf? (owner : TypeId) : Event → Option MethodId
  | .method id binding => if binding.declaringType = owner then some id else none
  | _ => none

def IsNext (before : List Event) (event : Event) : Prop :=
  event.position = first event.table + before.countP (·.table = event.table)

def Grounded (before : List Event) : Event → Prop
  | .node _ parent _ _ => parent ∈ rootId :: before.filterMap node?
  | _ => True

def StandsIn (assembly : Assembly) (after : List Event) : Event → Prop
  | .type id binding =>
      assembly.symbols.type? id = some { binding with methods := binding.methods ++ after.filterMap (methodOf? id) }
  | .method id binding => assembly.symbols.method? id = some binding
  | .field id binding => assembly.symbols.field? id = some binding
  | .node id _ kind span => ∃ children, assembly.node? id = some ⟨kind, span, children⟩

/-- What an event adds to a child list. A node takes no child before it is there; as it is added, it can take itself. -/
def enters? (parent : NodeId) : Event → Option NodeId
  | .node id above _ _ => if above = parent ∧ parent.toNat ≤ id.toNat then some id else none
  | _ => none

theorem node?_eq_some {event : Event} {id : NodeId} :
    event.node? = some id ↔ ∃ parent kind span, event = .node id parent kind span := by
  cases event <;> simp [node?]

theorem enters?_eq_some {event : Event} {parent id : NodeId} :
    event.enters? parent = some id ↔ ∃ kind span, event = .node id parent kind span ∧ parent.toNat ≤ id.toNat := by
  cases event with
  | node own above kind span =>
      simp only [enters?, Option.ite_none_right_eq_some, Option.some.injEq, node.injEq]
      constructor
      · rintro ⟨⟨rfl, inTime⟩, rfl⟩
        exact ⟨kind, span, ⟨rfl, rfl, rfl, rfl⟩, inTime⟩
      · rintro ⟨_, _, ⟨rfl, rfl, -, -⟩, inTime⟩
        exact ⟨⟨rfl, inTime⟩, rfl⟩
  | _ => simp [enters?]

instance (before : List Event) : DecidablePred (Grounded before)
  | .node _ parent _ _ => inferInstanceAs (Decidable (parent ∈ rootId :: before.filterMap node?))
  | .type .. | .method .. | .field .. => isTrue trivial

end Event

def children (assembly : Assembly) (id : NodeId) : List NodeId := ((assembly.node? id).map (·.children)).getD []

/-! ## One call -/

section Step

variable (assembly : Assembly) (call : Call)

@[simp] theorem step_call : (assembly.step call).1.call = call := by cases call <;> rfl

theorem size_step (table : Table) :
    (assembly.step call).2.size table =
      assembly.size table + if (assembly.step call).1.table = table then 1 else 0 := by
  cases call <;> cases table <;>
    simp [step, size, addType, addMethod, addField, addNode, Ref.append, Event.table]

variable {assembly call}

theorem position_step (small : assembly.size (assembly.step call).1.table < 2 ^ 32) :
    (assembly.step call).1.position = assembly.size (assembly.step call).1.table := by
  cases call <;> exact Ref.toNat_ofNat small

theorem type?_step {id : TypeId} {binding : TypeBinding} (found : assembly.symbols.type? id = some binding) :
    (assembly.step call).2.symbols.type? id =
      some { binding with methods := binding.methods ++ ((assembly.step call).1.methodOf? id).toList } := by
  unfold Symbols.type? at found ⊢
  cases call with
  | type added => simpa [step, addType, Ref.append, Event.methodOf?] using Ref.resolve_push_of_eq_some found
  | method added =>
      simp only [step, addMethod, Ref.resolve_update, found, Event.methodOf?, eq_comm (a := id)]
      split <;> simp
  | field added => simpa [step, addField, Event.methodOf?] using found
  | node parent kind span => simpa [step, addNode, Event.methodOf?] using found

theorem method?_step {id : MethodId} {binding : MethodBinding} (found : assembly.symbols.method? id = some binding) :
    (assembly.step call).2.symbols.method? id = some binding := by
  cases call with
  | method added => exact Ref.resolve_push_of_eq_some found
  | _ => exact found

theorem field?_step {id : FieldId} {binding : FieldBinding} (found : assembly.symbols.field? id = some binding) :
    (assembly.step call).2.symbols.field? id = some binding := by
  cases call with
  | field added => exact Ref.resolve_push_of_eq_some found
  | _ => exact found

theorem node?_step {id : NodeId} {kind : NodeKind} {span : Span} {children : List NodeId}
    (found : assembly.node? id = some ⟨kind, span, children⟩) :
    ∃ longer, (assembly.step call).2.node? id = some ⟨kind, span, longer⟩ := by
  cases call with
  | node parent addedKind addedSpan =>
      simp only [step, addNode, Ref.append, node?, Ref.resolve_update, Ref.resolve_push_of_eq_some found]
      split <;> simp
  | _ => exact ⟨children, found⟩

theorem children_step (small : assembly.size (assembly.step call).1.table < 2 ^ 32) (id : NodeId) :
    (assembly.step call).2.children id = assembly.children id ++ ((assembly.step call).1.enters? id).toList := by
  cases call with
  | node parent kind span =>
      have position : (.ofNat assembly.nodes.size : NodeId).toNat = assembly.nodes.size := Ref.toNat_ofNat small
      simp only [step, addNode, Ref.append, children, node?, Ref.resolve_update, Ref.resolve_push, Event.enters?,
        position, eq_comm (a := parent)]
      -- A node that was there, the new node, or none.
      rcases Nat.lt_trichotomy id.toNat assembly.nodes.size with inside | fresh | outside
      · obtain ⟨node, found⟩ := Option.isSome_iff_exists.mp (Ref.resolve_isSome.mpr inside)
        simp only [found, Nat.ne_of_lt inside, Nat.le_of_lt inside, if_false, and_true]
        split <;> simp
      · simp only [Ref.resolve_eq_none.mpr (Nat.le_of_eq fresh.symm), fresh, if_true, Nat.le_refl, and_true]
        split <;> simp
      · simp [Ref.resolve_eq_none.mpr (Nat.le_of_lt outside), Nat.ne_of_gt outside, Nat.not_le_of_lt outside]
  | _ => simp [step, addType, addMethod, addField, children, node?, Event.enters?]

end Step

/-! ## Every call -/

def Each (holds : List Event → Event → Prop) (events : List Event) : Prop :=
  ∀ before event after, events = before ++ event :: after → holds before event

theorem split_concat {events before after : List Event} {last event : Event}
    (split : events ++ [last] = before ++ event :: after) :
    (before = events ∧ event = last ∧ after = []) ∨
      ∃ between, after = between ++ [last] ∧ events = before ++ event :: between := by
  rcases after.eq_nil_or_concat with rfl | ⟨between, added, rfl⟩
  · obtain ⟨rfl, same⟩ := List.append_inj' split rfl
    exact .inl ⟨rfl, (List.singleton_inj.mp same).symm, rfl⟩
  · have shifted : events ++ [last] = (before ++ event :: between) ++ [added] := by simpa using split
    obtain ⟨rfl, same⟩ := List.append_inj' shifted rfl
    exact .inr ⟨between, by rw [List.singleton_inj.mp same, List.concat_eq_append], rfl⟩

theorem filterMap_concat {β : Type} (f : Event → Option β) (events : List Event) (last : Event) :
    (events ++ [last]).filterMap f = events.filterMap f ++ (f last).toList := by
  rw [List.filterMap_append]
  cases given : f last <;> simp [given]

theorem each_nil (holds : List Event → Event → Prop) : Each holds [] := by
  intro before event after split
  simp at split

theorem each_concat {holds : List Event → Event → Prop} {events : List Event} {last : Event} :
    Each holds (events ++ [last]) ↔ Each holds events ∧ holds events last := by
  constructor
  · intro each
    refine ⟨?_, each events last [] rfl⟩
    intro before event after split
    exact each before event (after ++ [last]) (by simp [split])
  · rintro ⟨each, new⟩ before event after split
    rcases split_concat split with ⟨rfl, rfl, -⟩ | ⟨between, -, earlier⟩
    · exact new
    · exact each before event between earlier

theorem each_or_first (holds : List Event → Event → Prop) (events : List Event) :
    Each holds events ∨ ∃ before event after,
      events = before ++ event :: after ∧ Each holds before ∧ ¬ holds before event := by
  induction events using List.reverseRecOn with
  | nil => exact .inl (each_nil holds)
  | append_singleton events last ih =>
      rcases ih with each | ⟨before, event, after, rfl, earlier, fails⟩
      · by_cases new : holds events last
        · exact .inl (each_concat.mpr ⟨each, new⟩)
        · exact .inr ⟨events, last, [], rfl, each, new⟩
      · exact .inr ⟨before, event, after ++ [last], by simp, earlier, fails⟩

theorem each_iff_get {holds : List Event → Event → Prop} {events : List Event} :
    Each holds events ↔ ∀ i : Fin events.length, holds (events.take i) (events.get i) := by
  constructor
  · intro each i
    exact each (events.take i) (events.get i) (events.drop (i + 1)) (by simp)
  · rintro each before event after rfl
    simpa using each ⟨before.length, by simp⟩

instance (holds : List Event → Event → Prop) [∀ before, DecidablePred (holds before)] (events : List Event) :
    Decidable (Each holds events) := decidable_of_iff _ each_iff_get.symm

/-- What a transcript says about an assembly. Nodes are known by position: all up to the last one are there, and a
parent was there in time if its position is lower. -/
structure Records (events : List Event) (assembly : Assembly) : Prop where
  size : ∀ table, assembly.size table = first table + events.countP (·.table = table)
  numbered : Each Event.IsNext events
  standing : ∀ {before event after}, events = before ++ event :: after → event.StandsIn assembly after
  children : ∀ id, assembly.children id = events.filterMap (·.enters? id)
  known : ∀ id, id ∈ rootId :: events.filterMap Event.node? ↔ id.toNat < assembly.nodes.size
  ordered : (rootId :: events.filterMap Event.node?).Pairwise (·.toNat < ·.toNat)
  grounded : ∀ {before after id parent kind span}, events = before ++ .node id parent kind span :: after →
    (Event.Grounded before (.node id parent kind span) ↔ parent.toNat < id.toNat)

theorem records_start (path source : String) : Records [] (start path source) where
  size table := by cases table <;> rfl
  numbered := each_nil _
  standing split := by simp at split
  children id := by
    unfold Assembly.children
    cases found : (start path source).node? id with
    | none => rfl
    | some node =>
        have only : node ∈ (start path source).nodes := Array.mem_of_getElem? found
        obtain rfl := List.mem_singleton.mp (Array.mem_def.mp only)
        rfl
  known id := by
    rw [List.filterMap_nil, List.mem_singleton, ← Ref.toNat_injective.eq_iff]
    exact Nat.lt_one_iff.symm
  ordered := by simp
  grounded split := by simp at split

section Step

variable {events : List Event} {assembly : Assembly} {call : Call}

theorem Records.isNext (records : Records events assembly)
    (small : assembly.size (assembly.step call).1.table < 2 ^ 32) :
    (assembly.step call).1.IsNext events := by
  rw [Event.IsNext, position_step small, records.size]

theorem Event.StandsIn.step {event : Event} {after : List Event} (stands : event.StandsIn assembly after) :
    event.StandsIn (assembly.step call).2 (after ++ [(assembly.step call).1]) := by
  cases event with
  | type id binding =>
      rw [StandsIn, filterMap_concat, ← List.append_assoc]
      exact type?_step stands
  | method id binding => exact method?_step stands
  | field id binding => exact field?_step stands
  | node id parent kind span =>
      obtain ⟨children, found⟩ := stands
      exact node?_step found

theorem standsIn_step (small : assembly.size (assembly.step call).1.table < 2 ^ 32) :
    (assembly.step call).1.StandsIn (assembly.step call).2 [] := by
  have new {table : Table} {α : Type} {entries : Array α} {entry : α} (room : entries.size < 2 ^ 32) :
      (.ofNat entries.size : Ref table).resolve (entries.push entry) = some entry := by
    rw [Ref.resolve_push, if_pos (Ref.toNat_ofNat room)]
  cases call with
  | type binding => simpa [step, addType, Ref.append, Event.StandsIn, Symbols.type?] using new small
  | method binding => exact new small
  | field binding => exact new small
  | node parent kind span =>
      simp only [step, addNode, Ref.append, Event.StandsIn, node?, Ref.resolve_update, new small]
      split <;> simp

theorem node?_step_cases (small : assembly.size (assembly.step call).1.table < 2 ^ 32) :
    ((assembly.step call).1.node? = none ∧ (assembly.step call).2.nodes.size = assembly.nodes.size) ∨
      ∃ id parent kind span, (assembly.step call).1 = .node id parent kind span ∧
        id.toNat = assembly.nodes.size ∧ (assembly.step call).2.nodes.size = assembly.nodes.size + 1 := by
  cases call with
  | node parent kind span =>
      exact .inr ⟨_, parent, kind, span, rfl, Ref.toNat_ofNat small, by simp [step, addNode, Ref.append]⟩
  | _ => exact .inl ⟨rfl, rfl⟩

theorem Records.known_step (records : Records events assembly)
    (small : assembly.size (assembly.step call).1.table < 2 ^ 32) (id : NodeId) :
    id ∈ rootId :: (events ++ [(assembly.step call).1]).filterMap Event.node? ↔
      id.toNat < (assembly.step call).2.nodes.size := by
  have known := records.known id
  rcases node?_step_cases small with ⟨other, same⟩ | ⟨added, parent, kind, span, isNode, position, grown⟩
  · simpa [other, same] using known
  · have isAdded : id = added ↔ id.toNat = assembly.nodes.size := by rw [← position, Ref.toNat_injective.eq_iff]
    rw [isNode, grown, filterMap_concat, ← List.cons_append, List.mem_append, known]
    simp only [Event.node?, Option.toList_some, List.mem_singleton, isAdded]
    omega

theorem Records.ordered_step (records : Records events assembly)
    (small : assembly.size (assembly.step call).1.table < 2 ^ 32) :
    (rootId :: (events ++ [(assembly.step call).1]).filterMap Event.node?).Pairwise (·.toNat < ·.toNat) := by
  rcases node?_step_cases small with ⟨other, -⟩ | ⟨added, parent, kind, span, isNode, position, -⟩
  · simpa [other] using records.ordered
  · rw [isNode, filterMap_concat, ← List.cons_append]
    refine List.pairwise_append.mpr ⟨records.ordered, by simp [Event.node?], ?_⟩
    intro earlier member last isLast
    obtain rfl : last = added := by simpa [Event.node?] using isLast
    rw [position]
    exact (records.known earlier).mp member

theorem Records.step (records : Records events assembly)
    (small : assembly.size (assembly.step call).1.table < 2 ^ 32) :
    Records (events ++ [(assembly.step call).1]) (assembly.step call).2 where
  size table := by
    rw [size_step, records.size, List.countP_append, List.countP_singleton]
    simp [Nat.add_assoc]
  numbered := each_concat.mpr ⟨records.numbered, records.isNext small⟩
  standing split := by
    rcases split_concat split with ⟨rfl, rfl, rfl⟩ | ⟨between, rfl, earlier⟩
    · exact standsIn_step small
    · exact (records.standing earlier).step
  children id := by
    rw [children_step small, records.children, filterMap_concat]
  known := records.known_step small
  ordered := records.ordered_step small
  grounded {before after id parent kind span} split := by
    rcases split_concat split with ⟨rfl, last, -⟩ | ⟨between, -, earlier⟩
    · have position := position_step small
      rw [← last] at position
      rw [show id.toNat = assembly.nodes.size from position]
      exact records.known parent
    · exact records.grounded earlier

end Step

theorem run_concat (assembly : Assembly) (calls : List Call) (last : Call) :
    assembly.run (calls ++ [last]) =
      ((assembly.run calls).1 ++ [((assembly.run calls).2.step last).1], ((assembly.run calls).2.step last).2) := by
  simp [run]

theorem map_call_run (assembly : Assembly) (calls : List Call) : (assembly.run calls).1.map Event.call = calls := by
  induction calls using List.reverseRecOn with
  | nil => rfl
  | append_singleton calls last ih => simp [run_concat, ih]

theorem records_run (path source : String) (calls : List Call)
    (bounded : ∀ table, ((start path source).run calls).2.size table ≤ 2 ^ 32) :
    Records ((start path source).run calls).1 ((start path source).run calls).2 := by
  induction calls using List.reverseRecOn with
  | nil => exact records_start path source
  | append_singleton calls last ih =>
      simp only [run_concat, size_step] at bounded ⊢
      refine (ih fun table => ?_).step ?_
      · exact Nat.le_of_add_right_le (bounded table)
      · have room := bounded (((start path source).run calls).2.step last).1.table
        rw [if_pos rfl] at room
        omega

end Assembly
end MockAudit
