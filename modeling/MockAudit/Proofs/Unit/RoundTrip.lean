import MockAudit.Proofs.Json.Decoding
import MockAudit.Proofs.Json.Reading
import MockAudit.Proofs.Unit.Tree
import MockAudit.Proofs.Unit.Validation
import MockAudit.Unit.Decoding
import MockAudit.Unit.Encoding

/-!
# Units survive encoding

A document nests six levels deep and holds integers of at most 64 bits only, so its text is read back as well.
-/

namespace MockAudit

open Decoder Fields

/-! ## References and spans -/

theorem Ref.word32_toJson {table : Table} (ref : Ref table) : word32 ref.toJson = .ok ref.index := by
  have below : (ref.index.toNat : Int) ≤ 0xFFFFFFFF := by have := ref.index.toNat_lt; omega
  simp [word32, Ref.toJson, Json.nat, Ref.toNat, intWithin_of_mem (Int.natCast_nonneg _) below, Except.map]

theorem Ref.inverts {table : Table} : Inverts (@Ref.decode table) Ref.toJson := by
  intro ref
  rw [Ref.decode, ref.word32_toJson, Except.map]

theorem Ref.inverts_nullable {table : Table} :
    Inverts (nullable (@Ref.decode table)) (Json.ofOption Ref.toJson) :=
  Decoder.inverts_nullable Ref.inverts fun ref => by simp [Ref.toJson, Json.nat]

theorem Span.inverts : Inverts Span.decode Span.toJson := by
  intro span
  have distinct : (["start", "len"] : List String).Nodup := by decide
  refine Reads.ofOwnMembers ((Reads.map ?_ Span.mk).seq ?_) distinct rfl
  · exact reads_required (inverts_word64 _) (by simp) distinct
  · exact reads_required (inverts_word64 _) (by simp) distinct

/-! ## Symbols -/

theorem TypeBinding.inverts : Inverts TypeBinding.decode TypeBinding.toJson := by
  intro type
  have distinct : (["name", "qualified_name", "is_interface", "is_type_variable", "superclass", "interfaces",
    "type_arguments", "erasure", "methods"] : List String).Nodup := by decide
  refine Reads.ofOwnMembers (((((((((Reads.map ?_ TypeBinding.mk).seq ?_).seq ?_).seq ?_).seq ?_).seq ?_).seq ?_).seq ?_).seq
    ?_) distinct rfl
  · exact reads_required (inverts_string _) (by simp) distinct
  · exact reads_required (inverts_string _) (by simp) distinct
  · exact reads_withDefault (inverts_bool _) (by simp) distinct
  · exact reads_withDefault (inverts_bool _) (by simp) distinct
  · exact reads_optional (Ref.inverts_nullable _) (by simp) distinct
  · exact reads_withDefault (inverts_list Ref.inverts _) (by simp) distinct
  · exact reads_withDefault (inverts_list Ref.inverts _) (by simp) distinct
  · exact reads_optional (Ref.inverts_nullable _) (by simp) distinct
  · exact reads_withDefault (inverts_list Ref.inverts _) (by simp) distinct

theorem Modifier.inverts :
    Inverts (alternative .json Modifier.ofWord?) fun modifier => .string modifier.word := by
  intro modifier
  cases modifier <;> rfl

theorem AttributeValue.inverts : Inverts AttributeValue.decode AttributeValue.toJson := by
  intro value
  cases value with
  | bool value => rfl
  | text value => rfl
  | int value =>
      have above : -0x8000000000000000 ≤ value.toInt := value.le_toInt
      have below : value.toInt ≤ 0x7FFFFFFFFFFFFFFF := by have := value.toInt_lt; omega
      simp [AttributeValue.decode, AttributeValue.toJson, buffered, Json.isReadable,
        intWithin_of_mem above below, Except.map]

theorem AnnotationUse.inverts : Inverts AnnotationUse.decode AnnotationUse.toJson := by
  intro marking
  have distinct : (["type_name", "attributes"] : List String).Nodup := by decide
  refine Reads.ofOwnMembers ((Reads.map ?_ AnnotationUse.mk).seq ?_) distinct rfl
  · exact reads_required (inverts_string _) (by simp) distinct
  · exact reads_withDefault (inverts_dictionary AttributeValue.inverts _) (by simp) distinct

theorem MethodBinding.inverts : Inverts MethodBinding.decode MethodBinding.toJson := by
  intro method
  have distinct : (["name", "declaring_type", "parameter_types", "return_type", "modifiers", "is_constructor",
    "annotations"] : List String).Nodup := by decide
  refine Reads.ofOwnMembers (((((((Reads.map ?_ MethodBinding.mk).seq ?_).seq ?_).seq ?_).seq ?_).seq ?_).seq ?_)
    distinct rfl
  · exact reads_required (inverts_string _) (by simp) distinct
  · exact reads_required (Ref.inverts _) (by simp) distinct
  · exact reads_withDefault (inverts_list Ref.inverts _) (by simp) distinct
  · exact reads_optional (Ref.inverts_nullable _) (by simp) distinct
  · exact reads_withDefault (inverts_list Modifier.inverts _) (by simp) distinct
  · exact reads_withDefault (inverts_bool _) (by simp) distinct
  · exact reads_withDefault (inverts_list AnnotationUse.inverts _) (by simp) distinct

theorem FieldBinding.inverts : Inverts FieldBinding.decode FieldBinding.toJson := by
  intro field
  have distinct : (["name", "declaring_type", "declared_type", "is_field"] : List String).Nodup := by decide
  refine Reads.ofOwnMembers ((((Reads.map ?_ FieldBinding.mk).seq ?_).seq ?_).seq ?_) distinct rfl
  · exact reads_required (inverts_string _) (by simp) distinct
  · exact reads_optional (Ref.inverts_nullable _) (by simp) distinct
  · exact reads_optional (Ref.inverts_nullable _) (by simp) distinct
  · exact reads_withDefault (inverts_bool _) (by simp) distinct

/-! ## Nodes -/

theorem NameTarget.inverts : Inverts (NameTarget.decode .bufferedJson) NameTarget.toJson := by
  intro target
  have distinct : (["to", "id"] : List String).Nodup := by decide
  cases target <;>
    exact Reads.ofOwnMembers (by simp [Reads, NameTarget.fields, Members.locate?, alternative, NameTarget.ofWord?,
      Ref.word32_toJson]) distinct rfl

theorem NameTarget.inverts_nullable :
    Inverts (nullable (NameTarget.decode .bufferedJson)) (Json.ofOption NameTarget.toJson) :=
  Decoder.inverts_nullable NameTarget.inverts fun target => by cases target <;> simp [NameTarget.toJson]

namespace NodeKind

theorem fieldsOf?_word (kind : NodeKind) :
    ∃ fields, fieldsOf? kind.word = some fields ∧ fields.ofMembers kind.payload = .ok kind := by
  have binding : (["binding"] : List String).Nodup := by decide
  cases kind with
  | importDecl name onDemand =>
      have distinct : (["name", "on_demand"] : List String).Nodup := by decide
      refine ⟨_, rfl, Reads.ofOwnMembers ((Reads.map ?_ _).seq ?_) distinct rfl⟩
      · exact reads_required (inverts_string _) (by simp [payload]) distinct
      · exact reads_withDefault (inverts_bool _) (by simp [payload]) distinct
  | typeDecl name type =>
      have distinct : (["name", "binding"] : List String).Nodup := by decide
      refine ⟨_, rfl, Reads.ofOwnMembers ((Reads.map ?_ _).seq ?_) distinct rfl⟩
      · exact reads_required (Ref.inverts _) (by simp [payload]) distinct
      · exact reads_optional (Ref.inverts_nullable _) (by simp [payload]) distinct
  | anonymousClass type =>
      refine ⟨_, rfl, Reads.ofOwnMembers (Reads.map ?_ _) binding rfl⟩
      exact reads_optional (Ref.inverts_nullable _) (by simp [payload]) binding
  | creation typeNode type =>
      have distinct : (["type_node", "binding"] : List String).Nodup := by decide
      refine ⟨_, rfl, Reads.ofOwnMembers ((Reads.map ?_ _).seq ?_) distinct rfl⟩
      · exact reads_required (Ref.inverts _) (by simp [payload]) distinct
      · exact reads_optional (Ref.inverts_nullable _) (by simp [payload]) distinct
  | methodDecl name method =>
      have distinct : (["name", "binding"] : List String).Nodup := by decide
      refine ⟨_, rfl, Reads.ofOwnMembers ((Reads.map ?_ _).seq ?_) distinct rfl⟩
      · exact reads_required (Ref.inverts _) (by simp [payload]) distinct
      · exact reads_optional (Ref.inverts_nullable _) (by simp [payload]) distinct
  | call name receiver method result =>
      have distinct : (["name", "receiver", "binding", "result_type"] : List String).Nodup := by decide
      refine ⟨_, rfl, Reads.ofOwnMembers ((((Reads.map ?_ _).seq ?_).seq ?_).seq ?_) distinct rfl⟩
      · exact reads_required (Ref.inverts _) (by simp [payload]) distinct
      · exact reads_optional (Ref.inverts_nullable _) (by simp [payload]) distinct
      · exact reads_optional (Ref.inverts_nullable _) (by simp [payload]) distinct
      · exact reads_optional (Ref.inverts_nullable _) (by simp [payload]) distinct
  | simpleName identifier target =>
      have distinct : (["identifier", "binding"] : List String).Nodup := by decide
      refine ⟨_, rfl, Reads.ofOwnMembers ((Reads.map ?_ _).seq ?_) distinct rfl⟩
      · exact reads_required (inverts_string _) (by simp [payload]) distinct
      · exact reads_optional (NameTarget.inverts_nullable _) (by simp [payload]) distinct
  | typeRef type =>
      refine ⟨_, rfl, Reads.ofOwnMembers (Reads.map ?_ _) binding rfl⟩
      exact reads_optional (Ref.inverts_nullable _) (by simp [payload]) binding
  | _ => exact ⟨_, rfl, rfl⟩

theorem payload_keys (kind : NodeKind) : ∀ entry ∈ kind.payload, entry.1 ∉ "kind" :: Node.ownNames := by
  cases kind <;> simp [payload, Node.ownNames]

theorem payload_readable (kind : NodeKind) : ∀ entry ∈ kind.payload, entry.2.isReadable := by
  have reference {table : Table} (binding : Option (Ref table)) :
      (Json.ofOption Ref.toJson binding).isReadable := by
    cases binding <;> simp [Json.ofOption, Ref.toJson, Json.nat, Json.isReadable]
  have name (target : Option NameTarget) : (Json.ofOption NameTarget.toJson target).isReadable := by
    cases target with
    | none => simp [Json.ofOption, Json.isReadable]
    | some target =>
        cases target <;>
          simp [Json.ofOption, NameTarget.toJson, Ref.toJson, Json.nat, Json.isReadable, Json.areReadableMembers]
  cases kind <;> simp [payload, reference, name, Ref.toJson, Json.nat, Json.isReadable]

theorem ofReadable?_members (kind : NodeKind) : ofReadable? kind.members = some kind := by
  obtain ⟨fields, named, decoded⟩ := kind.fieldsOf?_word
  have other : ∀ entry ∈ kind.payload, entry.1 ≠ "kind" := fun entry member same =>
    kind.payload_keys entry member (by simp [same])
  have word : kind.members.filter (·.1 == "kind") = [("kind", .string kind.word)] := by
    simpa [members] using other
  have rest : kind.members.filter (·.1 != "kind") = kind.payload := by
    simpa [members] using other
  have known : kind.word ∈ words := by cases kind <;> simp [NodeKind.word, words]
  simp [ofReadable?, word, rest, Decoder.name, known, Except.toOption, named, decoded]

end NodeKind

theorem unreadableMember?_eq_none {members : Members} (position : Nat)
    (readable : ∀ entry ∈ members, entry.1 ∈ Node.ownNames ∨ entry.2.isReadable) :
    Node.unreadableMember? position members = none := by
  induction members generalizing position with
  | nil => rfl
  | cons head rest ih =>
      have own := readable head List.mem_cons_self
      rw [Node.unreadableMember?, if_pos own, ih _ fun entry member => readable entry (List.mem_cons_of_mem _ member)]

theorem Node.inverts : Inverts Node.decode Node.toJson := by
  rintro ⟨kind, span, children⟩
  let own : Members := [("span", span.toJson), ("children", .ofList Ref.toJson children)]
  have distinct : ((kind.members ++ own).map Prod.fst).Nodup := by
    cases kind <;> simp [own, NodeKind.members, NodeKind.payload]
  have readable : ∀ entry ∈ kind.members, entry.2.isReadable := by
    simpa [NodeKind.members, Json.isReadable] using kind.payload_readable
  have foreign : ∀ entry ∈ kind.members, entry.1 ∉ ownNames := by
    intro entry member
    rcases List.mem_cons.mp member with rfl | member
    · simp [ownNames]
    · exact fun named => kind.payload_keys entry member (List.mem_cons_of_mem _ named)
  have ownKeys : ∀ entry ∈ own, entry.1 ∈ ownNames := fun entry member =>
    (List.mem_map_of_mem member : entry.1 ∈ own.map Prod.fst)
  have kindReads : kindField.Reads (kind.members ++ own) kind := by
    have noBreak : unreadableMember? 0 (kind.members ++ own) = none := by
      apply unreadableMember?_eq_none
      intro entry member
      rcases List.mem_append.mp member with described | named
      · exact .inr (readable entry described)
      · exact .inl (ownKeys entry named)
    have described : (kind.members ++ own).filter (fun entry => entry.1 ∉ ownNames) = kind.members := by
      rw [List.filter_append, List.filter_eq_self.mpr (by simpa using foreign)]
      simp [own, ownNames]
    simp only [Reads, kindField, noBreak, described, kind.ofReadable?_members]
  refine Reads.ofMembers (((Reads.map kindReads Node.mk).seq ?_).seq ?_) distinct ?_
  · exact reads_required (Span.inverts _) (by simp [own]) distinct
  · exact reads_withDefault (inverts_list Ref.inverts _) (by simp [own]) distinct
  · intro entry member
    rcases List.mem_append.mp member with described | named
    · exact .inr (Json.isSkippableMember_of_isReadable (readable entry described))
    · exact .inl (ownKeys entry named)

/-! ## Drafts -/

theorem Decoder.inverts_table {α : Type} {decode : Decoder α} {encode : α → Json}
    (inverts : Inverts decode encode) :
    Inverts (table decode) fun entries => Json.ofList encode entries.toList := by
  intro entries
  rw [table, inverts_list inverts entries.toList, Except.map]

def Draft.keys : List String :=
  ["path", "project", "source", "line_starts", "length", "nodes", "types", "methods", "fields"]

theorem Draft.inverts : Inverts Draft.decode Draft.toJson := by
  intro draft
  let members : Members :=
    ("path", .string draft.path)
      :: optionalMember "project" .string draft.project
      ++ optionalMember "source" .string draft.source
      ++ optionalMember "line_starts" (.ofList .ofWord) draft.lineStarts
      ++ optionalMember "length" .ofWord draft.length
      ++ [("nodes", .ofList Node.toJson draft.nodes.toList),
          ("types", .ofList TypeBinding.toJson draft.symbols.types.toList),
          ("methods", .ofList MethodBinding.toJson draft.symbols.methods.toList),
          ("fields", .ofList FieldBinding.toJson draft.symbols.fields.toList)]
  have keys : (members.map Prod.fst).Sublist Draft.keys := by
    simp only [members, List.map_append, List.map_cons]
    exact (((((optionalMember_keys _ _ _).cons_cons "path").append (optionalMember_keys _ _ _)).append
      (optionalMember_keys _ _ _)).append (optionalMember_keys _ _ _)).append (List.Sublist.refl _)
  have distinct : (members.map Prod.fst).Nodup := List.Nodup.sublist keys (by decide)
  have reads : (Draft.mk <$> required "path" string <*> optional "project" string
      <*> optional "source" string <*> optional "line_starts" (list word64) <*> optional "length" word64
      <*> required "nodes" (table Node.decode) <*> Symbols.fieldList).Reads members draft := by
    refine ((((((Reads.map ?_ Draft.mk).seq ?_).seq ?_).seq ?_).seq ?_).seq ?_).seq
      (((Reads.map ?_ Symbols.mk).seq ?_).seq ?_)
    · exact reads_required (inverts_string _) (by simp [members]) distinct
    · exact reads_optionalMember inverts_string (by simp) (by simp [members, mem_optionalMember]) distinct
    · exact reads_optionalMember inverts_string (by simp) (by simp [members, mem_optionalMember]) distinct
    · exact reads_optionalMember (inverts_list inverts_word64) (by simp [Json.ofList])
        (by simp [members, mem_optionalMember]) distinct
    · exact reads_optionalMember inverts_word64 (by simp [Json.ofWord, Json.nat])
        (by simp [members, mem_optionalMember]) distinct
    · exact reads_required (inverts_table Node.inverts _) (by simp [members]) distinct
    · exact reads_withDefault (inverts_table TypeBinding.inverts _) (by simp [members]) distinct
    · exact reads_withDefault (inverts_table MethodBinding.inverts _) (by simp [members]) distinct
    · exact reads_withDefault (inverts_table FieldBinding.inverts _) (by simp [members]) distinct
  exact reads.ofMembers distinct fun entry member => .inl (keys.subset (List.mem_map_of_mem member))

/-! ## Validation of a described unit -/

theorem filterMap_getElem?_range (starts : List UInt64) :
    (List.range starts.length).filterMap (fun index => starts[index]?) = starts := by
  induction starts with
  | nil => rfl
  | cons start rest ih =>
      rw [List.length_cons, List.range_succ_eq_map, List.filterMap_cons]
      simpa [List.filterMap_map, Function.comp_def] using ih

theorem LineIndex.firstColumns_eq_starts {index : LineIndex} (accepted : accepts index.starts index.length) :
    index.firstColumns = index.starts := by
  have within : ∀ start ∈ index.starts, start ≤ index.length := by
    simp only [accepts, Bool.and_eq_true, List.all_eq_true, decide_eq_true_eq] at accepted
    exact accepted.2
  have column : ∀ line, index.offsetIn? (1 + line) 1 = index.starts[line]? := by
    intro line
    have start? : index.lineStart? (1 + line) = index.starts[line]? := by simp [lineStart?]
    cases found : index.starts[line]? with
    | none => simp [offsetIn?, start?, found]
    | some start =>
        -- An accepted start lies within the file, so the lookup of its column does not fail.
        have inside := within start (List.mem_of_getElem? found)
        simp [offsetIn?, start?, found, inside]
  rw [firstColumns, lineCount, List.range'_eq_map_range, List.filterMap_map]
  simpa [Function.comp_def, column] using filterMap_getElem?_range index.starts

namespace CompilationUnit

theorem lineIndex_toDraft (unit : CompilationUnit) : unit.toDraft.lineIndex = .ok ⟨unit.lines, unit.fits⟩ := by
  obtain ⟨path, project, source, lines, nodes, parents, symbols, fits, linked⟩ := unit
  cases source with
  | some source =>
      obtain rfl : lines = .ofSource source := fits
      rfl
  | none =>
      have accepted : LineIndex.accepts lines.starts lines.length := fits
      have starts := LineIndex.firstColumns_eq_starts accepted
      simp [Draft.lineIndex, toDraft, starts, accepted]

theorem validate_toDraft (unit : CompilationUnit) : unit.toDraft.validate = .ok unit :=
  Draft.validate_eq_ok unit.lineIndex_toDraft unit.linked

theorem ofDocument_toJson (unit : CompilationUnit) : ofDocument ⟨unit.toJson, true⟩ = .ok unit := by
  have decoded : Draft.decode unit.toJson = .ok unit.toDraft := Draft.inverts unit.toDraft
  simp [ofDocument, decoded, unit.validate_toDraft]

end CompilationUnit

/-! ## Texts -/

namespace Json

variable {room : Nat} {α : Type}

@[simp] theorem fits_string (value : String) : Fits room (.string value) := by simp [Fits]

@[simp] theorem fits_bool (value : Bool) : Fits room (.bool value) := by simp [Fits]

@[simp] theorem fits_ofWord (word : UInt64) : Fits room (.ofWord word) := by
  have below := word.toNat_lt
  simp only [ofWord, nat, Fits]
  omega

@[simp] theorem fits_ref {table : Table} (ref : Ref table) : Fits room ref.toJson := by
  have below := ref.toNat_lt
  simp only [Ref.toJson, nat, Fits]
  omega

@[simp] theorem fits_ofOption {encode : α → Json} {value : Option α} :
    Fits room (.ofOption encode value) ↔ ∀ v ∈ value, Fits room (encode v) := by
  cases value <;> simp [ofOption, Fits]

@[simp] theorem fits_ofList {encode : α → Json} {values : List α} :
    Fits (room + 1) (.ofList encode values) ↔ ∀ value ∈ values, Fits room (encode value) := by
  simp [ofList, fits_array]

theorem forall_mem_optionalMember {key : String} {encode : α → Json} {value : Option α} :
    (∀ entry ∈ optionalMember key encode value, Fits room entry.2) ↔ ∀ v ∈ value, Fits room (encode v) := by
  cases value <;> simp [optionalMember]

@[simp] theorem fits_span (span : Span) : Fits (room + 1) span.toJson := by
  simp [Span.toJson, fits_object]

@[simp] theorem fits_nameTarget (target : NameTarget) : Fits (room + 1) target.toJson := by
  cases target <;> simp [NameTarget.toJson, fits_object]

@[simp] theorem fits_node (node : Node) : Fits (room + 2) node.toJson := by
  have payload : ∀ entry ∈ node.kind.payload, Fits (room + 1) entry.2 := by
    cases node.kind <;> simp [NodeKind.payload]
  simp only [Node.toJson, NodeKind.members, fits_object, List.forall_mem_append, List.forall_mem_cons]
  simpa using payload

@[simp] theorem fits_type (type : TypeBinding) : Fits (room + 2) type.toJson := by
  simp [TypeBinding.toJson, fits_object]

@[simp] theorem fits_annotation (marking : AnnotationUse) : Fits (room + 2) marking.toJson := by
  have attributes (value : AttributeValue) : Fits room value.toJson := by
    cases value with
    | bool value => simp [AttributeValue.toJson]
    | text value => simp [AttributeValue.toJson]
    | int value =>
        have above := value.le_toInt
        have below := value.toInt_lt
        simp only [AttributeValue.toJson, Fits]
        omega
  simp only [AnnotationUse.toJson, ofDictionary, fits_object, List.forall_mem_cons, List.forall_mem_map]
  simp [attributes]

@[simp] theorem fits_method (method : MethodBinding) : Fits (room + 4) method.toJson := by
  simp [MethodBinding.toJson, fits_object]

@[simp] theorem fits_field (field : FieldBinding) : Fits (room + 1) field.toJson := by
  simp [FieldBinding.toJson, fits_object]

theorem fits_draft (draft : Draft) : Fits (room + 6) draft.toJson := by
  simp only [Draft.toJson, fits_object, List.forall_mem_append, List.forall_mem_cons, forall_mem_optionalMember]
  simp

end Json

/-- A unit is given back by the document that describes it and by the text of that document. -/
theorem CompilationUnit.document_roundTrip (unit : CompilationUnit) :
    ofDocument ⟨unit.toJson, true⟩ = .ok unit ∧ ofText unit.toJson.pretty = .ok unit := by
  have document := unit.ofDocument_toJson
  have read : Json.read unit.toJson.pretty = ⟨unit.toJson, true⟩ := Json.read_pretty (Json.fits_draft unit.toDraft)
  exact ⟨document, by rw [ofText, read, document]⟩

end MockAudit
