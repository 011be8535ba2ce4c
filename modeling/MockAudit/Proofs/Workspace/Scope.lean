import MockAudit.Proofs.Json.Skipping
import MockAudit.Proofs.Unit.Validation
import MockAudit.Workspace.Document

/-!
# The scope of a check and the units in it

A header is decoded on its own and passes over everything else in the document. A document written as the list of its
fields has more items than a header, so its header does not decode.
-/

namespace MockAudit

open Decoder Fields

/-! ## What a draft is decoded from can be passed over -/

theorem Ref.isSound_decode {table : Table} : (@Ref.decode table).IsSound := isSound_word32.map Ref.mk

theorem Span.isSound_decode : Span.decode.IsSound :=
  isSound_record (((areSound_field isSound_word64 _ _).map _).seq (areSound_field isSound_word64 _ _)) (by decide)

theorem Node.isSound_decode : Node.decode.IsSound := by
  have kind : kindField.AreSound := by
    intro members value decoded name member
    exact absurd member List.not_mem_nil
  have sound : fields.AreSound := ((kind.map _).seq (areSound_field Span.isSound_decode _ _)).seq
    (areSound_field Ref.isSound_decode.list _ _)
  intro json value decoded
  cases json with
  | object members =>
      rw [Json.isSkippableMember, Json.isSkippable]
      · refine Json.areSkippableMembers_iff.mpr fun entry member => ?_
        exact Json.isSkippable_of_isSkippableMember (sound.isSkippable_of_ofMembers decoded entry member)
      · simp
  | _ => simp [Node.decode] at decoded

theorem TypeBinding.isSound_decode : TypeBinding.decode.IsSound := by
  refine isSound_record (((((((((AreSound.map ?_ _).seq ?_).seq ?_).seq ?_).seq ?_).seq ?_).seq ?_).seq ?_).seq ?_)
    (by decide)
  · exact areSound_field isSound_string _ _
  · exact areSound_field isSound_string _ _
  · exact areSound_field isSound_bool _ _
  · exact areSound_field isSound_bool _ _
  · exact areSound_optional Ref.isSound_decode _
  · exact areSound_field Ref.isSound_decode.list _ _
  · exact areSound_field Ref.isSound_decode.list _ _
  · exact areSound_optional Ref.isSound_decode _
  · exact areSound_field Ref.isSound_decode.list _ _

theorem AnnotationUse.isSound_decode : AnnotationUse.decode.IsSound := by
  refine isSound_record ((AreSound.map ?_ _).seq ?_) (by decide)
  · exact areSound_field isSound_string _ _
  · exact areSound_field (IsSound.dictionary (isSound_buffered _)) _ _

theorem MethodBinding.isSound_decode : MethodBinding.decode.IsSound := by
  refine isSound_record (((((((AreSound.map ?_ _).seq ?_).seq ?_).seq ?_).seq ?_).seq ?_).seq ?_) (by decide)
  · exact areSound_field isSound_string _ _
  · exact areSound_field Ref.isSound_decode _ _
  · exact areSound_field Ref.isSound_decode.list _ _
  · exact areSound_optional Ref.isSound_decode _
  · exact areSound_field (isSound_alternative _ _).list _ _
  · exact areSound_field isSound_bool _ _
  · exact areSound_field AnnotationUse.isSound_decode.list _ _

theorem FieldBinding.isSound_decode : FieldBinding.decode.IsSound := by
  refine isSound_record ((((AreSound.map ?_ _).seq ?_).seq ?_).seq ?_) (by decide)
  · exact areSound_field isSound_string _ _
  · exact areSound_optional Ref.isSound_decode _
  · exact areSound_optional Ref.isSound_decode _
  · exact areSound_field isSound_bool _ _

theorem Symbols.areSound_fieldList : Symbols.fieldList.AreSound := by
  refine ((AreSound.map ?_ _).seq ?_).seq ?_
  · exact areSound_field (TypeBinding.isSound_decode.list.map _) _ _
  · exact areSound_field (MethodBinding.isSound_decode.list.map _) _ _
  · exact areSound_field (FieldBinding.isSound_decode.list.map _) _ _

/-! ## Headers -/

def Draft.fields : Fields Draft :=
  Draft.mk <$> required "path" string <*> optional "project" string
    <*> optional "source" string <*> optional "line_starts" (list word64) <*> optional "length" word64
    <*> required "nodes" (table Node.decode) <*> Symbols.fieldList

theorem Draft.decode_eq_record : Draft.decode = record .json Draft.fields := rfl

theorem Draft.areSound_fields : Draft.fields.AreSound := by
  refine ((((((AreSound.map ?_ _).seq ?_).seq ?_).seq ?_).seq ?_).seq ?_).seq Symbols.areSound_fieldList
  · exact areSound_field isSound_string _ _
  · exact areSound_optional isSound_string _
  · exact areSound_optional isSound_string _
  · exact areSound_optional isSound_word64.list _
  · exact areSound_optional isSound_word64 _
  · exact areSound_field (Node.isSound_decode.list.map _) _ _

def Header.fields : Fields Header := Header.mk <$> required "path" string <*> optional "project" string

theorem Header.decode_eq_record : Header.decode = record .json Header.fields := rfl

theorem Draft.decode_parts {members : Members} {draft : Draft} (decoded : Draft.fields.decode members = .ok draft) :
    (required "path" string).decode members = .ok draft.path ∧
      (optional "project" string).decode members = .ok draft.project ∧
      (required "nodes" (table Node.decode)).decode members = .ok draft.nodes := by
  simp only [Draft.fields, decode_seq_eq_ok, decode_map_eq_ok] at decoded
  obtain ⟨_, symbols, ⟨_, nodes, ⟨_, length, ⟨_, starts, ⟨_, source, ⟨_, project, ⟨path, hpath, rfl⟩, hproject, rfl⟩,
    -, rfl⟩, -, rfl⟩, -, rfl⟩, hnodes, rfl⟩, -, rfl⟩ := decoded
  exact ⟨hpath, hproject, hnodes⟩

theorem Header.decode_object {members : Members} {draft : Draft}
    (decoded : Draft.decode (.object members) = .ok draft) :
    Header.decode (.object members) = .ok ⟨draft.path, draft.project⟩ := by
  rw [Draft.decode_eq_record] at decoded
  rw [Header.decode_eq_record]
  have skippable := Draft.areSound_fields.isSkippable_of_ofMembers decoded
  obtain ⟨unfaulted, parts⟩ := ofMembers_eq_ok.mp decoded
  obtain ⟨path, project, -⟩ := Draft.decode_parts parts
  refine ofMembers_eq_ok.mpr ⟨?_, ?_⟩
  · refine strayFault?_of_subset ?_ unfaulted fun entry member _ => skippable entry member
    decide
  · exact decode_seq_eq_ok.mpr ⟨_, _, decode_map_eq_ok.mpr ⟨_, path, rfl⟩, project, rfl⟩

theorem locate?_path (names : List String) (path : Json) (rest : List Json) :
    Members.locate? "path" (("path" :: names).zip (path :: rest)) 0 = some (0, path) := by
  simp [Members.locate?]

theorem locate?_project (names : List String) (path project : Json) (rest : List Json) :
    Members.locate? "project" (("path" :: "project" :: names).zip (path :: project :: rest)) 0 = some (1, project) := by
  simp [Members.locate?]

theorem Draft.exists_items {items : List Json} {draft : Draft} (decoded : Draft.decode (.array items) = .ok draft) :
    ∃ path project rest, items = path :: project :: rest ∧ rest ≠ [] ∧ string path = .ok draft.path ∧
      nullable string project = .ok draft.project := by
  rw [Draft.decode_eq_record] at decoded
  obtain ⟨parts, -⟩ := ofItems_eq_ok.mp decoded
  obtain ⟨hasPath, hasProject, hasNodes⟩ := Draft.decode_parts parts
  have names : Draft.fields.names =
    ["path", "project", "source", "line_starts", "length", "nodes", "types", "methods", "fields"] := rfl
  rw [names] at hasPath hasProject hasNodes
  rcases items with _ | ⟨path, _ | ⟨project, _ | ⟨third, rest⟩⟩⟩
  · simp [required, field, Members.locate?] at hasNodes
  · simp [required, field, Members.locate?] at hasNodes
  · simp [required, field, Members.locate?] at hasNodes
  · refine ⟨path, project, third :: rest, rfl, by simp, ?_, ?_⟩
    · exact (decode_field_eq_ok (locate?_path _ _ _)).mp hasPath
    · exact (decode_optional_eq_ok (locate?_project _ _ _ _)).mp hasProject

theorem Header.decode_array {items : List Json} {draft : Draft} (decoded : Draft.decode (.array items) = .ok draft) :
    Header.decode (.array items) = .error .malformed := by
  rw [Header.decode_eq_record]
  obtain ⟨path, project, rest, rfl, more, hasPath, hasProject⟩ := Draft.exists_items decoded
  have parts : Header.fields.decode (["path", "project"].zip (path :: project :: rest)) =
      .ok ⟨draft.path, draft.project⟩ := by
    refine decode_seq_eq_ok.mpr ⟨_, _, decode_map_eq_ok.mpr ⟨_, ?_, rfl⟩, ?_, rfl⟩
    · exact (decode_field_eq_ok (locate?_path _ _ _)).mpr hasPath
    · exact (decode_optional_eq_ok (locate?_project _ _ _ _)).mpr hasProject
  have surplus : ["path", "project"].length < (path :: project :: rest).length := by
    have := List.length_pos_iff.mpr more
    simp only [List.length_cons, List.length_nil]
    omega
  exact ofItems_of_surplus parts surplus

def Json.isArray : Json → Bool
  | .array _ => true
  | _ => false

/-- A text that describes a unit has the header of that unit, unless it describes the unit as a list: then it has no
header. -/
theorem Header.ofText_of_unit {text : String} {unit : CompilationUnit}
    (described : CompilationUnit.ofText text = .ok unit) :
    Header.ofText text =
      if (Json.read text).root.isArray then .error .malformed else .ok ⟨unit.path, unit.project⟩ := by
  unfold CompilationUnit.ofText CompilationUnit.ofDocument at described
  unfold Header.ofText Decoder.text Decoder.document
  cases decoded : Draft.decode (Json.read text).root with
  | error fault => simp [decoded] at described
  | ok draft =>
      cases valid : draft.validate with
      | error defect => simp [decoded, valid] at described
      | ok found =>
          simp only [decoded, valid] at described
          split at described
          · rename_i complete
            obtain rfl : found = unit := by simpa using described
            have same := Draft.describes_of_validate valid
            rw [same.path, same.project]
            cases root : (Json.read text).root with
            | object members =>
                rw [root] at decoded
                simp [Header.decode_object decoded, complete, Json.isArray]
            | array items =>
                rw [root] at decoded
                simp [Header.decode_array decoded, Json.isArray]
            | _ => simp [Draft.decode, record, root] at decoded
          · cases described

/-! ## Scope -/

namespace Document

def isList (document : Document) : Bool :=
  match document.content with
  | .ok text => (Json.read text).root.isArray
  | .error _ => false

theorem header_of_load {document : Document} {unit : CompilationUnit} (loaded : document.load = .ok unit) :
    document.header =
      if document.isList then .error (.undecodable document.path .malformed) else .ok ⟨unit.path, unit.project⟩ := by
  unfold Document.load Document.text at loaded
  unfold Document.header Document.text isList
  cases content : document.content with
  | error cause => simp [content, Except.bind] at loaded
  | ok text =>
      simp only [content, Except.bind] at loaded ⊢
      cases described : CompilationUnit.ofText text with
      | error cause => cases cause <;> simp [loadDocument, described] at loaded
      | ok found =>
          obtain rfl : found = unit := by simpa [loadDocument, described] using loaded
          rw [loadHeader, Header.ofText_of_unit described]
          by_cases asList : (Json.read text).root.isArray = true <;> simp [asList]

end Document

namespace Settings

/-- The scope is about this unit: it belongs to the active project and, in the scope of a file, is the active file,
whatever way the paths are written. -/
structure AsksFor (settings : Settings) (unit : CompilationUnit) : Prop where
  project : ∃ project, settings.activeProject = some project ∧ unit.project = some project
  file : settings.scope = .file → ∃ file, settings.activeFile = some file ∧
    Path.components file = Path.components unit.path

theorem selects_iff {settings : Settings} (narrow : settings.scope = .project ∨ settings.scope = .file)
    (unit : CompilationUnit) : settings.selects ⟨unit.path, unit.project⟩ ↔ settings.AsksFor unit := by
  have split : settings.AsksFor unit ↔ _ ∧ _ := ⟨fun ⟨project, file⟩ => ⟨project, file⟩, fun both => ⟨both.1, both.2⟩⟩
  rw [split, selects]
  cases settings.activeProject with
  | none => simp
  | some project =>
      rcases narrow with scope | scope
      · simp [scope]
      · cases settings.activeFile <;> simp [scope, Path.alike]

theorem covers_of_error {settings : Settings} (narrow : settings.scope = .project ∨ settings.scope = .file)
    {document : Document} {cause : LoadError} (unreadable : document.header = .error cause) :
    settings.covers document := by
  rcases narrow with scope | scope <;> simp [covers, scope, unreadable]

theorem covers_of_header {settings : Settings} (narrow : settings.scope = .project ∨ settings.scope = .file)
    {document : Document} {header : Header} (readable : document.header = .ok header) :
    settings.covers document = settings.selects header := by
  rcases narrow with scope | scope <;> simp [covers, scope, readable]

end Settings

/-- A document that is written as an object has the header of its unit, and is kept if and only if the scope is about
that unit. One that is written as a list has no header although its unit can be loaded, and is kept. -/
theorem inScope_follows_units {settings : Settings} (narrow : settings.scope = .project ∨ settings.scope = .file)
    (documents : List Document) :
    settings.inScope documents = documents.filter settings.covers ∧
    ∀ document ∈ documents,
      (∀ unit, document.load = .ok unit → document.isList = false →
        document.header = .ok ⟨unit.path, unit.project⟩ ∧ (settings.covers document ↔ settings.AsksFor unit)) ∧
      (∀ unit, document.load = .ok unit → document.isList = true →
        document.header = .error (.undecodable document.path .malformed)) ∧
      (∀ cause, document.header = .error cause → settings.covers document) := by
  refine ⟨rfl, fun document _ => ⟨?_, ?_, fun _ => Settings.covers_of_error narrow⟩⟩
  · intro unit loaded asObject
    have readable : document.header = .ok ⟨unit.path, unit.project⟩ := by
      simp [Document.header_of_load loaded, asObject]
    refine ⟨readable, ?_⟩
    rw [Settings.covers_of_header narrow readable, Settings.selects_iff narrow]
  · intro unit loaded asList
    simp [Document.header_of_load loaded, asList]

def shopDocument : Document where
  path := "Cart.unit.json"
  content := .ok <| "\x7b\"host\":[1e9],\"project\":\"shop\",\"path\":\"src/Cart.java\",\"source\":\"\","
    ++ "\"nodes\":[\x7b\"span\":[0,0],\"kind\":\"other\"\x7d]\x7d"

def listedDocument : Document where
  path := "Listed.unit.json"
  content := .ok "[\"src/Cart.java\",\"shop\",\"\",null,null,[\x7b\"span\":[0,0],\"kind\":\"other\"\x7d]]"

theorem Document.exists_of_load_map {document : Document} {β : Type} {view : CompilationUnit → β} {value : β}
    (viewed : document.load.map view = .ok value) : ∃ unit, document.load = .ok unit ∧ view unit = value := by
  cases loaded : document.load with
  | error cause => simp [loaded, Except.map] at viewed
  | ok unit =>
      rw [loaded] at viewed
      exact ⟨unit, rfl, Except.ok.inj viewed⟩

def cartSettings : Settings :=
  { scope := .file, activeProject := some "shop", activeFile := some "src//./Cart.java" }

theorem inScope_follows_units_shopDocument : ∃ unit, shopDocument.load = .ok unit ∧ shopDocument.isList = false ∧
    (cartSettings.covers shopDocument ↔ cartSettings.AsksFor unit) ∧ cartSettings.AsksFor unit := by
  obtain ⟨unit, loaded, seen⟩ := Document.exists_of_load_map (show (shopDocument.load.map fun unit =>
    (unit.path, unit.project, shopDocument.isList)) = .ok ("src/Cart.java", some "shop", false) by decide +kernel)
  obtain ⟨path, project, asObject⟩ : _ ∧ _ ∧ _ := by simpa using seen
  have narrow : cartSettings.scope = .project ∨ cartSettings.scope = .file := .inr rfl
  have follows := (inScope_follows_units narrow [shopDocument]).2 shopDocument List.mem_cons_self
  refine ⟨unit, loaded, asObject, (follows.1 unit loaded asObject).2, ?_, fun _ => ?_⟩
  · exact ⟨"shop", rfl, project⟩
  · exact ⟨"src//./Cart.java", rfl, by rw [path]; decide +kernel⟩

/-- In the scope of another project the unit that is written as a list is kept. -/
theorem inScope_keeps_listedDocument : ∃ unit, listedDocument.load = .ok unit ∧ unit.project = some "shop" ∧
    listedDocument.header ≠ .ok ⟨unit.path, unit.project⟩ ∧
    ¬ Settings.AsksFor { scope := .project, activeProject := some "app" } unit ∧
    Settings.inScope { scope := .project, activeProject := some "app" } [listedDocument] = [listedDocument] := by
  obtain ⟨unit, loaded, seen⟩ := Document.exists_of_load_map (show (listedDocument.load.map fun unit =>
    (unit.project, listedDocument.isList)) = .ok (some "shop", true) by decide +kernel)
  obtain ⟨project, asList⟩ := Prod.mk.inj seen
  have unreadable := Document.header_of_load loaded
  rw [asList, if_pos rfl] at unreadable
  refine ⟨unit, loaded, project, by simp [unreadable], ?_, ?_⟩
  · rintro ⟨⟨active, isActive, belongs⟩, -⟩
    obtain rfl : "app" = active := by simpa using isActive
    simp [project] at belongs
  · simp [Settings.inScope, Settings.covers, unreadable]

end MockAudit
