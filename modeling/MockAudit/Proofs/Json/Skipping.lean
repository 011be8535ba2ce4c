import MockAudit.Proofs.Json.Decoding

/-!
# What is decoded can be passed over

A document may be decoded twice, once as a whole and once for a few of its members. The second decoder passes over the
other members, which never fails where the first one succeeded.
-/

namespace MockAudit

variable {α β : Type}

namespace Json

theorem isSkippable_of_isSkippableMember {json : Json} (skippable : json.isSkippableMember) : json.isSkippable := by
  cases json with
  | unreadable obstacle => cases obstacle <;> simp_all [isSkippableMember, isSkippable]
  | _ => exact skippable

theorem areSkippable_iff {items : List Json} : areSkippable items ↔ ∀ item ∈ items, item.isSkippable := by
  induction items with
  | nil => simp [areSkippable]
  | cons item rest ih => simp [areSkippable, ih]

theorem areSkippableMembers_iff {members : Members} :
    areSkippableMembers members ↔ ∀ entry ∈ members, entry.2.isSkippable := by
  induction members with
  | nil => simp [areSkippableMembers]
  | cons entry rest ih => simp [areSkippableMembers, ih]

end Json

namespace Decoder

def IsSound (decode : Decoder α) : Prop := ∀ json value, decode json = .ok value → json.isSkippableMember

theorem isSound_bool : IsSound bool := by
  intro json value decoded
  cases json <;> simp_all [bool, Json.isSkippableMember, Json.isSkippable]

theorem isSound_string : IsSound string := by
  intro json value decoded
  cases json <;> simp_all [string, Json.isSkippableMember, Json.isSkippable]

theorem isSound_intWithin (low high : Int) : IsSound (intWithin low high) := by
  intro json value decoded
  cases json <;> simp_all [intWithin, Json.isSkippableMember, Json.isSkippable]

theorem IsSound.map {decode : Decoder α} (sound : IsSound decode) (f : α → β) :
    IsSound fun json => (decode json).map f := by
  intro json value decoded
  cases result : decode json with
  | error fault => simp [result, Except.map] at decoded
  | ok inner => exact sound json inner result

theorem isSound_word32 : IsSound word32 := (isSound_intWithin _ _).map _

theorem isSound_word64 : IsSound word64 := (isSound_intWithin _ _).map _

theorem IsSound.nullable {decode : Decoder α} (sound : IsSound decode) : IsSound (nullable decode) := by
  intro json value decoded
  cases json with
  | null => rfl
  | _ => exact sound.map some _ value decoded

theorem isSkippable_of_each {decode : Decoder α} (sound : IsSound decode) {items : List Json} {values : List α}
    (decoded : each decode items = .ok values) : ∀ item ∈ items, item.isSkippable := by
  induction items generalizing values with
  | nil => simp
  | cons item rest ih =>
      rw [each] at decoded
      cases first : decode item with
      | error fault => simp [first] at decoded
      | ok value =>
          cases others : each decode rest with
          | error fault => simp [first, others, Except.map] at decoded
          | ok tail =>
              have here := Json.isSkippable_of_isSkippableMember (sound item value first)
              simpa [here] using ih others

theorem IsSound.list {decode : Decoder α} (sound : IsSound decode) : IsSound (list decode) := by
  intro json values decoded
  cases json with
  | array items =>
      rw [Json.isSkippableMember, Json.isSkippable]
      · exact Json.areSkippable_iff.mpr (isSkippable_of_each sound decoded)
      · simp
  | _ => simp [Decoder.list] at decoded

theorem isSkippable_of_eachMember {decode : Decoder α} (sound : IsSound decode) {members : Members}
    {sofar values : Dictionary α} (decoded : eachMember decode sofar members = .ok values) :
    ∀ entry ∈ members, entry.2.isSkippable := by
  induction members generalizing sofar with
  | nil => simp
  | cons entry rest ih =>
      obtain ⟨key, json⟩ := entry
      rw [eachMember] at decoded
      cases first : decode json with
      | error fault => simp [first] at decoded
      | ok value =>
          simp only [first] at decoded
          have here := Json.isSkippable_of_isSkippableMember (sound json value first)
          simpa [here] using ih decoded

theorem IsSound.dictionary {decode : Decoder α} (sound : IsSound decode) : IsSound (dictionary decode) := by
  intro json values decoded
  cases json with
  | object members =>
      rw [Json.isSkippableMember, Json.isSkippable]
      · exact Json.areSkippableMembers_iff.mpr (isSkippable_of_eachMember sound decoded)
      · simp
  | _ => simp [Decoder.dictionary] at decoded

theorem isSound_buffered (decode : Decoder α) : IsSound (buffered decode) := by
  intro json value decoded
  unfold buffered at decoded
  split at decoded
  · exact Json.isSkippableMember_of_isReadable ‹_›
  · cases decoded

theorem isSkippable_of_isEmptyPayload {format : Format} {json : Json} (empty : format.isEmptyPayload json) :
    json.isSkippable := by
  unfold Format.isEmptyPayload at empty
  split at empty <;> simp_all [Json.isSkippable, Json.areSkippable, Json.areSkippableMembers]

theorem isSound_alternative (format : Format) (named : String → Option α) : IsSound (alternative format named) := by
  intro json value decoded
  unfold alternative at decoded
  split at decoded
  · simp [Json.isSkippableMember, Json.isSkippable]
  · cases decoded
  · cases decoded
  · cases decoded
  · rename_i name payload rest _ _ _
    split at decoded
    · cases decoded
    · split at decoded
      · cases decoded
      · rename_i empty
        split at decoded
        · rename_i alone
          obtain rfl := List.isEmpty_iff.mp alone
          have passable : payload.isSkippable := isSkippable_of_isEmptyPayload (by simpa using empty)
          simp [Json.isSkippableMember, Json.isSkippable, Json.areSkippableMembers, passable]
        · cases decoded
  · cases decoded

end Decoder

namespace Fields

theorem decode_map_eq_ok {fields : Fields α} {f : α → β} {members : Members} {value : β} :
    (f <$> fields).decode members = .ok value ↔ ∃ inner, fields.decode members = .ok inner ∧ f inner = value := by
  change (fields.decode members).map f = .ok value ↔ _
  cases fields.decode members <;> simp [Except.map]

theorem decode_seq_eq_ok {first : Fields (α → β)} {second : Fields α} {members : Members} {value : β} :
    (first <*> second).decode members = .ok value ↔
      ∃ f inner, first.decode members = .ok f ∧ second.decode members = .ok inner ∧ f inner = value := by
  cases decoded : first.decode members <;> cases decodedToo : second.decode members <;>
    simp [Seq.seq, decoded, decodedToo]

def AreSound (fields : Fields α) : Prop :=
  ∀ members value, fields.decode members = .ok value → ∀ name ∈ fields.names, ∀ position json,
    Members.locate? name members 0 = some (position, json) → json.isSkippableMember

theorem AreSound.map {fields : Fields α} (sound : fields.AreSound) (f : α → β) : (f <$> fields).AreSound := by
  intro members value decoded
  obtain ⟨inner, decoded, -⟩ := decode_map_eq_ok.mp decoded
  exact sound members inner decoded

theorem AreSound.seq {first : Fields (α → β)} {second : Fields α} (sound : first.AreSound)
    (soundToo : second.AreSound) : (first <*> second).AreSound := by
  intro members value decoded name member
  obtain ⟨f, inner, decoded, decodedToo, -⟩ := decode_seq_eq_ok.mp decoded
  rcases List.mem_append.mp member with own | other
  · exact sound members f decoded name own
  · exact soundToo members inner decodedToo name other

theorem decode_field_eq_ok {decode : Decoder α} {absent : Option α} {name : String} {members : Members}
    {position : Nat} {json : Json} {value : α} (located : Members.locate? name members 0 = some (position, json)) :
    (field name absent decode).decode members = .ok value ↔ decode json = .ok value := by
  simp only [field, located]
  cases decode json <;> simp

theorem decode_optional_eq_ok {decode : Decoder α} {name : String} {members : Members} {position : Nat} {json : Json}
    {value : Option α} (located : Members.locate? name members 0 = some (position, json)) :
    (optional name decode).decode members = .ok value ↔ Decoder.nullable decode json = .ok value := by
  rw [optional, withDefault, decode_field_eq_ok located]

theorem areSound_field {decode : Decoder α} (sound : decode.IsSound) (name : String) (absent : Option α) :
    (field name absent decode).AreSound := by
  intro members value decoded found member position json located
  obtain rfl := List.mem_singleton.mp member
  exact sound json value ((decode_field_eq_ok located).mp decoded)

theorem areSound_optional {decode : Decoder α} (sound : decode.IsSound) (name : String) :
    (optional name decode).AreSound := areSound_field sound.nullable name (some none)

theorem strayFault?_eq_none_iff {names seen : List String} {members : Members} {position : Nat} :
    strayFault? names seen position members = none ↔
      (∀ entry ∈ members, entry.1 ∉ names → entry.2.isSkippableMember) ∧
      (∀ entry ∈ members, entry.1 ∈ names → entry.1 ∉ seen) ∧
      ((members.map Prod.fst).filter (· ∈ names)).Nodup := by
  induction members generalizing seen position with
  | nil => simp [strayFault?]
  | cons entry rest ih =>
      obtain ⟨key, json⟩ := entry
      by_cases named : key ∈ names
      · by_cases repeated : key ∈ seen
        · simp [strayFault?, named, repeated]
        · simp only [strayFault?, named, repeated, if_true, if_false, ih]
          grind
      · by_cases skippable : json.isSkippableMember
        · simp [strayFault?, named, skippable, ih]
        · simp [strayFault?, named, skippable]

/-- Whoever asks for fewer members finds no fault in the others, as long as they can be passed over. -/
theorem strayFault?_of_subset {names fewer : List String} {members : Members} (subset : fewer ⊆ names)
    (sound : strayFault? names [] 0 members = none)
    (skippable : ∀ entry ∈ members, entry.1 ∈ names → entry.2.isSkippableMember) :
    strayFault? fewer [] 0 members = none := by
  rw [strayFault?_eq_none_iff] at sound ⊢
  obtain ⟨others, -, distinct⟩ := sound
  refine ⟨?_, by simp, ?_⟩
  · intro entry member _
    by_cases named : entry.1 ∈ names
    · exact skippable entry member named
    · exact others entry member named
  · have narrower : (members.map Prod.fst).filter (· ∈ fewer) =
        ((members.map Prod.fst).filter (· ∈ names)).filter (· ∈ fewer) := by
      rw [List.filter_filter]
      refine List.filter_congr fun key _ => ?_
      simpa using fun inFewer => subset inFewer
    rw [narrower]
    exact distinct.filter _

theorem locate?_of_distinct {names : List String} {members : Members}
    (distinct : ((members.map Prod.fst).filter (· ∈ names)).Nodup) {key : String} (named : key ∈ names) {json : Json}
    (member : (key, json) ∈ members) (position : Nat) :
    ∃ found, Members.locate? key members position = some (found, json) := by
  induction members generalizing position with
  | nil => simp at member
  | cons entry rest ih =>
      obtain ⟨other, value⟩ := entry
      by_cases same : other = key
      · subst same
        simp only [List.map_cons, List.filter_cons, named, decide_true, if_true, List.nodup_cons] at distinct
        have fresh : (other, json) ∉ rest := fun later =>
          distinct.1 (List.mem_filter.mpr ⟨List.mem_map_of_mem later, by simpa using named⟩)
        obtain rfl : json = value := by simpa [fresh] using member
        exact ⟨position, by simp [Members.locate?]⟩
      · have later : (key, json) ∈ rest := by simpa [Ne.symm same] using member
        obtain ⟨found, located⟩ := ih (distinct.sublist ((List.sublist_cons_self _ _).filter _)) later (position + 1)
        exact ⟨found, by simp [Members.locate?, same, located]⟩

theorem ofMembers_eq_ok {fields : Fields α} {members : Members} {value : α} :
    fields.ofMembers members = .ok value ↔
      strayFault? fields.names [] 0 members = none ∧ fields.decode members = .ok value := by
  unfold ofMembers
  split <;> simp_all

theorem ofItems_eq_ok {fields : Fields α} {items : List Json} {value : α} :
    fields.ofItems .json items = .ok value ↔
      fields.decode (fields.names.zip items) = .ok value ∧ items.length ≤ fields.names.length := by
  unfold ofItems
  cases fields.decode (fields.names.zip items) with
  | error found => simp
  | ok decoded =>
      by_cases few : items.length ≤ fields.names.length <;> simp [few, Format.allowsSurplus]

theorem ofItems_of_surplus {fields : Fields α} {items : List Json} {value : α}
    (decoded : fields.decode (fields.names.zip items) = .ok value) (surplus : fields.names.length < items.length) :
    fields.ofItems .json items = .error .malformed := by
  simp [ofItems, decoded, Format.allowsSurplus, Nat.not_le.mpr surplus]

theorem keys_zip_sublist (names : List String) (items : List Json) :
    ((names.zip items).map Prod.fst).Sublist names := by
  induction names generalizing items with
  | nil => simp
  | cons name rest ih =>
      cases items with
      | nil => simp
      | cons item others => simpa using ih others

theorem AreSound.isSkippable_of_ofMembers {fields : Fields α} (sound : fields.AreSound) {members : Members} {value : α}
    (decoded : fields.ofMembers members = .ok value) : ∀ entry ∈ members, entry.2.isSkippableMember := by
  rintro ⟨key, json⟩ member
  obtain ⟨unfaulted, decoded⟩ := ofMembers_eq_ok.mp decoded
  obtain ⟨others, -, distinct⟩ := strayFault?_eq_none_iff.mp unfaulted
  by_cases named : key ∈ fields.names
  · obtain ⟨position, located⟩ := locate?_of_distinct distinct named member 0
    exact sound members value decoded key named position json located
  · exact others (key, json) member named

theorem AreSound.isSkippable_of_ofItems {fields : Fields α} (sound : fields.AreSound) (distinct : fields.names.Nodup)
    {items : List Json} {value : α} (decoded : fields.ofItems .json items = .ok value) :
    ∀ item ∈ items, item.isSkippableMember := by
  intro item member
  obtain ⟨decoded, few⟩ := ofItems_eq_ok.mp decoded
  rw [← List.map_snd_zip few] at member
  obtain ⟨⟨key, json⟩, paired, rfl⟩ := List.mem_map.mp member
  have named : key ∈ fields.names := (List.of_mem_zip paired).1
  obtain ⟨position, located⟩ := Members.locate?_of_mem (distinct.sublist (keys_zip_sublist _ _)) paired 0
  exact sound _ value decoded key named position json located

theorem isSound_record {fields : Fields α} (sound : fields.AreSound) (distinct : fields.names.Nodup) :
    (record .json fields).IsSound := by
  intro json value decoded
  cases json with
  | object members =>
      rw [Json.isSkippableMember, Json.isSkippable]
      · refine Json.areSkippableMembers_iff.mpr fun entry member => ?_
        exact Json.isSkippable_of_isSkippableMember (sound.isSkippable_of_ofMembers decoded entry member)
      · simp
  | array items =>
      rw [Json.isSkippableMember, Json.isSkippable]
      · refine Json.areSkippable_iff.mpr fun item member => ?_
        exact Json.isSkippable_of_isSkippableMember (sound.isSkippable_of_ofItems distinct decoded item member)
      · simp
  | _ => simp [record] at decoded

end Fields
end MockAudit
