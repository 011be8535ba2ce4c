import MockAudit.Json.Decoder
import MockAudit.Unit.Encoding
import Mathlib.Data.List.Nodup

namespace MockAudit

variable {α β : Type}

def Inverts (decode : Decoder α) (encode : α → Json) : Prop := ∀ value, decode (encode value) = .ok value

mutual

theorem Json.isSkippable_of_isReadable : ∀ json : Json, json.isReadable → json.isSkippable
  | .array items, readable => by
      rw [isSkippable]
      exact areSkippable_of_areReadable items (by rwa [isReadable] at readable)
  | .object members, readable => by
      rw [isSkippable]
      exact areSkippableMembers_of_areReadableMembers members (by rwa [isReadable] at readable)
  | .unreadable obstacle, readable => by simp [isReadable] at readable
  | .null, _ | .bool _, _ | .int _, _ | .decimal _, _ | .string _, _ => by simp [isSkippable]

theorem Json.areSkippable_of_areReadable : ∀ items : List Json, areReadable items → areSkippable items
  | [], _ => by simp [areSkippable]
  | item :: rest, readable => by
      rw [areReadable, Bool.and_eq_true] at readable
      rw [areSkippable, Bool.and_eq_true]
      exact ⟨isSkippable_of_isReadable item readable.1, areSkippable_of_areReadable rest readable.2⟩

theorem Json.areSkippableMembers_of_areReadableMembers :
    ∀ members : List (String × Json), areReadableMembers members → areSkippableMembers members
  | [], _ => by simp [areSkippableMembers]
  | (_, value) :: rest, readable => by
      rw [areReadableMembers, Bool.and_eq_true] at readable
      rw [areSkippableMembers, Bool.and_eq_true]
      exact ⟨isSkippable_of_isReadable value readable.1, areSkippableMembers_of_areReadableMembers rest readable.2⟩

end

theorem Json.isSkippableMember_of_isReadable {json : Json} (readable : json.isReadable) :
    json.isSkippableMember := by
  have skippable := isSkippable_of_isReadable json readable
  cases json with
  | unreadable obstacle => simp [isReadable] at readable
  | _ => exact skippable

namespace Decoder

theorem inverts_bool : Inverts bool .bool := fun _ => rfl

theorem inverts_string : Inverts string .string := fun _ => rfl

theorem intWithin_of_mem {low high value : Int} (above : low ≤ value) (below : value ≤ high) :
    intWithin low high (.int value) = .ok value := by
  simp [intWithin, above, below]

theorem inverts_word64 : Inverts word64 .ofWord := by
  intro word
  have below : (word.toNat : Int) ≤ 0xFFFFFFFFFFFFFFFF := by have := word.toNat_lt; omega
  simp [word64, Json.ofWord, Json.nat, intWithin_of_mem (Int.natCast_nonneg _) below, Except.map]

theorem inverts_nullable {decode : Decoder α} {encode : α → Json} (inverts : Inverts decode encode)
    (present : ∀ value, encode value ≠ .null) : Inverts (nullable decode) (Json.ofOption encode) := by
  intro value
  cases value with
  | none => rfl
  | some value =>
      have unfolded : nullable decode (encode value) = (decode (encode value)).map some := by
        cases written : encode value with
        | null => exact absurd written (present value)
        | _ => rfl
      rw [Json.ofOption, unfolded, inverts value, Except.map]

theorem each_map {decode : Decoder α} {encode : α → Json} (inverts : Inverts decode encode) (values : List α) :
    each decode (values.map encode) = .ok values := by
  induction values with
  | nil => rfl
  | cons value rest ih => simp [each, inverts value, ih, Except.map]

theorem inverts_list {decode : Decoder α} {encode : α → Json} (inverts : Inverts decode encode) :
    Inverts (list decode) (Json.ofList encode) := fun values => each_map inverts values

end Decoder

theorem insertEntry_last {key : String} {value : β} {entries : List (String × β)}
    (above : ∀ entry ∈ entries, entry.1 < key) :
    insertEntry key value entries = entries ++ [(key, value)] := by
  induction entries with
  | nil => rfl
  | cons head rest ih =>
      have below : head.1 < key := above head List.mem_cons_self
      have notAbove : ¬ key < head.1 := String.lt_asymm below
      have different : key ≠ head.1 := fun same => String.lt_irrefl key (same ▸ below)
      simp [insertEntry, notAbove, different, ih fun entry member => above entry (List.mem_cons_of_mem _ member)]

theorem eachMember_ordered {decode : Decoder α} {encode : α → Json} (inverts : Inverts decode encode)
    {sofar : Dictionary α} {rest : List (String × α)}
    (ordered : (sofar.entries ++ rest).Pairwise fun a b => a.1 < b.1) :
    Decoder.eachMember decode sofar (rest.map fun entry => (entry.1, encode entry.2)) =
      .ok ⟨sofar.entries ++ rest, ordered⟩ := by
  induction rest generalizing sofar with
  | nil =>
      simp only [List.map_nil, Decoder.eachMember, List.append_nil]
  | cons entry rest ih =>
      obtain ⟨key, value⟩ := entry
      have above : ∀ entry ∈ sofar.entries, entry.1 < key := fun entry member =>
        (List.pairwise_append.mp ordered).2.2 entry member (key, value) List.mem_cons_self
      have grown : (sofar.insert key value).entries = sofar.entries ++ [(key, value)] := insertEntry_last above
      simp only [List.map_cons, Decoder.eachMember, inverts value]
      rw [ih (by simpa [grown] using ordered)]
      simp [grown]

theorem Decoder.inverts_dictionary {decode : Decoder α} {encode : α → Json} (inverts : Inverts decode encode) :
    Inverts (dictionary decode) (Json.ofDictionary encode) := by
  intro written
  have ordered : ((Dictionary.empty : Dictionary α).entries ++ written.entries).Pairwise fun a b => a.1 < b.1 :=
    written.ordered
  exact eachMember_ordered inverts ordered

namespace Members

theorem locate?_of_mem {members : Members} (distinct : (members.map Prod.fst).Nodup) {key : String} {json : Json}
    (member : (key, json) ∈ members) (position : Nat) :
    ∃ found, locate? key members position = some (found, json) := by
  induction members generalizing position with
  | nil => simp at member
  | cons head rest ih =>
      obtain ⟨name, value⟩ := head
      obtain ⟨fresh, distinct⟩ := List.nodup_cons.mp distinct
      rcases List.mem_cons.mp member with same | later
      · obtain ⟨rfl, rfl⟩ := Prod.mk.inj same
        exact ⟨position, by simp [locate?]⟩
      · have different : name ≠ key := fun same => fresh (same ▸ List.mem_map.mpr ⟨_, later, rfl⟩)
        obtain ⟨found, located⟩ := ih distinct later (position + 1)
        exact ⟨found, by simp [locate?, different, located]⟩

theorem locate?_of_absent {members : Members} {key : String} (absent : key ∉ members.map Prod.fst)
    (position : Nat) : locate? key members position = none := by
  induction members generalizing position with
  | nil => rfl
  | cons head rest ih =>
      rw [List.map_cons, List.mem_cons, not_or] at absent
      simp [locate?, Ne.symm absent.1, ih absent.2]

end Members

namespace Fields

def Reads (fields : Fields α) (members : Members) (value : α) : Prop := fields.decode members = .ok value

theorem Reads.map {fields : Fields α} {members : Members} {value : α} (reads : fields.Reads members value)
    (f : α → β) : (f <$> fields).Reads members (f value) := by
  change (fields.decode members).map f = .ok (f value)
  rw [reads, Except.map]

theorem Reads.seq {first : Fields (α → β)} {second : Fields α} {members : Members} {f : α → β} {value : α}
    (readsFirst : first.Reads members f) (readsSecond : second.Reads members value) :
    (first <*> second).Reads members (f value) := by
  simp only [Reads] at readsFirst readsSecond
  simp [Reads, Seq.seq, readsFirst, readsSecond]

theorem reads_field {members : Members} {name : String} {json : Json} {decode : Decoder α} {value : α}
    (decoded : decode json = .ok value) (member : (name, json) ∈ members)
    (distinct : (members.map Prod.fst).Nodup) (absent : Option α) :
    (field name absent decode).Reads members value := by
  obtain ⟨position, located⟩ := Members.locate?_of_mem distinct member 0
  simp [Reads, field, located, decoded]

theorem reads_required {members : Members} {name : String} {json : Json} {decode : Decoder α} {value : α}
    (decoded : decode json = .ok value) (member : (name, json) ∈ members)
    (distinct : (members.map Prod.fst).Nodup) : (required name decode).Reads members value :=
  reads_field decoded member distinct none

theorem reads_withDefault {members : Members} {name : String} {json : Json} {decode : Decoder α}
    {value default : α} (decoded : decode json = .ok value) (member : (name, json) ∈ members)
    (distinct : (members.map Prod.fst).Nodup) : (withDefault name default decode).Reads members value :=
  reads_field decoded member distinct (some default)

theorem reads_optional {members : Members} {name : String} {json : Json} {decode : Decoder α}
    {value : Option α} (decoded : Decoder.nullable decode json = .ok value) (member : (name, json) ∈ members)
    (distinct : (members.map Prod.fst).Nodup) : (optional name decode).Reads members value :=
  reads_field decoded member distinct (some none)

theorem reads_absent {members : Members} {name : String} (missing : name ∉ members.map Prod.fst)
    (decode : Decoder α) (default : α) : (withDefault name default decode).Reads members default := by
  simp [Reads, withDefault, field, Members.locate?_of_absent missing]

theorem reads_optionalMember {members : Members} {name : String} {decode : Decoder α} {encode : α → Json}
    (inverts : Inverts decode encode) (present : ∀ value, encode value ≠ .null) {value : Option α}
    (held : ∀ json, (name, json) ∈ members ↔ (name, json) ∈ optionalMember name encode value)
    (distinct : (members.map Prod.fst).Nodup) : (optional name decode).Reads members value := by
  cases value with
  | none =>
      refine reads_absent ?_ _ none
      intro named
      obtain ⟨⟨key, json⟩, member, rfl⟩ := List.mem_map.mp named
      simpa [optionalMember] using (held json).mp member
  | some value =>
      have member : (name, encode value) ∈ members := (held _).mpr (by simp [optionalMember])
      exact reads_optional (Decoder.inverts_nullable inverts present (some value)) member distinct

theorem strayFault?_eq_none {names seen : List String} {members : Members}
    (distinct : (members.map Prod.fst).Nodup) (unseen : ∀ entry ∈ members, entry.1 ∉ seen)
    (known : ∀ entry ∈ members, entry.1 ∈ names ∨ entry.2.isSkippableMember) (position : Nat) :
    strayFault? names seen position members = none := by
  induction members generalizing seen position with
  | nil => rfl
  | cons head rest ih =>
      obtain ⟨key, json⟩ := head
      obtain ⟨fresh, distinct⟩ := List.nodup_cons.mp distinct
      have knownRest := fun entry member => known entry (List.mem_cons_of_mem _ member)
      have unseenRest := fun entry member => unseen entry (List.mem_cons_of_mem _ member)
      by_cases named : key ∈ names
      · have unseenLater : ∀ entry ∈ rest, entry.1 ∉ key :: seen := by
          intro entry member again
          rcases List.mem_cons.mp again with same | old
          · exact fresh (List.mem_map.mpr ⟨entry, member, same⟩)
          · exact unseenRest entry member old
        have unseenHere : key ∉ seen := unseen (key, json) List.mem_cons_self
        simp [strayFault?, named, unseenHere, ih distinct unseenLater knownRest]
      · have skippable : json.isSkippableMember := (known (key, json) List.mem_cons_self).resolve_left named
        simp [strayFault?, named, skippable, ih distinct unseenRest knownRest]

theorem Reads.ofMembers {fields : Fields α} {members : Members} {value : α} (reads : fields.Reads members value)
    (distinct : (members.map Prod.fst).Nodup)
    (known : ∀ entry ∈ members, entry.1 ∈ fields.names ∨ entry.2.isSkippableMember) :
    fields.ofMembers members = .ok value := by
  have noStray : strayFault? fields.names [] 0 members = none :=
    strayFault?_eq_none distinct (fun _ _ => List.not_mem_nil) known 0
  simp only [Reads] at reads
  simp [Fields.ofMembers, noStray, reads]

theorem Reads.ofOwnMembers {fields : Fields α} {members : Members} {value : α}
    (reads : fields.Reads members value) (distinct : (members.map Prod.fst).Nodup)
    (own : members.map Prod.fst = fields.names) : fields.ofMembers members = .ok value :=
  reads.ofMembers distinct fun _ member => .inl (own ▸ List.mem_map_of_mem member)

end Fields

theorem mem_optionalMember {key name : String} {encode : α → Json} {value : Option α} {json : Json} :
    (key, json) ∈ optionalMember name encode value ↔ key = name ∧ ∃ held, value = some held ∧ json = encode held := by
  cases value <;> simp [optionalMember]

theorem optionalMember_keys (name : String) (encode : α → Json) (value : Option α) :
    ((optionalMember name encode value).map Prod.fst).Sublist [name] := by
  cases value <;> simp [optionalMember]

end MockAudit
