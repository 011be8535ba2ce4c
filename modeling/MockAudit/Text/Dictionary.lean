namespace MockAudit

def insertEntry {β : Type} (key : String) (value : β) : List (String × β) → List (String × β)
  | [] => [(key, value)]
  | (k, v) :: rest =>
      if key < k then (key, value) :: (k, v) :: rest
      else if key = k then (key, value) :: rest
      else (k, v) :: insertEntry key value rest

theorem mem_insertEntry {β : Type} {key : String} {value : β} {entries : List (String × β)}
    {entry : String × β} (member : entry ∈ insertEntry key value entries) :
    entry = (key, value) ∨ entry ∈ entries := by
  induction entries with
  | nil => simpa [insertEntry] using member
  | cons head rest ih =>
      obtain ⟨k, v⟩ := head
      simp only [insertEntry] at member
      split at member
      · simpa using member
      · split at member
        · rcases List.mem_cons.mp member with equal | later
          · exact .inl equal
          · exact .inr (List.mem_cons_of_mem _ later)
        · rcases List.mem_cons.mp member with equal | later
          · exact .inr (equal ▸ List.mem_cons_self)
          · rcases ih later with equal | old
            · exact .inl equal
            · exact .inr (List.mem_cons_of_mem _ old)

theorem pairwise_insertEntry {β : Type} (key : String) (value : β) {entries : List (String × β)}
    (ordered : entries.Pairwise fun a b => a.1 < b.1) :
    (insertEntry key value entries).Pairwise fun a b => a.1 < b.1 := by
  induction entries with
  | nil => simp [insertEntry]
  | cons head rest ih =>
      obtain ⟨k, v⟩ := head
      obtain ⟨first, tail⟩ := List.pairwise_cons.mp ordered
      simp only [insertEntry]
      split
      · rename_i below
        refine List.pairwise_cons.mpr ⟨?_, ordered⟩
        intro entry member
        rcases List.mem_cons.mp member with equal | later
        · exact equal ▸ below
        · exact String.lt_trans below (first entry later)
      · rename_i notBelow
        split
        · rename_i equal
          exact List.pairwise_cons.mpr ⟨fun entry member => equal ▸ first entry member, tail⟩
        · rename_i different
          have above : k < key := by
            rcases Std.lt_trichotomy key k with h | h | h
            · exact absurd h notBelow
            · exact absurd h different
            · exact h
          refine List.pairwise_cons.mpr ⟨?_, ih tail⟩
          intro entry member
          rcases mem_insertEntry member with equal | old
          · exact equal ▸ above
          · exact first entry old

structure Dictionary (β : Type) where
  entries : List (String × β)
  ordered : entries.Pairwise fun a b => a.1 < b.1

namespace Dictionary

variable {β : Type}

def empty : Dictionary β := ⟨[], .nil⟩

instance : Inhabited (Dictionary β) := ⟨empty⟩

instance [DecidableEq β] : DecidableEq (Dictionary β) := fun a b =>
  if same : a.entries = b.entries then
    .isTrue (by cases a; cases b; cases same; rfl)
  else .isFalse fun equal => same (equal ▸ rfl)

def insert (d : Dictionary β) (key : String) (value : β) : Dictionary β :=
  ⟨insertEntry key value d.entries, pairwise_insertEntry key value d.ordered⟩

def get? (d : Dictionary β) (key : String) : Option β :=
  (d.entries.find? fun entry => entry.1 == key).map (·.2)

def ofList (bindings : List (String × β)) : Dictionary β :=
  bindings.foldl (fun d entry => d.insert entry.1 entry.2) empty

end Dictionary
end MockAudit
