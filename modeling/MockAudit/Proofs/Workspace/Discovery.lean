import MockAudit.Proofs.Workspace.Addition
import Mathlib.Data.List.Perm.Basic
import Mathlib.Data.List.Nodup

namespace MockAudit

open MockAudit.Path

namespace FileTree

/-! ## The files of a tree -/

mutual

def files : FileTree → List (List String)
  | .file _ => [[]]
  | .directory entries => filesOfEntries entries

def filesOfEntries : List (String × FileTree) → List (List String)
  | [] => []
  | (name, tree) :: rest => tree.files.map (name :: ·) ++ filesOfEntries rest

end

theorem areProper_cons {name : String} {tree : FileTree} {rest : List (String × FileTree)} :
    areProper ((name, tree) :: rest) = true ↔
      IsFileName name ∧ name ∉ rest.map (·.1) ∧ tree.isProper = true ∧ areProper rest = true := by
  simp [areProper, and_assoc]

theorem lookup_cons_of_ne {name : String} {first : String × FileTree} (different : name ≠ first.1)
    (rest : List (String × FileTree)) : (first :: rest).lookup name = rest.lookup name := by
  rw [List.lookup_cons, beq_eq_false_iff_ne.mpr different]

theorem lookup_cons_self (first : String × FileTree) (rest : List (String × FileTree)) :
    (first :: rest).lookup first.1 = some first.2 := by
  rw [List.lookup_cons, beq_self_eq_true]

theorem lookup_eq_none {name : String} {entries : List (String × FileTree)} (absent : name ∉ entries.map (·.1)) :
    entries.lookup name = none := by
  refine List.lookup_eq_none_iff.mpr fun entry member => ?_
  rw [bne_iff_ne]
  rintro rfl
  exact absent (List.mem_map_of_mem member)

theorem lookup_of_mem {entries : List (String × FileTree)} (proper : areProper entries = true) :
    ∀ entry ∈ entries, entries.lookup entry.1 = some entry.2 := by
  induction entries with
  | nil => simp
  | cons first rest ih =>
      obtain ⟨-, fresh, -, proper⟩ := areProper_cons.mp proper
      intro entry member
      rcases List.mem_cons.mp member with rfl | member
      · exact lookup_cons_self entry rest
      · have different : entry.1 ≠ first.1 := fun same => fresh (same ▸ List.mem_map_of_mem member)
        rw [lookup_cons_of_ne different, ih proper entry member]

theorem isProper_of_child? {tree child : FileTree} {name : String} (proper : tree.isProper = true)
    (found : tree.child? name = some child) : IsFileName name ∧ child.isProper = true := by
  cases tree with
  | file text => simp [child?, entries] at found
  | directory entries =>
      simp only [isProper] at proper
      simp only [child?, FileTree.entries] at found
      induction entries with
      | nil => simp at found
      | cons first rest ih =>
          obtain ⟨valid, -, inner, proper⟩ := areProper_cons.mp proper
          rw [List.lookup_cons] at found
          split at found
          next same =>
            obtain rfl : name = first.1 := by simpa using same
            obtain rfl : first.2 = child := by simpa using found
            exact ⟨valid, inner⟩
          next => exact ih proper found

theorem isProper_of_get? {tree below : FileTree} {names : List String} (proper : tree.isProper = true)
    (found : tree.get? names = some below) : (∀ name ∈ names, IsFileName name) ∧ below.isProper = true := by
  induction names generalizing tree with
  | nil =>
      obtain rfl : tree = below := by simpa [get?] using found
      exact ⟨by simp, proper⟩
  | cons name rest ih =>
      obtain ⟨child, here, found⟩ := Option.bind_eq_some_iff.mp found
      obtain ⟨valid, proper⟩ := isProper_of_child? proper here
      obtain ⟨later, proper⟩ := ih proper found
      exact ⟨by simpa using ⟨valid, later⟩, proper⟩

theorem entryAt?_cons (tree : FileTree) (name : String) (rest : List String) :
    tree.entryAt? (name :: rest) = (tree.child? name).bind (·.entryAt? rest) := by
  rw [entryAt?, get?, Option.map_bind]
  rfl

mutual

theorem mem_files : (tree : FileTree) → tree.isProper = true → (names : List String) →
    (names ∈ tree.files ↔ ∃ text, tree.entryAt? names = some (.file text))
  | .file text, _, names => by
      cases names <;> simp [files, entryAt?, get?, child?, entries, entry]
  | .directory entries, proper, names => mem_filesOfEntries entries proper names

theorem mem_filesOfEntries : (entries : List (String × FileTree)) → areProper entries = true → (names : List String) →
    (names ∈ filesOfEntries entries ↔ ∃ text, (directory entries).entryAt? names = some (.file text))
  | [], _, names => by
      cases names <;> simp [filesOfEntries, entryAt?, get?, child?, entries, entry]
  | (name, tree) :: rest, proper, names => by
      obtain ⟨-, fresh, inner, proper⟩ := areProper_cons.mp proper
      have later := mem_filesOfEntries rest proper names
      rw [filesOfEntries, List.mem_append, later]
      cases names with
      | nil => simp [entryAt?, get?, entry]
      | cons first names =>
          simp only [entryAt?_cons, child?, entries]
          by_cases same : first = name
          · subst same
            rw [lookup_eq_none fresh, lookup_cons_self (first, tree)]
            simpa using mem_files tree inner names
          · rw [@lookup_cons_of_ne _ (name, tree) same]
            simp [Ne.symm same]

end

mutual

theorem nodup_files : (tree : FileTree) → tree.isProper = true → tree.files.Nodup
  | .file _, _ => List.nodup_singleton []
  | .directory entries, proper => nodup_filesOfEntries entries proper

theorem nodup_filesOfEntries : (entries : List (String × FileTree)) → areProper entries = true →
    (filesOfEntries entries).Nodup
  | [], _ => List.nodup_nil
  | (name, tree) :: rest, proper => by
      obtain ⟨-, fresh, inner, proper⟩ := areProper_cons.mp proper
      have first := (nodup_files tree inner).map (List.cons_injective (a := name))
      refine first.append (nodup_filesOfEntries rest proper) fun names here later => ?_
      obtain ⟨below, -, rfl⟩ := List.mem_map.mp here
      obtain ⟨text, found⟩ := (mem_filesOfEntries rest proper _).mp later
      rw [entryAt?_cons, child?, entries, lookup_eq_none fresh] at found
      contradiction

end

end FileTree

namespace Search

open FileTree

/-! ## The files that a search visits -/

namespace Visit

def enter (visit : Visit) (name : String) : Visit := ⟨visit.path.join name, visit.below.join name⟩

def descend (visit : Visit) (names : List String) : Visit := names.foldl enter visit

end Visit

def admits (search : Search) (layers : List IgnoreLayer) (visit : Visit) (tree : FileTree) : List String → Bool
  | [] => true
  | name :: rest =>
      match tree.child? name with
      | none => false
      | some child =>
          let layers := IgnoreLayer.ofDirectory search.fs search.respected visit.path tree :: layers
          !search.isIgnored layers (visit.enter name).path child.isDirectory
            && search.admits layers (visit.enter name) child rest

mutual

theorem visits_eq (search : Search) (layers : List IgnoreLayer) (visit : Visit) : (tree : FileTree) →
    tree.isProper = true →
      search.visits layers visit tree = (tree.files.filter (search.admits layers visit tree)).map visit.descend
  | .file _, _ => rfl
  | .directory entries, proper =>
      search.visitEntries_eq layers visit entries proper rfl entries (lookup_of_mem (by simpa [isProper] using proper))

theorem visitEntries_eq (search : Search) (layers : List IgnoreLayer) (visit : Visit)
    (whole : List (String × FileTree)) (proper : (FileTree.directory whole).isProper = true)
    {inner : List IgnoreLayer}
    (layered : inner = IgnoreLayer.ofDirectory search.fs search.respected visit.path (.directory whole) :: layers) :
    (entries : List (String × FileTree)) → (∀ entry ∈ entries, whole.lookup entry.1 = some entry.2) →
      search.visitEntries inner visit entries =
        ((filesOfEntries entries).filter (search.admits layers visit (.directory whole))).map visit.descend
  | [], _ => rfl
  | (name, tree) :: rest, inside => by
      have later := search.visitEntries_eq layers visit whole proper layered rest fun entry member =>
        inside entry (List.mem_cons_of_mem _ member)
      have found : (FileTree.directory whole).child? name = some tree := inside (name, tree) List.mem_cons_self
      have below := search.visits_eq inner (visit.enter name) tree (isProper_of_child? proper found).2
      have admitted : search.admits layers visit (.directory whole) ∘ (name :: ·) = fun names =>
          !search.isIgnored inner (visit.enter name).path tree.isDirectory
            && search.admits inner (visit.enter name) tree names := by
        funext names
        simp [admits, found, layered]
      rw [visitEntries, later, filesOfEntries, List.filter_append, List.map_append, List.filter_map, List.map_map,
        admitted]
      congr 1
      change (if search.isIgnored inner (visit.enter name).path tree.isDirectory = true then []
        else search.visits inner (visit.enter name) tree) = _
      split_ifs with ignored
      · simp [ignored]
      · rw [below]
        simp [ignored, Visit.descend, Function.comp_def]

end

theorem exists_of_mem_visits {search : Search} {layers : List IgnoreLayer} {visit found : Visit} {tree : FileTree}
    (proper : tree.isProper = true) (member : found ∈ search.visits layers visit tree) :
    ∃ names ∈ tree.files, (∀ name ∈ names, IsFileName name) ∧ found = visit.descend names := by
  rw [visits_eq search layers visit tree proper] at member
  obtain ⟨names, admitted, rfl⟩ := List.mem_map.mp member
  have inside := (List.mem_filter.mp admitted).1
  obtain ⟨text, present⟩ := (mem_files tree proper names).mp inside
  obtain ⟨file, here, -⟩ := exists_get?_of_entryAt? present
  exact ⟨names, inside, (isProper_of_get? proper here).1, rfl⟩

namespace Visit

theorem locate_descend {fs : FileSystem} {visit : Visit} {above names : List String}
    (valid : ∀ name ∈ names, IsFileName name) (found : fs.locate visit.path = .ok above)
    (present : (fs.root.entryAt? (above ++ names)).isSome) :
    fs.locate (visit.descend names).path = .ok (above ++ names) := by
  induction names generalizing visit above with
  | nil => simpa [descend] using found
  | cons name rest ih =>
      have here := entryAt?_of_below (List.cons_ne_nil name rest) present
      have entered : fs.locate (visit.enter name).path = .ok (above ++ [name]) :=
        FileSystem.locate_join_of_directory fs (valid name (by simp)) found here
      have moved : above ++ name :: rest = above ++ [name] ++ rest := by simp
      rw [moved] at present ⊢
      exact ih (fun later member => valid later (by simp [member])) entered present

theorem components_descend {visit : Visit} {names : List String} (valid : ∀ name ∈ names, IsFileName name)
    (given : visit.path ≠ "") :
    (visit.descend names).path.components = visit.path.components ++ names.map .normal := by
  induction names generalizing visit with
  | nil => simp [descend]
  | cons name rest ih =>
      have fits := valid name (by simp)
      have entered : (visit.enter name).path.components = visit.path.components ++ [.normal name] :=
        components_join fits given
      have moved : (visit.enter name).path ≠ "" := join_ne_empty fits.1
      have later := ih (fun later member => valid later (by simp [member])) moved
      simpa [descend, entered] using later

theorem descend_inj {visit : Visit} {names others : List String} (valid : ∀ name ∈ names, IsFileName name)
    (validOthers : ∀ name ∈ others, IsFileName name) (given : visit.path ≠ "")
    (same : (visit.descend names).path.components = (visit.descend others).path.components) : names = others := by
  rw [components_descend valid given, components_descend validOthers given, List.append_cancel_left_eq] at same
  exact List.map_injective_iff.mpr (fun _ _ => Component.normal.inj) same

end Visit

theorem eq_of_components_eq {search : Search} {layers : List IgnoreLayer} {visit a b : Visit} {tree : FileTree}
    (proper : tree.isProper = true) (given : visit.path ≠ "") (here : a ∈ search.visits layers visit tree)
    (there : b ∈ search.visits layers visit tree) (same : a.path.components = b.path.components) : a = b := by
  obtain ⟨names, -, valid, rfl⟩ := exists_of_mem_visits proper here
  obtain ⟨others, -, validOthers, rfl⟩ := exists_of_mem_visits proper there
  rw [Visit.descend_inj valid validOthers given same]

end Search

theorem exists_insert_of_perm {α : Type} {le : α → α → Prop} {list grown : List α} {added : α}
    (perm : grown.Perm (added :: list)) (sorted : list.Pairwise le) (sortedGrown : grown.Pairwise le)
    (antisymm : ∀ a ∈ list, ∀ b ∈ list, le a b → le b a → a = b) :
    ∃ front back, list = front ++ back ∧ grown = front ++ added :: back := by
  obtain ⟨front, back, rfl⟩ := List.append_of_mem (perm.mem_iff.mpr List.mem_cons_self)
  have rest : list.Perm (front ++ back) := (List.perm_middle.symm.trans perm).cons_inv.symm
  refine ⟨front, back, rest.eq_of_pairwise ?_ sorted ?_, rfl⟩
  · exact fun a b here there => antisymm a here b (rest.mem_iff.mpr there)
  · exact sortedGrown.sublist ((List.sublist_cons_self added back).append_left front)

namespace SearchRequest

open Search

variable {exclusions : List (Pattern Char)} {visits visits' : List Visit}

def search (fs : FileSystem) (request : SearchRequest) (place : List String) (isDirectory : Bool) : Search where
  fs := fs
  root := request.root
  absolute := FileSystem.topPath place
  respected := request.respected
  above := if isDirectory then fs.layersAbove request.respected place else []
  user := request.user

theorem visited_eq_ok_iff {fs : FileSystem} {request : SearchRequest} {visits : List Visit} :
    request.visited fs = .ok visits ↔
      request.root.alike standardInput = true ∧ visits = [] ∨
      request.root.alike standardInput = false ∧ ∃ place tree, fs.find request.root = .ok (place, tree) ∧
        (∀ layer ∈ (request.search fs place tree.isDirectory).above, layer.isSound = true) ∧
        visits = (request.search fs place tree.isDirectory).visits [] ⟨request.root, ""⟩ tree := by
  unfold visited
  cases input : request.root.alike standardInput with
  | true =>
      simp only [↓reduceIte, Except.ok.injEq, true_and, Bool.true_eq_false, false_and, or_false]
      exact eq_comm
  | false =>
      cases fs.find request.root with
      | error cause => simp
      | ok pair =>
          obtain ⟨place, tree⟩ := pair
          simp only [Bool.false_eq_true, ↓reduceIte, false_and, true_and, false_or, Except.ok.injEq, Prod.mk.injEq]
          split
          next layer unsound =>
            have member : layer ∈ (request.search fs place tree.isDirectory).above :=
              List.mem_reverse.mp (List.mem_of_find?_eq_some unsound)
            have bad : layer.isSound = false := by simpa using List.find?_some unsound
            refine iff_of_false (by simp) ?_
            rintro ⟨_, _, ⟨rfl, rfl⟩, sound, -⟩
            simp [sound layer member] at bad
          next sound =>
            have sound : ∀ layer ∈ (request.search fs place tree.isDirectory).above, layer.isSound = true := by
              intro layer member
              simpa using List.find?_eq_none.mp sound layer (List.mem_reverse.mpr member)
            constructor
            · intro searched
              exact ⟨place, tree, ⟨rfl, rfl⟩, sound, (Except.ok.inj searched).symm⟩
            · rintro ⟨_, _, ⟨rfl, rfl⟩, -, rfl⟩
              rfl

def documents (exclusions : List (Pattern Char)) (visits : List Visit) : List Path :=
  ((visits.filter (wanted exclusions)).map (·.path)).mergeSort fun a b => componentsLe a.components b.components

theorem discover_eq_ok_iff {fs : FileSystem} {request : SearchRequest} {found : List Path} :
    request.discover fs = .ok found ↔ ∃ exclusions visits, request.exclusions = .ok exclusions ∧
      request.visited fs = .ok visits ∧ found = documents exclusions visits := by
  unfold discover
  cases request.exclusions with
  | error cause => simp
  | ok exclusions =>
      cases request.visited fs with
      | error cause => simp [Except.map]
      | ok visits => simp [Except.map, documents, eq_comm]

theorem discover_of_sorted {fs : FileSystem} {request : SearchRequest} {found : List Path}
    (searched : (request.exclusions.bind fun exclusions => (request.visited fs).map fun visits =>
      (visits.filter (wanted exclusions)).map (·.path)) = .ok found)
    (sorted : found.Pairwise fun a b => componentsLe a.components b.components = true) :
    request.discover fs = .ok found := by
  unfold discover
  cases compiled : request.exclusions with
  | error cause => simp [compiled, Except.bind] at searched
  | ok exclusions =>
      rw [compiled] at searched
      cases visited : request.visited fs with
      | error cause => simp [visited, Except.bind, Except.map] at searched
      | ok visits =>
          rw [visited] at searched
          obtain rfl := Except.ok.inj searched
          exact congrArg Except.ok (List.mergeSort_of_pairwise sorted)

theorem documents_perm : (documents exclusions visits).Perm ((visits.filter (wanted exclusions)).map (·.path)) :=
  List.mergeSort_perm _ _

theorem documents_pairwise :
    (documents exclusions visits).Pairwise fun a b => componentsLe a.components b.components = true := by
  refine List.pairwise_mergeSort (fun a b c => ?_) (fun a b => ?_) _
  · exact componentsLe_trans
  · exact componentsLe_total a.components b.components

theorem exists_of_mem_documents {path : Path} (member : path ∈ documents exclusions visits) :
    ∃ visit ∈ visits, visit.path = path := by
  obtain ⟨visit, kept, rfl⟩ := List.mem_map.mp (documents_perm.mem_iff.mp member)
  exact ⟨visit, (List.mem_filter.mp kept).1, rfl⟩

section Distinct
variable (distinct : ∀ a ∈ visits, ∀ b ∈ visits, a.path.components = b.path.components → a = b)
include distinct

theorem documents_antisymm {a b : Path} (here : a ∈ documents exclusions visits)
    (there : b ∈ documents exclusions visits) (first : componentsLe a.components b.components = true)
    (second : componentsLe b.components a.components = true) : a = b := by
  obtain ⟨visit, inside, rfl⟩ := exists_of_mem_documents here
  obtain ⟨visit', inside', rfl⟩ := exists_of_mem_documents there
  rw [distinct visit inside visit' inside' (componentsLe_antisymm first second)]

theorem documents_of_kept_perm (kept : ((visits'.filter (wanted exclusions)).map (·.path)).Perm
    ((visits.filter (wanted exclusions)).map (·.path))) :
    documents exclusions visits' = documents exclusions visits := by
  have same := documents_perm.trans (kept.trans documents_perm.symm)
  refine same.eq_of_pairwise (fun a b here there => ?_) documents_pairwise documents_pairwise
  exact documents_antisymm distinct (same.mem_iff.mp here) there

theorem documents_of_perm_cons {extra : Visit} (perm : visits'.Perm (extra :: visits)) :
    documents exclusions visits' = documents exclusions visits ∨
      ∃ front back, documents exclusions visits = front ++ back ∧
        documents exclusions visits' = front ++ extra.path :: back := by
  have kept := (perm.filter (wanted exclusions)).map (·.path)
  rw [List.filter_cons] at kept
  split_ifs at kept with want
  · have more := documents_perm.trans (kept.trans (documents_perm.symm.cons extra.path))
    refine .inr (exists_insert_of_perm more documents_pairwise documents_pairwise ?_)
    exact fun a here b there => documents_antisymm distinct here there
  · exact .inl (documents_of_kept_perm distinct kept)

end Distinct
end SearchRequest

namespace FileSystem.AddsDocument

open FileTree Search

variable {fs other : FileSystem} {place : List String} {text : Option String}
variable (adds : fs.AddsDocument other place text)
include adds

/-! ## One document more is one visit more at most -/

section Below
variable {above : List String} {tree tree' : FileTree}
variable (old : fs.root.get? above = some tree) (new : other.root.get? above = some tree')
include old new

theorem entryAt?_below {names : List String} (different : above ++ names ≠ place) :
    tree'.entryAt? names = tree.entryAt? names := by
  rw [← entryAt?_append new, ← entryAt?_append old, adds.same _ different]

omit new in
theorem ne_of_mem_files {names : List String} (member : names ∈ tree.files) : above ++ names ≠ place := by
  intro here
  obtain ⟨content, found⟩ := (mem_files tree (isProper_of_get? adds.proper old).2 names).mp member
  rw [← entryAt?_append old, here, adds.absent] at found
  contradiction

theorem mem_files_iff (names : List String) : names ∈ tree'.files ↔ above ++ names = place ∨ names ∈ tree.files := by
  rw [mem_files tree' (isProper_of_get? adds.properOther new).2, mem_files tree (isProper_of_get? adds.proper old).2]
  by_cases here : above ++ names = place
  · simp only [here, true_or, iff_true]
    exact ⟨text, by rw [← entryAt?_append new, here, adds.present]⟩
  · simp [here, adds.entryAt?_below old new here]

theorem files_perm : tree'.files.Perm tree.files ∨
    ∃ names, above ++ names = place ∧ tree'.files.Perm (names :: tree.files) := by
  have nodup := nodup_files tree (isProper_of_get? adds.proper old).2
  have nodup' := nodup_files tree' (isProper_of_get? adds.properOther new).2
  by_cases below : above <+: place
  · obtain ⟨names, here⟩ := below
    have fresh : names ∉ tree.files := fun member => adds.ne_of_mem_files old member here
    have more := List.nodup_cons.mpr ⟨fresh, nodup⟩
    refine .inr ⟨names, here, (List.perm_ext_iff_of_nodup nodup' more).mpr fun others => ?_⟩
    rw [adds.mem_files_iff old new, List.mem_cons, ← here, List.append_cancel_left_eq]
  · refine .inl ((List.perm_ext_iff_of_nodup nodup' nodup).mpr fun names => ?_)
    rw [adds.mem_files_iff old new, or_iff_right]
    exact fun here => below ⟨names, here⟩

end Below

theorem isIgnored_eq {search : Search} (of : search.fs = fs) :
    ({ search with fs := other } : Search).isIgnored = search.isIgnored := by
  funext layers path isDirectory
  simp only [isIgnored, fromTop, adds.current, of]

theorem admits_eq {search : Search} (of : search.fs = fs) {layers : List IgnoreLayer} {visit : Visit}
    {above names : List String} {tree tree' : FileTree} (old : fs.root.get? above = some tree)
    (new : other.root.get? above = some tree') (different : above ++ names ≠ place) :
    ({ search with fs := other } : Search).admits layers visit tree' names = search.admits layers visit tree names := by
  induction names generalizing layers visit above tree tree' with
  | nil => rfl
  | cons name rest ih =>
      have layer := adds.ofDirectory_eq search.respected visit.path above
      rw [old, new, Option.getD_some, Option.getD_some] at layer
      have child : tree.child? name = fs.root.get? (above ++ [name]) := by
        rw [get?_append, old, Option.bind_some, get?_singleton]
      have child' : tree'.child? name = other.root.get? (above ++ [name]) := by
        rw [get?_append, new, Option.bind_some, get?_singleton]
      by_cases here : above ++ [name] = place
      · -- the new document has nothing below it, and in the old tree its name leads nowhere
        have gone : tree.child? name = none := by
          rw [child, here]
          simpa [entryAt?] using adds.absent
        obtain ⟨file, found, kind⟩ := exists_get?_of_entryAt? adds.present
        obtain ⟨next, more, rfl⟩ : ∃ next more, rest = next :: more :=
          List.exists_cons_of_ne_nil fun ended => different (ended ▸ here)
        cases file with
        | directory entries => simp [entry] at kind
        | file content =>
            have ends : (FileTree.file content).child? next = none := rfl
            simp [admits, gone, child', here, found, ends]
      · have kinds : (tree'.child? name).map entry = (tree.child? name).map entry := by
          rw [child, child']
          exact adds.same _ here
        cases now : tree.child? name with
        | none =>
            have now' : tree'.child? name = none := by simpa [now] using kinds
            simp [admits, now, now']
        | some inner =>
            rw [now] at kinds
            obtain ⟨inner', now', kind⟩ := Option.map_eq_some_iff.mp kinds
            have directory : inner'.isDirectory = inner.isDirectory := by
              rw [Bool.eq_iff_iff, isDirectory_iff, isDirectory_iff, kind]
            simp only [admits, now, now', adds.isIgnored_eq of, of, layer, directory]
            rw [ih (child.symm.trans now) (child'.symm.trans now') (by simpa using different)]

theorem visits_perm (search : Search) (of : search.fs = fs) (layers : List IgnoreLayer) (visit : Visit)
    {above : List String} {tree tree' : FileTree} (old : fs.root.get? above = some tree)
    (new : other.root.get? above = some tree') :
    (({ search with fs := other } : Search).visits layers visit tree').Perm (search.visits layers visit tree) ∨
      ∃ names, above ++ names = place ∧ (({ search with fs := other } : Search).visits layers visit tree').Perm
        (visit.descend names :: search.visits layers visit tree) := by
  rw [visits_eq _ _ _ tree' (isProper_of_get? adds.properOther new).2,
    visits_eq _ _ _ tree (isProper_of_get? adds.proper old).2]
  have kept : tree.files.filter (({ search with fs := other } : Search).admits layers visit tree') =
      tree.files.filter (search.admits layers visit tree) :=
    List.filter_congr fun names member => adds.admits_eq of old new (adds.ne_of_mem_files old member)
  rcases adds.files_perm old new with same | ⟨names, here, more⟩
  · left
    rw [← kept]
    exact (same.filter _).map _
  · have perm := (more.filter (({ search with fs := other } : Search).admits layers visit tree')).map visit.descend
    rw [List.filter_cons] at perm
    split_ifs at perm
    · exact .inr ⟨names, here, by rwa [kept, List.map_cons] at perm⟩
    · exact .inl (by rwa [kept] at perm)

/-! ## The documents that are found -/

theorem isFileName_of_mem {name : String} (member : name ∈ place) : IsFileName name := by
  obtain ⟨file, found, -⟩ := exists_get?_of_entryAt? adds.present
  exact (isProper_of_get? adds.properOther found).1 name member

theorem exists_find {path : Path} {here : List String} {tree : FileTree} (found : fs.find path = .ok (here, tree)) :
    ∃ tree', other.find path = .ok (here, tree') ∧ other.root.get? here = some tree' ∧
      tree'.isDirectory = tree.isDirectory := by
  obtain ⟨located, old⟩ := exists_locate_of_find fs found
  have different : here ≠ place := by
    rintro rfl
    simpa [entryAt?, old] using adds.absent
  have kinds := adds.same here different
  rw [entryAt?, entryAt?, old] at kinds
  obtain ⟨tree', new, kind⟩ := Option.map_eq_some_iff.mp kinds
  refine ⟨tree', ?_, new, by rw [Bool.eq_iff_iff, isDirectory_iff, isDirectory_iff, kind]⟩
  simp [find, (adds.locate_eq_ok_iff path here).mpr located, new]

theorem layersAbove_eq (respected : Bool) (here : List String) :
    other.layersAbove respected here = fs.layersAbove respected here := by
  simp only [layersAbove, adds.ofDirectory_eq]

theorem search_eq (request : SearchRequest) (here : List String) (isDirectory : Bool) :
    request.search other here isDirectory = { request.search fs here isDirectory with fs := other } := by
  rw [SearchRequest.search, SearchRequest.search, adds.layersAbove_eq]

theorem exists_visited {request : SearchRequest} {visits : List Visit} (searched : request.visited fs = .ok visits) :
    ∃ visits', request.visited other = .ok visits' ∧
      (visits'.Perm visits ∨ ∃ extra : Visit, other.locate extra.path = .ok place ∧ visits'.Perm (extra :: visits)) ∧
      (∀ visit ∈ visits, ∃ here, here ≠ place ∧ fs.locate visit.path = .ok here) ∧
      ∀ a ∈ visits, ∀ b ∈ visits, a.path.components = b.path.components → a = b := by
  rcases SearchRequest.visited_eq_ok_iff.mp searched with ⟨input, rfl⟩ | ⟨input, above, tree, found, sound, rfl⟩
  · exact ⟨[], SearchRequest.visited_eq_ok_iff.mpr (.inl ⟨input, rfl⟩), .inl (.refl _), by simp, by simp⟩
  obtain ⟨tree', found', new, kind⟩ := adds.exists_find found
  obtain ⟨located, old⟩ := exists_locate_of_find fs found
  have proper := (isProper_of_get? adds.proper old).2
  have given : request.root ≠ "" := ne_empty_of_locate fs located
  refine ⟨_, SearchRequest.visited_eq_ok_iff.mpr (.inr ⟨input, above, tree', found', ?_, rfl⟩), ?_, ?_, ?_⟩
  · rw [kind, adds.search_eq]
    exact sound
  · rw [kind, adds.search_eq]
    have perm := adds.visits_perm (request.search fs above tree.isDirectory) rfl [] ⟨request.root, ""⟩ old new
    rcases perm with perm | ⟨names, ends, perm⟩
    · exact .inl perm
    · have valid : ∀ name ∈ names, IsFileName name := fun name member =>
        adds.isFileName_of_mem (ends ▸ List.mem_append_right above member)
      have located' := (adds.locate_eq_ok_iff request.root above).mpr located
      refine .inr ⟨_, ?_, perm⟩
      rw [← ends]
      exact Visit.locate_descend valid located' (by rw [ends, adds.present]; rfl)
  · intro visit member
    obtain ⟨names, inside, valid, rfl⟩ := exists_of_mem_visits proper member
    obtain ⟨content, present⟩ := (mem_files tree proper names).mp inside
    rw [← entryAt?_append old] at present
    exact ⟨above ++ names, adds.ne_of_mem_files old inside,
      Visit.locate_descend valid located (Option.isSome_of_eq_some present)⟩
  · exact fun a here b there => eq_of_components_eq proper given here there

theorem exists_discover {request : SearchRequest} {found : List Path} (searched : request.discover fs = .ok found) :
    ∃ grown, request.discover other = .ok grown ∧
      (grown = found ∨ ∃ front path back,
        found = front ++ back ∧ grown = front ++ path :: back ∧ other.locate path = .ok place) ∧
      ∀ path ∈ found, ∃ here, here ≠ place ∧ fs.locate path = .ok here := by
  obtain ⟨exclusions, visits, patterns, walked, rfl⟩ := SearchRequest.discover_eq_ok_iff.mp searched
  obtain ⟨visits', walked', perm, placed, distinct⟩ := adds.exists_visited walked
  refine ⟨_, SearchRequest.discover_eq_ok_iff.mpr ⟨exclusions, visits', patterns, walked', rfl⟩, ?_, ?_⟩
  · rcases perm with perm | ⟨extra, located, perm⟩
    · exact .inl (SearchRequest.documents_of_kept_perm distinct ((perm.filter _).map _))
    · rcases SearchRequest.documents_of_perm_cons distinct perm with same | ⟨front, back, split, grown⟩
      · exact .inl same
      · exact .inr ⟨front, extra.path, back, split, grown, located⟩
  · intro path member
    obtain ⟨visit, inside, rfl⟩ := SearchRequest.exists_of_mem_documents member
    exact placed visit inside

end FileSystem.AddsDocument
end MockAudit
