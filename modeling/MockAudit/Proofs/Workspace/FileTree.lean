import MockAudit.Proofs.Workspace.Path
import MockAudit.Workspace.FileTree

namespace MockAudit

open MockAudit.Path

inductive Entry where
  | file (text : Option String)
  | directory
deriving DecidableEq

namespace FileTree

def entry : FileTree → Entry
  | .file text => .file text
  | .directory _ => .directory

def entryAt? (tree : FileTree) (place : List String) : Option Entry := (tree.get? place).map entry

def hasFileAt (tree : FileTree) (place : List String) : Bool :=
  match tree.entryAt? place with
  | some (.file _) => true
  | _ => false

theorem isDirectory_iff (tree : FileTree) : tree.isDirectory = true ↔ tree.entry = .directory := by
  cases tree <;> simp [isDirectory, entry]

theorem get?_append (tree : FileTree) (front back : List String) :
    tree.get? (front ++ back) = (tree.get? front).bind (·.get? back) := by
  induction front generalizing tree with
  | nil => rfl
  | cons name rest ih =>
      simp only [List.cons_append, get?, Option.bind_assoc]
      exact congrArg _ (funext ih)

theorem entryAt?_append {tree below : FileTree} {front : List String} (found : tree.get? front = some below)
    (back : List String) : tree.entryAt? (front ++ back) = below.entryAt? back := by
  simp [entryAt?, get?_append, found]

theorem exists_get?_of_entryAt? {tree : FileTree} {place : List String} {entry : Entry}
    (found : tree.entryAt? place = some entry) : ∃ below, tree.get? place = some below ∧ below.entry = entry :=
  Option.map_eq_some_iff.mp found

theorem entryAt?_of_below {tree : FileTree} {front back : List String} (below : back ≠ [])
    (found : (tree.entryAt? (front ++ back)).isSome) : tree.entryAt? front = some .directory := by
  obtain ⟨name, rest, rfl⟩ := List.exists_cons_of_ne_nil below
  simp only [entryAt?, get?_append, Option.isSome_map] at found ⊢
  cases here : tree.get? front with
  | none => simp [here] at found
  | some inner =>
      cases inner with
      | file text => simp [here, get?, child?, entries] at found
      | directory entries => rfl

theorem isSome_entryAt?_of_below {tree : FileTree} {front : List String} (back : List String)
    (found : (tree.entryAt? (front ++ back)).isSome) : (tree.entryAt? front).isSome := by
  by_cases below : back = []
  · simpa [below] using found
  · simp [entryAt?_of_below below found]

theorem exists_of_hasFileAt {tree : FileTree} {place : List String} (found : tree.hasFileAt place = true) :
    ∃ text, tree.entryAt? place = some (.file text) := by
  unfold hasFileAt at found
  split at found
  next text here => exact ⟨text, here⟩
  next => contradiction

theorem get?_singleton (tree : FileTree) (name : String) : tree.get? [name] = tree.child? name := by
  simp [get?]

theorem bind_text?_getD (tree : FileTree) (front : List String) {back : List String} (below : back ≠ []) :
    (((tree.get? front).getD .empty).get? back).bind text? = match tree.entryAt? (front ++ back) with
      | some (.file text) => text
      | _ => none := by
  obtain ⟨name, rest, rfl⟩ := List.exists_cons_of_ne_nil below
  rw [entryAt?, get?_append]
  cases tree.get? front with
  | none => rfl
  | some inner =>
      simp only [Option.getD_some, Option.bind_some]
      cases inner.get? (name :: rest) with
      | none => rfl
      | some found => cases found <;> rfl

mutual

def isProper : FileTree → Bool
  | .file _ => true
  | .directory entries => areProper entries

def areProper : List (String × FileTree) → Bool
  | [] => true
  | (name, tree) :: rest =>
      decide (IsFileName name) && decide (name ∉ rest.map (·.1)) && tree.isProper && areProper rest

end

end FileTree

namespace FileSystem

open FileTree

/-! ## Following segments -/

section Follow
variable (root : FileTree) (place : List String)

theorem step_of_isIdle {segment : String} (idle : isIdle segment = true) : step place segment = place := by
  have same : segment = "" ∨ segment = "." := by simpa [isIdle] using idle
  simp [step, same]

theorem step_of_isFileName {name : String} (valid : IsFileName name) : step place name = place ++ [name] := by
  simp [step, valid.1, valid.2.1, valid.2.2.1]

theorem follow_cons (segment : String) (rest : List String) :
    follow root place (segment :: rest) = match root.entryAt? place with
      | none => .error .notFound
      | some (.file _) => .error .notDirectory
      | some .directory => follow root (step place segment) rest := by
  rw [follow, entryAt?]
  cases root.get? place with
  | none => rfl
  | some tree => cases tree <;> rfl

theorem toOption_follow_cons (segment : String) (rest : List String) :
    (follow root place (segment :: rest)).toOption =
      if root.entryAt? place = some .directory then (follow root (step place segment) rest).toOption else none := by
  rw [follow_cons]
  split
  next here => simp [here, Except.toOption]
  next here => simp [here, Except.toOption]
  next here => rw [if_pos here]

theorem follow_ne_isDirectory (segments : List String) : follow root place segments ≠ .error .isDirectory := by
  induction segments generalizing place with
  | nil => simp [follow]
  | cons segment rest ih =>
      rw [follow_cons]
      split
      · simp
      · simp
      · exact ih _

theorem follow_append (front back : List String) :
    follow root place (front ++ back) = (follow root place front).bind fun next => follow root next back := by
  induction front generalizing place with
  | nil => rfl
  | cons segment rest ih =>
      rw [List.cons_append, follow_cons, follow_cons]
      rcases root.entryAt? place with _ | _ | _
      · rfl
      · rfl
      · exact ih _

theorem follow_idle_cons {segment next : String} (idle : isIdle segment = true) (rest : List String) :
    follow root place (segment :: next :: rest) = follow root place (next :: rest) := by
  rw [follow_cons, step_of_isIdle place idle]
  split
  next here => rw [follow_cons, here]
  next here => rw [follow_cons, here]
  next => rfl

theorem follow_filter_concat (segments : List String) (last : String) :
    follow root place (segments.filter (!isIdle ·) ++ [last]) = follow root place (segments ++ [last]) := by
  induction segments generalizing place with
  | nil => rfl
  | cons segment rest ih =>
      cases idle : isIdle segment with
      | true =>
          obtain ⟨next, more, split⟩ : ∃ next more, rest ++ [last] = next :: more :=
            List.exists_cons_of_ne_nil (by simp)
          rw [List.filter_cons_of_neg (by simp [idle]), ih, List.cons_append, split, follow_idle_cons root place idle]
      | false =>
          rw [List.filter_cons_of_pos (by simp [idle]), List.cons_append, List.cons_append, follow_cons, follow_cons,
            ih]

theorem follow_filter {segments place' : List String} (found : follow root place segments = .ok place') :
    follow root place (segments.filter (!isIdle ·)) = .ok place' := by
  induction segments generalizing place with
  | nil => exact found
  | cons segment rest ih =>
      rw [follow_cons] at found
      split at found
      next => contradiction
      next => contradiction
      next here =>
        cases idle : isIdle segment with
        | true =>
            rw [step_of_isIdle place idle] at found
            rw [List.filter_cons_of_neg (by simp [idle]), ih place found]
        | false => rw [List.filter_cons_of_pos (by simp [idle]), follow_cons, here]; exact ih _ found

theorem follow_of_isFileName {names : List String} (valid : ∀ name ∈ names, IsFileName name)
    (present : (root.entryAt? (place ++ names)).isSome) : follow root place names = .ok (place ++ names) := by
  induction names generalizing place with
  | nil => simp [follow]
  | cons name rest ih =>
      have here : root.entryAt? place = some .directory := entryAt?_of_below (List.cons_ne_nil name rest) present
      have moved : place ++ name :: rest = place ++ [name] ++ rest := by simp
      rw [follow_cons, here, step_of_isFileName place (valid name (by simp)), moved]
      exact ih _ (fun other member => valid other (by simp [member])) (moved ▸ present)

theorem eq_append_of_follow {names place' : List String} (valid : ∀ name ∈ names, IsFileName name)
    (found : follow root place names = .ok place') : place' = place ++ names := by
  induction names generalizing place with
  | nil => simpa [follow] using found.symm
  | cons name rest ih =>
      rw [follow_cons, step_of_isFileName place (valid name (by simp))] at found
      split at found
      · contradiction
      · contradiction
      · simpa using ih _ (fun other member => valid other (by simp [member])) found

end Follow

/-! ## Locating paths -/

section Locate
variable (fs : FileSystem)

def start (path : Path) : List String := if path.isAbsolute then [] else fs.current

theorem locate_empty : fs.locate "" = .error .notFound := by
  simp [locate]

theorem locate_of_ne_empty {path : Path} (given : path ≠ "") :
    fs.locate path = follow fs.root (fs.start path) path.segments := by
  simp [locate, given, start]

theorem ne_empty_of_locate {path : Path} {place : List String} (found : fs.locate path = .ok place) : path ≠ "" := by
  rintro rfl
  simp [locate_empty] at found

variable {base : Path} {name : String}

theorem start_join {path : Path} (relative : path.isAbsolute = false) : fs.start (base.join path) = fs.start base := by
  rw [start, start, isAbsolute_join relative]

theorem locate_join (valid : IsFileName name) :
    fs.locate (base.join name) = follow fs.root (fs.start base) (base.steps ++ [name]) := by
  obtain ⟨front, joined⟩ := segments_suffix_join base name
  have steps := steps_join base valid.isAbsolute_eq_false
  have before : front.filter (!isIdle ·) = base.steps := by
    rw [Path.steps, ← joined, List.filter_append] at steps
    exact List.append_cancel_right steps
  have given : base.join name ≠ "" := join_ne_empty valid.1
  rw [locate_of_ne_empty fs given, fs.start_join valid.isAbsolute_eq_false, ← joined, valid.segments_eq, ← before,
    follow_filter_concat]

theorem follow_steps_of_locate {path : Path} {place : List String} (found : fs.locate path = .ok place) :
    follow fs.root (fs.start path) path.steps = .ok place := by
  rw [locate_of_ne_empty fs (ne_empty_of_locate fs found)] at found
  exact follow_filter _ _ found

theorem locate_join_of_follow {place : List String} (valid : IsFileName name)
    (way : follow fs.root (fs.start base) base.steps = .ok place) (here : fs.root.entryAt? place = some .directory) :
    fs.locate (base.join name) = .ok (place ++ [name]) := by
  rw [locate_join fs valid, follow_append, way]
  simp only [Except.bind]
  rw [follow_cons, here, step_of_isFileName place valid, follow]

theorem locate_join_of_directory {place : List String} (valid : IsFileName name) (found : fs.locate base = .ok place)
    (here : fs.root.entryAt? place = some .directory) : fs.locate (base.join name) = .ok (place ++ [name]) :=
  locate_join_of_follow fs valid (follow_steps_of_locate fs found) here

theorem exists_of_locate {path : Path} {place : List String} (valid : IsFileName name)
    (ends : [name] <:+ path.segments) (found : fs.locate path = .ok place) : ∃ above, place = above ++ [name] := by
  obtain ⟨front, ends⟩ := ends
  rw [locate_of_ne_empty fs (ne_empty_of_locate fs found), ← ends, follow_append] at found
  cases way : follow fs.root (fs.start path) front with
  | error cause => rw [way] at found; contradiction
  | ok above =>
      simp only [way, Except.bind, follow, step_of_isFileName above valid] at found
      split at found
      · contradiction
      · contradiction
      · exact ⟨above, (Except.ok.inj found).symm⟩

theorem locate_ne_isDirectory (path : Path) : fs.locate path ≠ .error .isDirectory := by
  by_cases empty : path = ""
  · simp [empty, locate_empty]
  · rw [locate_of_ne_empty fs empty]
    exact follow_ne_isDirectory _ _ _

/-! ## Using paths -/

def readEntry : Option Entry → Except FileError String
  | none => .error .notFound
  | some .directory => .error .isDirectory
  | some (.file none) => .error .notText
  | some (.file (some text)) => .ok text

theorem read_eq (path : Path) :
    fs.read path = (fs.locate path).bind fun place => readEntry (fs.root.entryAt? place) := by
  unfold read find
  cases fs.locate path with
  | error cause => rfl
  | ok place =>
      simp only [Except.bind, entryAt?]
      cases fs.root.get? place with
      | none => rfl
      | some tree => rcases tree with (_ | text) | _ <;> rfl

theorem isPresent_eq (path : Path) :
    fs.isPresent path = (fs.locate path).toOption.any fun place => (fs.root.entryAt? place).isSome := by
  unfold isPresent find
  cases fs.locate path with
  | error cause => rfl
  | ok place =>
      simp only [Except.toOption, Option.any, entryAt?]
      cases fs.root.get? place <;> rfl

theorem hasFile_eq (path : Path) : fs.hasFile path = (fs.locate path).toOption.any fs.root.hasFileAt := by
  unfold hasFile find
  cases fs.locate path with
  | error cause => rfl
  | ok place =>
      simp only [Except.toOption, Option.any, hasFileAt, entryAt?]
      cases fs.root.get? place with
      | none => rfl
      | some tree => cases tree <;> rfl

theorem locate_join_of_hasFileAt {place : List String} (valid : IsFileName name)
    (way : follow fs.root (fs.start base) base.steps = .ok place) (file : fs.root.hasFileAt (place ++ [name]) = true) :
    fs.locate (base.join name) = .ok (place ++ [name]) := by
  obtain ⟨text, here⟩ := exists_of_hasFileAt file
  exact locate_join_of_follow fs valid way
    (entryAt?_of_below (List.cons_ne_nil name []) (Option.isSome_of_eq_some here))

theorem hasFile_join (base : Path) (valid : IsFileName name) :
    fs.hasFile (base.join name) = (follow fs.root (fs.start base) base.steps).toOption.any fun place =>
      fs.root.hasFileAt (place ++ [name]) := by
  cases way : follow fs.root (fs.start base) base.steps with
  | error cause => rw [hasFile_eq, locate_join fs valid, follow_append, way]; rfl
  | ok place =>
      cases file : fs.root.hasFileAt (place ++ [name]) with
      | true => simp [hasFile_eq, locate_join_of_hasFileAt fs valid way file, Except.toOption, file]
      | false =>
          rw [hasFile_eq, locate_join fs valid, follow_append, way]
          simp only [Except.bind, follow, step_of_isFileName place valid]
          split <;> simp [Except.toOption, file]

theorem exists_locate_of_find {path : Path} {place : List String} {tree : FileTree}
    (found : fs.find path = .ok (place, tree)) : fs.locate path = .ok place ∧ fs.root.get? place = some tree := by
  unfold find at found
  split at found
  · contradiction
  · split at found
    · contradiction
    · simp_all

end Locate

end FileSystem
end MockAudit
