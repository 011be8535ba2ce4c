import MockAudit.Proofs.Workspace.FileTree
import MockAudit.Workspace.SettingsSource

/-!
# The directories that configuration files are looked for in

The parents of a path as it is written lead to the places where one comes by on the way along the path, its trail. They
are the directories at or above the one that is checked only when the path goes straight down from the top.
-/

namespace MockAudit

open MockAudit.Path FileTree

namespace FileSystem

/-- The places where a path comes by as far as it can be followed, last first. -/
def trail (fs : FileSystem) (path : Path) : List (List String) :=
  path.steps.inits.reverse.filterMap fun steps => (follow fs.root (fs.start path) steps).toOption

def configuration? (fs : FileSystem) (directory : List String) : Option (List String) :=
  (SettingsSource.projectNames.map (directory ++ [·])).find? fs.root.hasFileAt

def upward (place : List String) : List (List String) := place.inits.reverse

theorem filter_inits_append (front back : List String) :
    (front ++ back).inits.filter (front <+: ·) = back.inits.map (front ++ ·) := by
  induction front with
  | nil => simp
  | cons name rest ih =>
      have below : (fun list => decide (name :: rest <+: list)) ∘ (name :: ·) = fun list => decide (rest <+: list) := by
        funext list
        simp
      simp only [List.cons_append, List.inits_cons, List.filter_cons, List.filter_map, below, ih]
      simp

theorem isFileName_of_mem_steps {path : Path} {step : String} (member : step ∈ path.steps) (down : step ≠ "..") :
    IsFileName step := by
  obtain ⟨inside, busy⟩ := List.mem_filter.mp member
  obtain ⟨given, moved⟩ : step ≠ "" ∧ step ≠ "." := by simpa [isIdle] using busy
  exact ⟨given, moved, down, slash_not_mem_of_mem_segments inside⟩

theorem eq_append_of_locate (fs : FileSystem) {path : Path} {place : List String} (down : ".." ∉ path.steps)
    (found : fs.locate path = .ok place) : place = fs.start path ++ path.steps := by
  refine eq_append_of_follow fs.root _ (fun step member => ?_) (follow_steps_of_locate fs found)
  exact isFileName_of_mem_steps member fun up => down (up ▸ member)

theorem trail_eq (fs : FileSystem) {path : Path} {place : List String} (down : ".." ∉ path.steps)
    (found : fs.locate path = .ok place) (present : (fs.root.entryAt? place).isSome) :
    fs.trail path = (upward place).filter (fs.start path <+: ·) := by
  obtain rfl := fs.eq_append_of_locate down found
  have reached : ∀ steps ∈ path.steps.inits.reverse,
      (follow fs.root (fs.start path) steps).toOption = some (fs.start path ++ steps) := by
    intro steps member
    obtain ⟨rest, split⟩ := (List.mem_inits _ _).mp (List.mem_reverse.mp member)
    have here : (fs.root.entryAt? (fs.start path ++ steps)).isSome :=
      isSome_entryAt?_of_below rest (by rwa [List.append_assoc, split])
    have valid : ∀ step ∈ steps, IsFileName step := by
      intro step inside
      have member : step ∈ path.steps := split ▸ List.mem_append_left rest inside
      exact isFileName_of_mem_steps member fun up => down (up ▸ member)
    rw [follow_of_isFileName fs.root _ valid here]
    rfl
  rw [trail, List.filterMap_congr reached, List.filterMap_eq_map', List.map_reverse, upward, List.filter_reverse,
    filter_inits_append]

end FileSystem

namespace SettingsSource

open FileSystem

variable (fs : FileSystem)

theorem map_locate_inDirectory? (directory : Path) :
    (inDirectory? fs directory).map fs.locate =
      ((follow fs.root (fs.start directory) directory.steps).toOption.bind fs.configuration?).map .ok := by
  unfold inDirectory? configuration?
  have valid : ∀ name ∈ projectNames, IsFileName name := by decide
  generalize projectNames = names at valid
  induction names with
  | nil => cases follow fs.root (fs.start directory) directory.steps <;> rfl
  | cons name rest ih =>
      have later := ih fun other member => valid other (by simp [member])
      have here := hasFile_join fs directory (valid name (by simp))
      cases way : follow fs.root (fs.start directory) directory.steps with
      | error cause =>
          rw [way] at here later
          rw [List.map_cons, List.find?_cons_of_neg (by simp [here, Except.toOption])]
          exact later
      | ok place =>
          rw [way] at here later
          have same : fs.hasFile (directory.join name) = fs.root.hasFileAt (place ++ [name]) := here
          cases file : fs.root.hasFileAt (place ++ [name]) with
          | true =>
              have located := locate_join_of_hasFileAt fs (valid name (by simp)) way file
              simp [Except.toOption, same, file, located]
          | false => simpa [Except.toOption, same, file] using later

theorem map_locate_ofProject? (path : Path) :
    (ofProject? fs path).map fs.locate = ((fs.trail path).findSome? fs.configuration?).map .ok := by
  have nested := List.filterMap_filterMap (f := fun steps => (follow fs.root (fs.start path) steps).toOption)
    (g := fs.configuration?) (l := path.steps.inits.reverse)
  rw [ofProject?, List.map_findSome?, trail, ← List.head?_filterMap (f := fs.configuration?), nested,
    List.head?_filterMap, List.map_findSome?]
  refine findSome?_ancestors fun other same => ?_
  rw [Function.comp_apply, map_locate_inDirectory?, start, same]
  rfl

/-- Is this the source of settings that is asked for, if one is; else the configuration file in the first of the
given directories that has one; else the user's configuration file; else the default? -/
def IsFrom (userDirectory asked : Option Path) (directories : List (List String)) : SettingsSource → Prop
  | .explicit path => asked = some path
  | .project path =>
      asked = none ∧ ∃ file ∈ directories.findSome? fs.configuration?, fs.locate path = .ok file
  | .user path =>
      asked = none ∧ directories.findSome? fs.configuration? = none ∧
        ∃ directory ∈ userDirectory, path = directory.join userName ∧ fs.isPresent path = true
  | .default =>
      asked = none ∧ directories.findSome? fs.configuration? = none ∧
        ∀ directory ∈ userDirectory, fs.isPresent (directory.join userName) = false

theorem isFrom_congr {userDirectory asked : Option Path} {directories others : List (List String)}
    (same : directories.findSome? fs.configuration? = others.findSome? fs.configuration?) (source : SettingsSource) :
    IsFrom fs userDirectory asked directories source ↔ IsFrom fs userDirectory asked others source := by
  cases source <;> simp only [IsFrom, same]

theorem isFrom_trail (userDirectory : Option Path) (path : Path) (asked : Option Path) :
    IsFrom fs userDirectory asked (fs.trail path) (resolve fs userDirectory path asked) := by
  have project := map_locate_ofProject? fs path
  unfold resolve
  split
  next => rfl
  next file found =>
    rw [found, Option.map_some] at project
    obtain ⟨place, here, located⟩ := Option.map_eq_some_iff.mp project.symm
    exact ⟨rfl, place, here, located.symm⟩
  next file missing found =>
    rw [missing, Option.map_none, eq_comm, Option.map_eq_none_iff] at project
    obtain ⟨mapped, present⟩ := Option.filter_eq_some_iff.mp found
    obtain ⟨directory, given, rfl⟩ := Option.map_eq_some_iff.mp mapped
    exact ⟨rfl, project, directory, given, rfl, present⟩
  next missing absent =>
    rw [missing, Option.map_none, eq_comm, Option.map_eq_none_iff] at project
    refine ⟨rfl, project, fun directory given => ?_⟩
    have filtered := Option.filter_eq_none_iff.mp absent (directory.join userName)
      (Option.map_eq_some_iff.mpr ⟨directory, given, rfl⟩)
    simpa using filtered

theorem findSome?_filter {directories : List (List String)} {keep : List String → Bool}
    (nothing : ∀ directory ∈ directories, keep directory = false → fs.configuration? directory = none) :
    (directories.filter keep).findSome? fs.configuration? = directories.findSome? fs.configuration? := by
  rw [← List.head?_filterMap (f := fs.configuration?), List.filterMap_filter, ← List.head?_filterMap]
  congr 1
  refine List.filterMap_congr fun directory member => ?_
  cases kept : keep directory with
  | true => rfl
  | false => simp [nothing directory member kept]

/-- The settings come from the nearest place on the trail of a path that has a configuration file. That is the nearest
directory at or above the checked one if the path never goes up and starts where no configuration file lies above. -/
theorem resolve_follows_trail (userDirectory : Option Path) (path : Path) (asked : Option Path) :
    IsFrom fs userDirectory asked (fs.trail path) (resolve fs userDirectory path asked) ∧
      ∀ place, fs.locate path = .ok place → fs.root.entryAt? place = some .directory → ".." ∉ path.steps →
        (∀ above, above <+: fs.start path → above ≠ fs.start path → fs.configuration? above = none) →
          IsFrom fs userDirectory asked (upward place) (resolve fs userDirectory path asked) := by
  refine ⟨isFrom_trail fs userDirectory path asked, fun place found here down clear => ?_⟩
  have trail := fs.trail_eq down found (Option.isSome_of_eq_some here)
  refine (isFrom_congr fs ?_ _).mp (isFrom_trail fs userDirectory path asked)
  rw [trail]
  refine findSome?_filter fs fun directory member outside => ?_
  have above : directory <+: place := (List.mem_inits _ _).mp (List.mem_reverse.mp member)
  have starts : fs.start path <+: place := ⟨path.steps, (fs.eq_append_of_locate down found).symm⟩
  have outside : ¬ fs.start path <+: directory := by simpa using outside
  rcases List.prefix_or_prefix_of_prefix above starts with below | inside
  · exact clear directory below fun same => outside (same ▸ List.prefix_rfl)
  · exact absurd inside outside

def nested (current : List String) : FileSystem :=
  { root := .directory [("w", .directory
      [("mocklint.toml", .file (some "")),
        ("a", .directory [("b", .directory [("mocklint.toml", .file (some "enabled = false\n"))])])])]
    current }

theorem resolve_follows_trail_nested :
    IsFrom (nested []) none none (upward ["w", "a"]) (resolve (nested []) none "/w/./a/" none) := by
  refine (resolve_follows_trail (nested []) none "/w/./a/" none).2 ["w", "a"] ?_ ?_ ?_ ?_
  · decide +kernel
  · decide +kernel
  · decide +kernel
  · intro above below different
    have top : (nested []).start "/w/./a/" = [] := by decide +kernel
    rw [top] at below different
    exact absurd (List.prefix_nil.mp below) different

/-- On the way to the directory `a` the path `a/b/..` passes another one, and the path `.` starts in it: neither
finds the configuration file above `a`. -/
theorem resolve_misses_nearest :
    ((nested ["w"]).locate "a/b/.." = .ok ["w", "a"] ∧
      ¬ IsFrom (nested ["w"]) none none (upward ["w", "a"]) (resolve (nested ["w"]) none "a/b/.." none)) ∧
    ((nested ["w", "a"]).locate "." = .ok ["w", "a"] ∧
      ¬ IsFrom (nested ["w", "a"]) none none (upward ["w", "a"]) (resolve (nested ["w", "a"]) none "." none)) := by
  have nearest (current : List String) :
      (upward ["w", "a"]).findSome? (nested current).configuration? = some ["w", "mocklint.toml"] := by
    rw [show (nested current).configuration? = (nested []).configuration? from rfl]
    decide +kernel
  have detour : resolve (nested ["w"]) none "a/b/.." none = .project "a/b/mocklint.toml" := by decide +kernel
  have located : (nested ["w"]).locate "a/b/mocklint.toml" = .ok ["w", "a", "b", "mocklint.toml"] := by decide +kernel
  have nothing : resolve (nested ["w", "a"]) none "." none = .default := by decide +kernel
  refine ⟨⟨by decide +kernel, ?_⟩, by decide +kernel, ?_⟩
  · rw [detour, IsFrom, nearest, located]
    simp
  · rw [nothing, IsFrom, nearest]
    simp

end SettingsSource
end MockAudit
