import MockAudit.Proofs.Workspace.FileTree
import MockAudit.Workspace.Discovery
import MockAudit.Workspace.SettingsSource

namespace MockAudit

open MockAudit.Path FileTree

namespace FileSystem

def IsUnitName (name : String) : Prop := unitEnding.toList <:+ name.toList

instance : DecidablePred IsUnitName := fun _ => inferInstanceAs (Decidable (_ <:+ _))

/-- The second file system has a unit document at a place where the first one has nothing; else they have the same
files and directories. So the document is in a directory that both have: one made for it would be another difference. -/
structure AddsDocument (fs other : FileSystem) (place : List String) (text : Option String) : Prop where
  current : other.current = fs.current
  proper : fs.root.isProper = true
  properOther : other.root.isProper = true
  named : ∃ above name, place = above ++ [name] ∧ IsUnitName name
  absent : fs.root.entryAt? place = none
  present : other.root.entryAt? place = some (.file text)
  same : ∀ elsewhere, elsewhere ≠ place → other.root.entryAt? elsewhere = fs.root.entryAt? elsewhere

namespace AddsDocument

variable {fs other : FileSystem} {place : List String} {text : Option String}
variable (adds : fs.AddsDocument other place text)
include adds

theorem entryAt?_directory (here : List String) :
    other.root.entryAt? here = some .directory ↔ fs.root.entryAt? here = some .directory := by
  by_cases new : here = place
  · simp [new, adds.absent, adds.present]
  · rw [adds.same here new]

theorem toOption_follow (here segments : List String) :
    (follow other.root here segments).toOption = (follow fs.root here segments).toOption := by
  induction segments generalizing here with
  | nil => rfl
  | cons segment rest ih =>
      simp only [toOption_follow_cons, adds.entryAt?_directory here, ih]

theorem toOption_locate (path : Path) : (other.locate path).toOption = (fs.locate path).toOption := by
  by_cases empty : path = ""
  · rw [empty, locate_empty, locate_empty]
  · rw [locate_of_ne_empty other empty, locate_of_ne_empty fs empty, start, start, adds.current]
    exact adds.toOption_follow _ _

theorem locate_eq_ok_iff (path : Path) (here : List String) :
    other.locate path = .ok here ↔ fs.locate path = .ok here := by
  have same := adds.toOption_locate path
  cases old : fs.locate path <;> cases new : other.locate path <;> simp_all [Except.toOption]

theorem concat_ne {name : String} (common : ¬ IsUnitName name) (above : List String) : above ++ [name] ≠ place := by
  rintro rfl
  obtain ⟨front, last, split, unit⟩ := adds.named
  obtain rfl : name = last := by simpa using (List.append_inj' split rfl).2
  exact common unit

theorem locate_ne {name : String} {path : Path} (valid : IsFileName name) (common : ¬ IsUnitName name)
    (ends : [name] <:+ path.segments) : fs.locate path ≠ .ok place := by
  intro found
  obtain ⟨above, split⟩ := exists_of_locate fs valid ends found
  exact adds.concat_ne common above split.symm

theorem locate_join_ne (base : Path) {name : String} (valid : IsFileName name) (common : ¬ IsUnitName name) :
    fs.locate (base.join name) ≠ .ok place := by
  refine adds.locate_ne valid common ?_
  simpa [valid.segments_eq] using segments_suffix_join base name

theorem hasFile_eq {path : Path} (elsewhere : fs.locate path ≠ .ok place) : other.hasFile path = fs.hasFile path := by
  rw [FileSystem.hasFile_eq, FileSystem.hasFile_eq, adds.toOption_locate]
  cases found : fs.locate path with
  | error cause => rfl
  | ok here =>
      have different : here ≠ place := fun same => elsewhere (same ▸ found)
      simp [Except.toOption, hasFileAt, adds.same here different]

theorem isPresent_eq {path : Path} (elsewhere : fs.locate path ≠ .ok place) :
    other.isPresent path = fs.isPresent path := by
  rw [FileSystem.isPresent_eq, FileSystem.isPresent_eq, adds.toOption_locate]
  cases found : fs.locate path with
  | error cause => rfl
  | ok here =>
      have different : here ≠ place := fun same => elsewhere (same ▸ found)
      simp [Except.toOption, adds.same here different]

theorem read_of_locate {path : Path} {here : List String} (found : fs.locate path = .ok here)
    (different : here ≠ place) : other.read path = fs.read path := by
  rw [FileSystem.read_eq, FileSystem.read_eq, found, (adds.locate_eq_ok_iff path here).mpr found]
  simp [Except.bind, adds.same here different]

theorem read_of_ok {path : Path} {content : String} (readable : fs.read path = .ok content) :
    other.read path = .ok content := by
  cases found : fs.locate path with
  | error cause => simp [FileSystem.read_eq, found, Except.bind] at readable
  | ok here =>
      rw [← readable]
      refine adds.read_of_locate found ?_
      rintro rfl
      simp [FileSystem.read_eq, found, Except.bind, adds.absent, readEntry] at readable

theorem read_cases {path : Path} (elsewhere : fs.locate path ≠ .ok place) :
    other.read path = fs.read path ∨
      ∃ cause cause', fs.read path = .error cause ∧ other.read path = .error cause' ∧
        cause ≠ .isDirectory ∧ cause' ≠ .isDirectory := by
  cases found : fs.locate path with
  | ok here => exact .inl (adds.read_of_locate found fun same => elsewhere (same ▸ found))
  | error cause =>
      cases failed : other.locate path with
      | ok here => simp [(adds.locate_eq_ok_iff path here).mp failed] at found
      | error cause' =>
          refine .inr ⟨cause, cause', ?_, ?_, ?_, ?_⟩
          · rw [FileSystem.read_eq, found]; rfl
          · rw [FileSystem.read_eq, failed]; rfl
          · rintro rfl; exact locate_ne_isDirectory fs path found
          · rintro rfl; exact locate_ne_isDirectory other path failed

theorem ofProject?_eq (path : Path) : SettingsSource.ofProject? other path = SettingsSource.ofProject? fs path := by
  unfold SettingsSource.ofProject?
  congr 1
  funext directory
  have valid : ∀ name ∈ SettingsSource.projectNames, IsFileName name ∧ ¬ IsUnitName name := by decide
  unfold SettingsSource.inDirectory?
  generalize SettingsSource.projectNames = names at valid
  induction names with
  | nil => rfl
  | cons name rest ih =>
      obtain ⟨fits, common⟩ := valid name (by simp)
      have elsewhere := adds.locate_join_ne directory fits common
      rw [List.map_cons, List.find?_cons, List.find?_cons, adds.hasFile_eq elsewhere,
        ih fun later member => valid later (by simp [member])]

theorem resolve_eq (userDirectory : Option Path) (path : Path) (asked : Option Path) :
    SettingsSource.resolve other userDirectory path asked = SettingsSource.resolve fs userDirectory path asked := by
  have user : SettingsSource.ofUser? other userDirectory = SettingsSource.ofUser? fs userDirectory := by
    cases userDirectory with
    | none => rfl
    | some directory =>
        have elsewhere := adds.locate_join_ne directory (show IsFileName SettingsSource.userName by decide) (by decide)
        simp [SettingsSource.ofUser?, Option.filter, adds.isPresent_eq elsewhere]
  unfold SettingsSource.resolve
  rw [adds.ofProject?_eq, user]

theorem load?_eq {source : SettingsSource} {settings : Settings} (loaded : source.load? fs = some settings) :
    source.load? other = some settings := by
  unfold SettingsSource.load? at loaded ⊢
  cases given : source.path? with
  | none => simpa [given] using loaded
  | some path =>
      rw [given] at loaded
      obtain ⟨text, readable, decoded⟩ := Option.bind_eq_some_iff.mp loaded
      have found : fs.read path = .ok text := by
        cases read : fs.read path <;> simp_all [Except.toOption]
      simpa [adds.read_of_ok found, Except.toOption] using decoded

theorem rulesOf_eq (above : List String) (front : List String) {name : String} (common : ¬ IsUnitName name) :
    IgnoreLayer.rulesOf ((other.root.get? above).getD .empty) (front ++ [name]) =
      IgnoreLayer.rulesOf ((fs.root.get? above).getD .empty) (front ++ [name]) := by
  have different : above ++ (front ++ [name]) ≠ place := by
    rw [← List.append_assoc]
    exact adds.concat_ne common (above ++ front)
  have same := adds.same _ different
  rw [IgnoreLayer.rulesOf, IgnoreLayer.rulesOf, bind_text?_getD, bind_text?_getD, same]
  · simp
  · simp

theorem linkedExclusions_eq (link : String) :
    IgnoreLayer.linkedExclusions other link = IgnoreLayer.linkedExclusions fs link := by
  have exclude (repository : Path) : fs.locate (repository.join "info/exclude") ≠ .ok place := by
    have named : ["exclude"] <:+ segments "info/exclude" := by decide
    exact adds.locate_ne (show IsFileName "exclude" by decide) (by decide)
      (named.trans (segments_suffix_join repository "info/exclude"))
  unfold IgnoreLayer.linkedExclusions
  cases IgnoreLayer.firstLine? link with
  | none => rfl
  | some line =>
      have elsewhere := adds.locate_join_ne (dropStart IgnoreLayer.linkWord line)
        (show IsFileName "commondir" by decide) (by decide)
      dsimp only
      split_ifs
      · rfl
      rcases adds.read_cases elsewhere with same | ⟨cause, cause', old, new, reason, reason'⟩
      · rw [same]
        split
        · rfl
        · rfl
        · split
          · rfl
          · rcases adds.read_cases (exclude _) with same | ⟨_, _, old, new, -, -⟩
            · rw [same]
            · rw [old, new]
      · rw [old, new]
        cases cause <;> cases cause' <;> simp_all

theorem exclusionsOf_eq (above : List String) :
    IgnoreLayer.exclusionsOf other ((other.root.get? above).getD .empty) =
      IgnoreLayer.exclusionsOf fs ((fs.root.get? above).getD .empty) := by
  have same := adds.same _ (adds.concat_ne (show ¬ IsUnitName ".git" by decide) above)
  have rules := adds.rulesOf_eq above [".git", "info"] (show ¬ IsUnitName "exclude" by decide)
  have single : [".git"] ≠ [] := List.cons_ne_nil _ _
  unfold IgnoreLayer.exclusionsOf
  rw [← get?_singleton, ← get?_singleton, bind_text?_getD _ _ single, bind_text?_getD _ _ single, same]
  simp only [adds.linkedExclusions_eq]
  split
  · rfl
  · exact rules

theorem ofDirectory_eq (respected : Bool) (path : Path) (above : List String) :
    IgnoreLayer.ofDirectory other respected path ((other.root.get? above).getD .empty) =
      IgnoreLayer.ofDirectory fs respected path ((fs.root.get? above).getD .empty) := by
  have plain := adds.rulesOf_eq above [] (show ¬ IsUnitName ".ignore" by decide)
  have git := adds.rulesOf_eq above [] (show ¬ IsUnitName ".gitignore" by decide)
  simp only [List.nil_append] at plain git
  simp only [IgnoreLayer.ofDirectory, plain, git, adds.exclusionsOf_eq]

end AddsDocument
end FileSystem
end MockAudit
