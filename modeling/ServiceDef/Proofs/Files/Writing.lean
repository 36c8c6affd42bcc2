import ServiceDef.Discovery
import ServiceDef.Settings

/-!
# What writing leaves alone

Writing texts into files changes the contents of these files and nothing else. No file or directory
comes or goes, so that every path still stands for the same place, the same files are discovered,
and settings are looked for in the same place. All of this is decided by the tree without the
contents of its files, its `blank`, which writing does not change.
-/

namespace ServiceDef

namespace FileTree

mutual

/-- The tree with nothing in its files. -/
def blank : FileTree → FileTree
  | .file _ => .file (.text "")
  | .directory entries => .directory (blankEntries entries)

/-- The entries with nothing in their files. -/
def blankEntries : List (String × FileTree) → List (String × FileTree)
  | [] => []
  | (name, tree) :: entries => (name, tree.blank) :: blankEntries entries

end

theorem blankEntries_eq_map (entries : List (String × FileTree)) :
    blankEntries entries = entries.map fun entry => (entry.1, entry.2.blank) := by
  induction entries with
  | nil => rfl
  | cons entry entries inductionHypothesis => rw [blankEntries, inductionHypothesis, List.map_cons]

theorem child?_blankEntries (entries : List (String × FileTree)) (name : String) :
    child? (blankEntries entries) name = (child? entries name).map blank := by
  simp [child?, blankEntries_eq_map, List.find?_map, Function.comp_def]

theorem get?_blank (tree : FileTree) (names : List String) :
    tree.blank.get? names = (tree.get? names).map blank := by
  induction names generalizing tree with
  | nil => cases tree <;> rfl
  | cons name names inductionHypothesis =>
      cases tree with
      | file content => rfl
      | directory entries =>
          simp only [blank, get?, child?_blankEntries]
          cases child? entries name with
          | none => rfl
          | some tree => exact inductionHypothesis tree

/-- The entry with a name, after the entries with some name have been changed. -/
theorem child?_map (entries : List (String × FileTree)) (changed name : String)
    (change : FileTree → FileTree) :
    child? (entries.map fun entry => if entry.1 = changed then (entry.1, change entry.2) else entry)
        name =
      if name = changed then (child? entries name).map change else child? entries name := by
  have keeps : ((fun entry : String × FileTree => decide (entry.1 = name)) ∘ fun entry =>
      if entry.1 = changed then (entry.1, change entry.2) else entry) =
      fun entry => decide (entry.1 = name) := by
    funext entry
    simp only [Function.comp_apply]
    split <;> rfl
  rw [child?, child?, List.find?_map, keeps]
  cases found : entries.find? fun entry => decide (entry.1 = name) with
  | none => simp
  | some entry =>
      have named : entry.1 = name := by simpa using List.find?_some found
      by_cases target : name = changed
      · simp [named, target]
      · simp [named, target]

/-- Writing changes no more than contents. -/
theorem blank_write (content : FileContent) (tree : FileTree) (names : List String) :
    (tree.write content names).blank = tree.blank := by
  induction names generalizing tree with
  | nil => cases tree <;> simp [write, blank]
  | cons name names inductionHypothesis =>
      cases tree with
      | file old => rfl
      | directory entries =>
          simp only [write, blank, blankEntries_eq_map, List.map_map]
          congr 1
          refine List.map_congr_left fun entry _ => ?_
          simp only [Function.comp_apply]
          split
          · rw [inductionHypothesis]
          · rfl

/-- A file holds what was written into it, and other files hold what they held. -/
theorem get?_write {tree : FileTree} {names : List String} {old : FileContent}
    (found : tree.get? names = some (.file old)) (content : FileContent) (target : List String) :
    (tree.write content target).get? names =
      some (.file (if names = target then content else old)) := by
  induction names generalizing tree target with
  | nil =>
      cases tree with
      | file was =>
          cases found
          cases target <;> rfl
      | directory entries => cases found
  | cons name names inductionHypothesis =>
      cases tree with
      | file was => cases found
      | directory entries =>
          cases target with
          | nil => simpa [write] using found
          | cons first target =>
              simp only [write, get?, child?_map entries first name (write content · target)]
                at found ⊢
              cases inside : child? entries name with
              | none => simp [inside] at found
              | some tree =>
                  simp only [inside, Option.map_some] at found ⊢
                  by_cases same : name = first
                  · simpa [same] using inductionHypothesis found target
                  · simpa [same] using found

end FileTree

namespace FileSystem

/-- The file system with nothing in its files. -/
def blank (fileSystem : FileSystem) : FileSystem :=
  { fileSystem with root := fileSystem.root.blank }

theorem walk_blank (root : FileTree) (names segments : List String) :
    walk root.blank names segments = walk root names segments := by
  induction segments generalizing names with
  | nil => rfl
  | cons segment segments inductionHypothesis =>
      simp only [walk, FileTree.get?_blank, inductionHypothesis]
      cases root.get? names with
      | none => rfl
      | some tree =>
          cases tree with
          | file content => rfl
          | directory entries => simp [FileTree.blank, FileTree.child?_blankEntries]

@[simp] theorem locate_blank (fileSystem : FileSystem) (path : String) :
    fileSystem.blank.locate path = fileSystem.locate path := by
  simp only [locate, blank, walk_blank]

@[simp] theorem get?_blank (fileSystem : FileSystem) (path : String) :
    fileSystem.blank.get? path = (fileSystem.get? path).map FileTree.blank := by
  simp only [get?, locate_blank]
  cases fileSystem.locate path with
  | error failure => rfl
  | ok names => exact FileTree.get?_blank _ names

@[simp] theorem isFile_blank (fileSystem : FileSystem) (path : String) :
    fileSystem.blank.isFile path = fileSystem.isFile path := by
  simp only [isFile, get?_blank]
  cases fileSystem.get? path with
  | none => rfl
  | some tree => cases tree <;> rfl

@[simp] theorem isDirectory_blank (fileSystem : FileSystem) (path : String) :
    fileSystem.blank.isDirectory path = fileSystem.isDirectory path := by
  simp only [isDirectory, get?_blank]
  cases fileSystem.get? path with
  | none => rfl
  | some tree => cases tree <;> rfl

theorem blank_write (fileSystem : FileSystem) (path text : String) :
    (fileSystem.write path text).blank = fileSystem.blank := by
  unfold write
  split
  · simp [blank, FileTree.blank_write]
  · rfl

/-- Paths stand for the same places in file systems that differ in contents only. -/
theorem locate_eq {before after : FileSystem} (same : after.blank = before.blank) (path : String) :
    after.locate path = before.locate path := by
  rw [← locate_blank after, same, locate_blank]

/-- The same files and directories stand in file systems that differ in contents only. -/
theorem get?_root_eq {before after : FileSystem} (same : after.blank = before.blank)
    (names : List String) :
    (after.root.get? names).map FileTree.blank = (before.root.get? names).map FileTree.blank := by
  have roots : after.root.blank = before.root.blank := congrArg root same
  rw [← FileTree.get?_blank, roots, FileTree.get?_blank]

/-- A file holds the text that was written at its place, or else what it held. -/
theorem get?_write {fileSystem : FileSystem} {names : List String} {old : FileContent}
    (found : fileSystem.root.get? names = some (.file old)) (path text : String) :
    ∃ new, (fileSystem.write path text).root.get? names = some (.file new) ∧
      (fileSystem.locate path = .ok names ∧ new = .text text ∨
        fileSystem.locate path ≠ .ok names ∧ new = old) := by
  unfold write
  cases fileSystem.locate path with
  | error failure => exact ⟨old, found, .inr ⟨by simp, rfl⟩⟩
  | ok target =>
      refine ⟨_, FileTree.get?_write found (.text text) target, ?_⟩
      by_cases same : names = target
      · exact .inl ⟨by rw [same], by simp [same]⟩
      · exact .inr ⟨by simpa using Ne.symm same, by simp [same]⟩

/-- The file system with several texts written one after the other. -/
def writeAll (fileSystem : FileSystem) (writes : List (String × String)) : FileSystem :=
  writes.foldl (fun fileSystem (path, text) => fileSystem.write path text) fileSystem

theorem blank_writeAll (fileSystem : FileSystem) (writes : List (String × String)) :
    (fileSystem.writeAll writes).blank = fileSystem.blank := by
  induction writes generalizing fileSystem with
  | nil => rfl
  | cons first writes inductionHypothesis =>
      exact (inductionHypothesis _).trans (fileSystem.blank_write first.1 first.2)

/-- A file holds a text that was written at its place, or what it held if there is none. -/
theorem get?_writeAll {fileSystem : FileSystem} {names : List String} {old : FileContent}
    (found : fileSystem.root.get? names = some (.file old)) (writes : List (String × String)) :
    ∃ new, (fileSystem.writeAll writes).root.get? names = some (.file new) ∧
      ((∃ path text, (path, text) ∈ writes ∧ fileSystem.locate path = .ok names ∧
          new = .text text) ∨
        new = old ∧ ∀ path text, (path, text) ∈ writes → fileSystem.locate path ≠ .ok names) := by
  induction writes generalizing fileSystem old with
  | nil => exact ⟨old, found, .inr ⟨rfl, by simp⟩⟩
  | cons first writes inductionHypothesis =>
      obtain ⟨path, text⟩ := first
      have located := locate_eq (fileSystem.blank_write path text)
      obtain ⟨middle, between, here⟩ := get?_write found path text
      obtain ⟨new, last, later⟩ := inductionHypothesis between
      simp only [located] at later
      refine ⟨new, last, ?_⟩
      rcases later with ⟨other, written, member, there, same⟩ | ⟨same, elsewhere⟩
      · exact .inl ⟨other, written, List.mem_cons_of_mem _ member, there, same⟩
      · rcases here with ⟨there, written⟩ | ⟨other, kept⟩
        · exact .inl ⟨path, text, List.mem_cons_self, there, same.trans written⟩
        · refine .inr ⟨same.trans kept, fun another written member => ?_⟩
          rcases List.mem_cons.1 member with first | member
          · cases first
            exact other
          · exact elsewhere another written member

end FileSystem

/-! ## Discovery and settings -/

namespace Discovery

mutual

theorem sourcesOf_blank (name : String) :
    (tree : FileTree) → sourcesOf name tree.blank = sourcesOf name tree
  | .file _ => rfl
  | .directory entries => by simp only [FileTree.blank, sourcesOf, sourcesIn_blankEntries entries]

theorem sourcesIn_blankEntries :
    (entries : List (String × FileTree)) →
      sourcesIn (FileTree.blankEntries entries) = sourcesIn entries
  | [] => rfl
  | (name, tree) :: entries => by
    simp only [FileTree.blankEntries, sourcesIn, sourcesOf_blank name tree,
      sourcesIn_blankEntries entries]

end

/-- The same files are discovered in file systems that differ in contents only. -/
theorem discover_eq {before after : FileSystem} (same : after.blank = before.blank)
    (root : String) : discover after root = discover before root := by
  have blank (fileSystem : FileSystem) :
      discover fileSystem.blank root = discover fileSystem root := by
    simp only [discover, FileSystem.get?_blank]
    cases fileSystem.get? root with
    | none => rfl
    | some tree =>
        cases tree with
        | file content => rfl
        | directory entries =>
            simp only [Option.map_some, FileTree.blank, sourcesIn_blankEntries]
  rw [← blank after, same, blank]

end Discovery

/-- Settings are looked for in the same place in file systems that differ in contents only. -/
theorem Settings.location?_eq {before after : FileSystem} (same : after.blank = before.blank)
    (path : String) : location? after path = location? before path := by
  simp only [location?, ← FileSystem.isDirectory_blank after, same, FileSystem.isDirectory_blank]

end ServiceDef
