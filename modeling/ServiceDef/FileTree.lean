import ServiceDef.Path

/-!
# File trees

A file tree is a file or a directory of named file trees, in the order in which the directory
lists them. A file system is a file tree together with the directory that relative paths
start from. Links are not part of the model.
-/

namespace ServiceDef

/-- What a file holds. -/
inductive FileContent where
  | text (text : String)
  /-- Bytes that are not the UTF-8 form of a text. -/
  | binary (bytes : List UInt8)
deriving DecidableEq, Repr

/-- The content with the given bytes. -/
def FileContent.ofBytes (bytes : List UInt8) : FileContent :=
  match String.fromUTF8? (ByteArray.mk bytes.toArray) with
  | some contents => .text contents
  | none => .binary bytes

/-- A file, or a directory of named file trees. -/
inductive FileTree where
  | file (content : FileContent)
  | directory (entries : List (String × FileTree))
deriving Repr

namespace FileTree

instance : Inhabited FileTree := ⟨.directory []⟩

/-- The entry of a directory with the given name. -/
def child? (entries : List (String × FileTree)) (name : String) : Option FileTree :=
  (entries.find? fun entry => entry.1 = name).map (·.2)

/-- The tree below the given names. -/
def get? : FileTree → List String → Option FileTree
  | tree, [] => some tree
  | .file _, _ :: _ => none
  | .directory entries, name :: names =>
    match child? entries name with
    | some tree => tree.get? names
    | none => none

/-- Whether a tree is a directory. -/
def isDirectory : FileTree → Bool
  | .file _ => false
  | .directory _ => true

/-- The tree with other content in the file below the given names. Nothing changes if there is
no such file. -/
def write (content : FileContent) : FileTree → List String → FileTree
  | .file _, [] => .file content
  | .file old, _ :: _ => .file old
  | .directory entries, [] => .directory entries
  | .directory entries, name :: names =>
    .directory (entries.map fun entry =>
      if entry.1 = name then (entry.1, write content entry.2 names) else entry)

/-- The tree with another tree below the given names. Directories on the way are made, and what
stood there is replaced. -/
def graft : FileTree → FileTree → List String → FileTree
  | _, added, [] => added
  | .file _, added, name :: names => .directory [(name, graft (.directory []) added names)]
  | .directory entries, added, name :: names =>
    match child? entries name with
    | some _ =>
      .directory (entries.map fun entry =>
        if entry.1 = name then (entry.1, graft entry.2 added names) else entry)
    | none => .directory (entries ++ [(name, graft (.directory []) added names)])

/-- The tree with a directory below the given names, in which what stands there already stays. -/
def makeDirectory (tree : FileTree) (names : List String) : FileTree :=
  match tree.get? names with
  | some (.directory _) => tree
  | _ => tree.graft (.directory []) names

end FileTree

/-- Why a file cannot be read. -/
inductive ReadFailure where
  | missing
  | notDirectory
  | isDirectory
  | notText
deriving DecidableEq, Repr

/-- The words for a failure. -/
def ReadFailure.message : ReadFailure → String
  | .missing => "No such file or directory (os error 2)"
  | .notDirectory => "Not a directory (os error 20)"
  | .isDirectory => "Is a directory (os error 21)"
  | .notText => "stream did not contain valid UTF-8"

/-- A file tree and the directory in it from which relative paths start. -/
structure FileSystem where
  root : FileTree
  /-- The names that lead from the root to the working directory. -/
  workingDirectory : List String := []
deriving Repr

namespace FileSystem

/-- Goes along the segments of a path, from the directory below `names`, to the names that the
path stands for. Every segment is looked up in a directory, also an empty one. -/
def walk (root : FileTree) (names : List String) : List String → Except ReadFailure (List String)
  | [] => .ok names
  | segment :: segments =>
    match root.get? names with
    | none => .error .missing
    | some (.file _) => .error .notDirectory
    | some (.directory entries) =>
      if !Path.isStep segment then walk root names segments
      else if segment = ".." then walk root names.dropLast segments
      else if (FileTree.child? entries segment).isSome then
        walk root (names ++ [segment]) segments
      else .error .missing

/-- The names from the root that a path stands for. -/
def locate (fileSystem : FileSystem) (path : String) : Except ReadFailure (List String) :=
  if path.isEmpty then .error .missing
  else
    walk fileSystem.root (if Path.isAbsolute path then [] else fileSystem.workingDirectory)
      (Path.segments path)

/-- The tree that a path stands for. -/
def get? (fileSystem : FileSystem) (path : String) : Option FileTree :=
  match fileSystem.locate path with
  | .ok names => fileSystem.root.get? names
  | .error _ => none

/-- Whether a path stands for a file. -/
def isFile (fileSystem : FileSystem) (path : String) : Bool :=
  match fileSystem.get? path with
  | some (.file _) => true
  | _ => false

/-- Whether a path stands for a directory. -/
def isDirectory (fileSystem : FileSystem) (path : String) : Bool :=
  match fileSystem.get? path with
  | some (.directory _) => true
  | _ => false

/-- The text of a file. -/
def read (fileSystem : FileSystem) (path : String) : Except ReadFailure String :=
  match fileSystem.locate path with
  | .error failure => .error failure
  | .ok names =>
    match fileSystem.root.get? names with
    | some (.file (.text text)) => .ok text
    | some (.file (.binary _)) => .error .notText
    | some (.directory _) => .error .isDirectory
    | none => .error .missing

/-- The file system with another text in a file. -/
def write (fileSystem : FileSystem) (path text : String) : FileSystem :=
  match fileSystem.locate path with
  | .ok names => { fileSystem with root := fileSystem.root.write (.text text) names }
  | .error _ => fileSystem

end FileSystem

end ServiceDef
