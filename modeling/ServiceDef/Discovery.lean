import ServiceDef.FileTree

/-!
# Discovery

The files that a command works on: the named file, or all source files below the named
directory. Hidden directories are not entered. The files come in the order of the names on
the way to them, whatever the order in which directories list their entries.
-/

namespace ServiceDef

/-- Why there is no file to work on. -/
inductive DiscoveryFailure where
  | notFound (path : String)
  | noFiles (path : String)
deriving DecidableEq, Repr

/-- The message for a failure. -/
def DiscoveryFailure.message : DiscoveryFailure → String
  | .notFound path => "path not found: " ++ path
  | .noFiles path => "no .sdl files found under " ++ path

namespace Discovery

/-- The extension of source files. -/
def sourceExtension : String := "sdl"

/-- Whether a file with the given name is a source file. -/
def isSource (name : String) : Bool :=
  Path.extension? name = some sourceExtension

mutual

/-- The source files of a named entry of a directory, by the names that lead to them. -/
def sourcesOf (name : String) : FileTree → List (List String)
  | .file _ => if isSource name then [[name]] else []
  | .directory entries =>
    if Path.isHidden name then [] else (sourcesIn entries).map (name :: ·)

/-- The source files below a directory with the given entries, by the names that lead to
them. -/
def sourcesIn : List (String × FileTree) → List (List String)
  | [] => []
  | (name, tree) :: entries => sourcesOf name tree ++ sourcesIn entries

end

/-- Whether a file may stand before another one, by the names that lead to them. -/
def precedes (left right : List String) : Bool :=
  (compare left right).isLE

/-- The paths of the files to work on. -/
def discover (fileSystem : FileSystem) (root : String) : Except DiscoveryFailure (List String) :=
  match fileSystem.get? root with
  | none => .error (.notFound root)
  | some (.file _) => .ok [root]
  | some (.directory entries) =>
    match (sourcesIn entries).mergeSort precedes with
    | [] => .error (.noFiles root)
    | files => .ok (files.map (Path.joinAll root))

end Discovery

end ServiceDef
