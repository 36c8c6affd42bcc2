import ServiceDef.Command

/-!
# The command line program

Loads the files that a command can reach, runs the command on them, writes the files that it
changes and tells the user what it found.
-/

namespace ServiceDef.Program

/-- Loads the file tree at a path below the working directory. -/
partial def load (path : String) : IO FileTree := do
  let here := (← IO.currentDir) / path
  if ← here.isDir then
    let entries ← here.readDir
    let trees ← entries.toList.mapM fun entry => do
      return (entry.fileName, ← load (Path.join path entry.fileName))
    return .directory trees
  else
    return .file (FileContent.ofBytes (← IO.FS.readBinFile here).toList)

/-- The names that lead from the root to an existing path. -/
def namesOf (path : String) : IO (List String) := do
  let real ← IO.FS.realPath ((← IO.currentDir) / path)
  return (Path.segments real.toString).filter Path.isStep

/-- The paths that a command names. -/
def named : Invocation → List String
  | .format request => request.path :: request.config.toList
  | .validate path _ => [path]
  | _ => []

/-- Adds the tree at a path to a file system, together with the settings file beside it. -/
def addPath (fileSystem : FileSystem) (path : String) : IO FileSystem := do
  let places : List String := path :: ((Path.parent? path).map (Path.join · Settings.fileName)).toList
  places.foldlM (fun (fileSystem : FileSystem) (place : String) => do
    let here := (← IO.currentDir) / place
    if !place.isEmpty && (← here.pathExists) then
      let tree ← load place
      return { fileSystem with root := fileSystem.root.graft tree (← namesOf place) }
    else
      return fileSystem) fileSystem

/-- The part of the file system that a command can reach. -/
def reachable (invocation : Invocation) : IO FileSystem := do
  let workingDirectory ← namesOf "."
  let root := (FileTree.directory []).makeDirectory workingDirectory
  (named invocation).foldlM addPath { root := root, workingDirectory := workingDirectory }

/-- Runs the program on the files of the machine. -/
def run (arguments : List String) : IO UInt32 := do
  let invocation := Arguments.parse arguments
  let outcome := invocation.run (← reachable invocation)
  for (path, text) in outcome.writes do
    IO.FS.writeFile ((← IO.currentDir) / path) text
  (← IO.getStdout).putStr outcome.output
  for line in outcome.notices.flatMap Notice.lines do
    IO.eprintln line
  return outcome.code.toUInt32

end ServiceDef.Program

/-- The entry point of the program. -/
def main (arguments : List String) : IO UInt32 :=
  ServiceDef.Program.run arguments
