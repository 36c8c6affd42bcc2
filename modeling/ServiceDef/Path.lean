/-!
# Paths

Paths are texts whose segments are separated by slashes. Joining a path with a name, going to
the parent and splitting off the extension of a name work on the text alone; no file is
looked at.
-/

namespace ServiceDef.Path

/-- The segments between the slashes of a text. -/
def splitSlashes : List Char → List (List Char)
  | [] => [[]]
  | c :: rest =>
    if c = '/' then [] :: splitSlashes rest
    else
      match splitSlashes rest with
      | [] => [[c]]
      | segment :: segments => (c :: segment) :: segments

/-- The segments of a path. -/
def segments (path : String) : List String :=
  (splitSlashes path.toList).map String.ofList

/-- Whether a path starts at the root. -/
def isAbsolute (path : String) : Bool :=
  path.toList.head? = some '/'

/-- The path of a name inside of a directory. -/
def join (directory name : String) : String :=
  if directory.isEmpty || directory.toList.getLast? = some '/' then directory ++ name
  else directory ++ "/" ++ name

/-- The path of a file below a directory, by the names of the directories on the way. -/
def joinAll (directory : String) (names : List String) : String :=
  names.foldl join directory

/-- Whether a segment that is not the first one stands for a step: empty segments and single
dots stand for none. -/
def isStep (segment : String) : Bool :=
  segment ≠ "" && segment ≠ "."

/-- The segments up to the last one that is a step, the first one counting as a step if it is
not empty. -/
def trimSegments (segments : List String) : List String :=
  match segments with
  | [] => []
  | first :: rest =>
    match (rest.reverse.dropWhile fun segment => !isStep segment).reverse with
    | [] => if first = "" then [] else [first]
    | kept => first :: kept

/-- The path without its last step; nothing if it has no step. -/
def parent? (path : String) : Option String :=
  match trimSegments (segments path) with
  | [] => none
  | [_] => some ""
  | ["", _] => some "/"
  | steps => some (String.intercalate "/" (trimSegments steps.dropLast))

/-- The part of a file name behind its last dot. A dot at the start of a name is no such dot. -/
def extension? (name : String) : Option String :=
  let reversed := name.toList.reverse
  match reversed.dropWhile (· ≠ '.') with
  | [] => none
  | [_] => none
  | _ => some (String.ofList (reversed.takeWhile (· ≠ '.')).reverse)

/-- Whether a name starts with a dot. -/
def isHidden (name : String) : Bool :=
  name.toList.head? = some '.'

end ServiceDef.Path
