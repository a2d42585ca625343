/-!
Paths as texts: names between slashes. A slash at the end, and a dot as a name, add nothing to
where a path leads, so they are passed over when a path is taken apart.
-/

namespace AfterAction.Path

/-- The entry of this name in a directory. -/
def join (directory name : String) : String :=
  if directory = "" ∨ directory.toList.getLast? = some '/' then directory ++ name
  else directory ++ "/" ++ name

theorem join_ne_empty (directory : String) {name : String} (h : name ≠ "") :
    join directory name ≠ "" := by
  unfold join
  split
  · simp [h]
  · simp [h]

/-- What stands between the slashes, empty pieces included. -/
def pieces (path : String) : List (List Char) := path.toList.splitOn '/'

def isNothing (piece : List Char) : Bool := piece == [] || piece == ['.']

/-- The names on the way, with what marks a path that starts at the top. -/
def parts (path : String) : List String :=
  let start := if path.toList.head? = some '/' then ["/"] else []
  let lead := if (pieces path).head? = some ['.'] then ["."] else []
  start ++ lead ++ ((pieces path).filter (!isNothing ·)).map String.ofList

/-- The parts of the directory a path leads into. -/
def parentParts (path : String) : List String := (parts path).dropLast

/-- What is left of a reversed path without the slashes and dots that add nothing at its end. -/
def passOver : List Char → List Char
  | '/' :: rest => passOver rest
  | '.' :: '/' :: rest => passOver rest
  | reversed => reversed

/-- The last name of a path, and the text before it. -/
def splitLast (path : List Char) : List Char × List Char :=
  let reversed := passOver path.reverse
  ((reversed.dropWhile (· != '/')).reverse, (reversed.takeWhile (· != '/')).reverse)

/-- A path and those it stands in, the longest first. -/
def ancestors (path : String) : List String :=
  let rec upwards : Nat → List Char → List String
    | 0, _ => []
    | fuel + 1, path =>
      let (before, name) := splitLast path
      if name = [] then []
      else .ofList path :: upwards fuel (passOver before.reverse).reverse
  upwards path.toList.length path.toList

/-- The last name, unless the path ends by going up. -/
def fileName? (path : String) : Option (List Char) :=
  let name := (splitLast path.toList).2
  if name = [] ∨ name = ['.'] ∨ name = ['.', '.'] then none else some name

/-- A name without its extension, and the extension: what follows the last dot, unless that dot
comes first. -/
def splitExtension (name : List Char) : List Char × Option (List Char) :=
  let extension := (name.reverse.takeWhile (· != '.')).reverse
  let rest := (name.reverse.dropWhile (· != '.')).reverse.dropLast
  if rest = [] then (name, none) else (rest, some extension)

/-- The path with this extension in the place of its own; what follows the name goes with it. -/
def setExtension (path extension : String) : String :=
  match fileName? path with
  | none => path
  | some name =>
    .ofList ((splitLast path.toList).1 ++ (splitExtension name).1 ++ '.' :: extension.toList)

/-- The sibling that a file is written under before it gets its name. The text gives up the length
of the extension at its end first, also where more than the name stands there. -/
def sibling (path : String) : String :=
  match (fileName? path).bind fun name => (splitExtension name).2 with
  | none => setExtension path "tmp"
  | some extension =>
    let kept := path.toList.take (path.toList.length - extension.length)
    setExtension (.ofList kept) "tmp"

end AfterAction.Path
