import AfterAction.Files.Path
import AfterAction.Files.Store
import AfterAction.Table

/-!
A disk: a tree of directories and files under one top directory, and the outcomes of the calls a
program makes to it. A file is written under a sibling's name first and renamed into place, so that
no reader meets half of it.
-/

namespace AfterAction

inductive Node
  | file (content : FileContent)
  | directory (entries : List (String × Node))
  deriving Repr

namespace Node

/-- The node that a way of names leads to. -/
def get? : List String → Node → Option Node
  | [], n => some n
  | name :: rest, .directory entries => (entries.lookup name).bind (get? rest)
  | _ :: _, .file _ => none

/-- Changes the entries of the directory that a way leads to. -/
def modify (change : List (String × Node) → List (String × Node)) : List String → Node → Node
  | [], .directory entries => .directory (change entries)
  | name :: rest, .directory entries =>
    match entries.lookup name with
    | some child => .directory (Table.put name (modify change rest child) entries)
    | none => .directory entries
  | _, .file content => .file content

mutual

/-- All nodes below a directory with their paths. -/
def listing (before : String) : Node → List (String × Node)
  | .file _ => []
  | .directory entries => listingEntries before entries

def listingEntries (before : String) : List (String × Node) → List (String × Node)
  | [] => []
  | (name, n) :: rest =>
    (before ++ name, n) :: listing (before ++ name ++ "/") n ++ listingEntries before rest

end

end Node

/-- Why a call was refused. -/
inductive DiskFault
  | missing
  | busy
  | exists
  | notDirectory
  | isDirectory
  | nameTooLong
  /-- No path has a zero character. -/
  | zeroCharacter
  deriving DecidableEq, Repr

def DiskFault.message : DiskFault → String
  | .missing => "No such file or directory (os error 2)"
  | .busy => "Device or resource busy (os error 16)"
  | .exists => "File exists (os error 17)"
  | .notDirectory => "Not a directory (os error 20)"
  | .isDirectory => "Is a directory (os error 21)"
  | .nameTooLong => "File name too long (os error 36)"
  | .zeroCharacter => "file name contained an unexpected NUL byte"

structure Disk where
  top : Node
  deriving Repr

namespace Disk

/-- Bytes in a name. -/
def nameLimit : Nat := 255

/-- Bytes in a path, its end mark included. -/
def pathLimit : Nat := 4096

def node? (d : Disk) (way : List String) : Option Node := d.top.get? way

def isDirectory (d : Disk) (way : List String) : Bool :=
  match d.node? way with
  | some (.directory _) => true
  | _ => false

/-- Follows names that all have to be directories, from a directory known by its own way. -/
def follow (d : Disk) : List String → List String → Except DiskFault (List String)
  | way, [] => if d.isDirectory way then .ok way else .error .notDirectory
  | way, name :: rest =>
    if name = "" ∨ name = "." then follow d way rest
    else if name = ".." then follow d way.dropLast rest
    else if nameLimit < name.utf8ByteSize then .error .nameTooLong
    else
      match d.node? (way ++ [name]) with
      | some (.directory _) => follow d (way ++ [name]) rest
      | some (.file _) => .error .notDirectory
      | none => .error .missing

/-- A path taken apart: the names before the last, the last, and whether a slash follows it. -/
structure Target where
  before : List String
  last : String
  slash : Bool

def target (path : String) : Target :=
  let reversed := path.toList.reverse
  let name := reversed.dropWhile (· == '/')
  { before := (((name.dropWhile (· != '/')).reverse).splitOn '/').map String.ofList
    last := .ofList (name.takeWhile (· != '/')).reverse
    slash := reversed.head? = some '/' }

/-- The last name stands for a directory that is already there. -/
def Target.standing (t : Target) : Bool := t.last = "" || t.last = "." || t.last = ".."

/-- The way to the directory that holds the last name. -/
def holder (d : Disk) (path : String) : Except DiskFault (List String) :=
  if path = "" then .error .missing
  else if path.toList.contains '\x00' then .error .zeroCharacter
  else if pathLimit ≤ path.utf8ByteSize then .error .nameTooLong
  else d.follow [] (target path).before

/-- The node under the last name, if there is one. -/
def entry (d : Disk) (way : List String) (name : String) : Except DiskFault (Option Node) :=
  if nameLimit < name.utf8ByteSize then .error .nameTooLong else .ok (d.node? (way ++ [name]))

def put (d : Disk) (way : List String) (name : String) (n : Node) : Disk :=
  ⟨d.top.modify (Table.put name n) way⟩

def drop (d : Disk) (way : List String) (name : String) : Disk :=
  ⟨d.top.modify (Table.drop name) way⟩

/-- Makes one directory. -/
def makeDirectory (d : Disk) (path : String) : Except DiskFault Disk := do
  let way ← d.holder path
  let t := target path
  if t.standing then .error .exists
  else
    match ← d.entry way t.last with
    | some _ => .error .exists
    | none => return d.put way t.last (.directory [])

/-- The path leads to a directory. -/
def leadsToDirectory (d : Disk) (path : String) : Bool :=
  match d.holder path with
  | .ok way => (d.follow way [(target path).last]).toOption.isSome
  | .error _ => false

/-- Makes a directory and then those that stand in it, as far as they are missing. -/
def makeMissing (d : Disk) : List String → Except DiskFault Unit × Disk
  | [] => (.ok (), d)
  | path :: rest =>
    match d.makeDirectory path with
    | .ok d => d.makeMissing rest
    | .error .exists =>
      if d.leadsToDirectory path then d.makeMissing rest else (.error .exists, d)
    | .error fault => (.error fault, d)

/-- Goes up from a path to the first directory that is there or can be made, and then down again,
making the others. -/
def makeUpwards (d : Disk) : List String → List String → Except DiskFault Unit × Disk
  | below, [] => d.makeMissing below
  | below, path :: above =>
    match d.makeDirectory path with
    | .ok d => d.makeMissing below
    | .error .missing => d.makeUpwards (path :: below) above
    | .error .exists =>
      if d.leadsToDirectory path then d.makeMissing below else (.error .exists, d)
    | .error fault => (.error fault, d)

def createDirectories (d : Disk) (path : String) : Except DiskFault Unit × Disk :=
  d.makeUpwards [] (Path.ancestors path)

/-- Writes a file that may be there already. -/
def writeFile (d : Disk) (path : String) (content : FileContent) : Except DiskFault Disk := do
  let way ← d.holder path
  let t := target path
  if t.standing || t.slash then .error .isDirectory
  else
    match ← d.entry way t.last with
    | some (.directory _) => .error .isDirectory
    | _ => return d.put way t.last (.file content)

/-- Gives a file another name, over a file that has it. -/
def rename (d : Disk) (source path : String) : Except DiskFault Disk := do
  let sourceWay ← d.holder source
  let way ← d.holder path
  let s := target source
  let t := target path
  if s.standing || t.standing then .error .busy
  else
    match ← d.entry sourceWay s.last with
    | none => .error .missing
    | some n =>
      let there ← d.entry way t.last
      if s.slash || t.slash then .error .notDirectory
      else
        match there with
        | some (.directory _) => .error .isDirectory
        | _ =>
          if sourceWay = way ∧ s.last = t.last then return d
          else return (d.drop sourceWay s.last).put way t.last n

def removeFile (d : Disk) (path : String) : Except DiskFault Disk := do
  let way ← d.holder path
  let t := target path
  if t.standing then .error .isDirectory
  else
    match ← d.entry way t.last with
    | none => .error .missing
    | some (.directory _) => .error .isDirectory
    | some (.file _) => if t.slash then .error .notDirectory else return d.drop way t.last

def answer (action : FileAction) (path : String) (fault : DiskFault) : FileAnswer :=
  .fault ⟨action, path, fault.message⟩

/-- A call that is refused leaves the disk as it was. -/
def attempt (d : Disk) : Except DiskFault Disk → Except String Unit × Disk
  | .ok d => (.ok (), d)
  | .error fault => (.error fault.message, d)

/-- The file gets its content, under its sibling's name. -/
def draft (path : String) (content : FileContent) (d : Disk) : Except String Unit × Disk :=
  d.attempt (d.writeFile (Path.sibling path) content)

/-- The draft gets its own name. -/
def publish (path : String) (d : Disk) : Except String Unit × Disk :=
  d.attempt (d.rename (Path.sibling path) path)

/-- The draft is cleared away, if it can be. -/
def discard (path : String) (d : Disk) : Disk := (d.removeFile (Path.sibling path)).toOption.getD d

/-- A write by its steps: one for the content, one for the name, and one for a draft that does not
get its name. -/
def writeBy (fill name : Disk → Except String Unit × Disk) (clear : Disk → Disk) (path : String)
    (d : Disk) : FileAnswer × Disk :=
  match fill d with
  | (.error cause, d) => (.fault ⟨.write, Path.sibling path, cause⟩, d)
  | (.ok (), d) =>
    match name d with
    | (.error cause, d) => (.fault ⟨.rename, path, cause⟩, clear d)
    | (.ok (), d) => (.ok, d)

instance : FileStore Disk where
  createDirectories path d :=
    match d.createDirectories path with
    | (.ok (), d) => (.ok, d)
    | (.error fault, d) => (answer .createDirectory path fault, d)
  write path content := writeBy (draft path content) (publish path) (discard path) path
  remove path d :=
    match d.removeFile path with
    | .ok d => (.ok, d)
    | .error .missing => (.ok, d)
    | .error fault => (answer .remove path fault, d)

end Disk
end AfterAction
