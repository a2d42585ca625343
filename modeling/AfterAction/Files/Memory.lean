import AfterAction.Files.Path
import AfterAction.Files.Store
import AfterAction.Table

/-!
Files kept in memory, for rehearsals. Directories are known by the exact path they were created
under, and any of the three calls can be made to fail or to crash.
-/

namespace AfterAction

/-- A way for calls to go wrong. -/
inductive FileTrouble
  | failing (action : FileAction)
  | crashing (action : FileAction)
  deriving DecidableEq, Repr

structure MemoryFiles where
  directories : List String
  /-- The latest first. -/
  files : List (String × FileContent)
  troubles : List FileTrouble
  deriving Repr

namespace MemoryFiles

def empty : MemoryFiles := ⟨[], [], []⟩

def content? (path : String) (m : MemoryFiles) : Option FileContent := m.files.lookup path

def hasDirectory (m : MemoryFiles) (parts : List String) : Bool :=
  m.directories.any fun d => Path.parts d == parts

/-- Crashes come before failures, and both before any effect. -/
def attempt (action : FileAction) (path : String) (m : MemoryFiles)
    (effect : FileAnswer × MemoryFiles) : FileAnswer × MemoryFiles :=
  if .crashing action ∈ m.troubles then (.crashed "filesystem exploded", m)
  else if .failing action ∈ m.troubles then (.fault ⟨action, path, "read-only filesystem"⟩, m)
  else effect

def without (path : String) (m : MemoryFiles) : MemoryFiles :=
  { m with files := Table.drop path m.files }

instance : FileStore MemoryFiles where
  createDirectories path m :=
    m.attempt .createDirectory path (.ok, { m with directories := path :: m.directories })
  write path content m :=
    m.attempt .write path
      (if m.hasDirectory (Path.parentParts path) then
        (.ok, { m.without path with files := (path, content) :: (m.without path).files })
      else (.fault ⟨.write, path, "no such directory"⟩, m))
  remove path m := m.attempt .remove path (.ok, m.without path)

end MemoryFiles
end AfterAction
