import AfterAction.Report.Pdf

/-!
What the service asks of a file system: directories with all their parents, files that appear
whole or not at all, and files that may be gone already when they are removed.
-/

namespace AfterAction

inductive FileContent
  | text (text : String)
  | document (pdf : Pdf)
  deriving DecidableEq, Repr

inductive FileAction
  | createDirectory
  | write
  | rename
  | remove
  deriving DecidableEq, Repr

def FileAction.name : FileAction → String
  | .createDirectory => "create directory"
  | .write => "write"
  | .rename => "rename"
  | .remove => "remove"

structure FileFault where
  action : FileAction
  path : String
  cause : String
  deriving DecidableEq, Repr

def FileFault.message (f : FileFault) : String :=
  f.action.name ++ " " ++ f.path ++ ": " ++ f.cause

/-- How a call to the file system ends. A crash takes the worker that made the call with it. -/
inductive FileAnswer
  | ok
  | fault (fault : FileFault)
  | crashed (message : String)
  deriving DecidableEq, Repr

class FileStore (σ : Type) where
  createDirectories : String → σ → FileAnswer × σ
  write : String → FileContent → σ → FileAnswer × σ
  /-- A file that is not there counts as removed. -/
  remove : String → σ → FileAnswer × σ

end AfterAction
