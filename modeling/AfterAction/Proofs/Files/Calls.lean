import AfterAction.Files.Store

/-!
# A file system with a record of its calls

`RecordedFiles` answers as the file system under it and notes every call that is made to it, whether
it goes well or not. What others do to the same files (`elsewhere`) is no call here.
-/

namespace AfterAction

inductive FileCall
  | createDirectories (path : String)
  | write (path : String) (content : FileContent)
  | remove (path : String)
  deriving DecidableEq, Repr

structure RecordedFiles (σ : Type) where
  files : σ
  /-- In order. -/
  calls : List FileCall

namespace RecordedFiles

variable {σ : Type}

def fresh (files : σ) : RecordedFiles σ := ⟨files, []⟩

/-- A call has been made and came out like this. -/
def note (r : RecordedFiles σ) (call : FileCall) (outcome : FileAnswer × σ) :
    FileAnswer × RecordedFiles σ :=
  (outcome.1, ⟨outcome.2, r.calls ++ [call]⟩)

/-- Somebody else uses the files. -/
def elsewhere (r : RecordedFiles σ) (change : σ → σ) : RecordedFiles σ :=
  { r with files := change r.files }

instance [FileStore σ] : FileStore (RecordedFiles σ) where
  createDirectories path r :=
    r.note (.createDirectories path) (FileStore.createDirectories path r.files)
  write path content r := r.note (.write path content) (FileStore.write path content r.files)
  remove path r := r.note (.remove path) (FileStore.remove path r.files)

/-- Whatever comes of a call, it is the only one that is noted. -/
theorem mem_note {r r' : RecordedFiles σ} {call made : FileCall} {outcome : FileAnswer × σ}
    {answer : FileAnswer} (h : r.note call outcome = (answer, r')) :
    made ∈ r'.calls ↔ made ∈ r.calls ∨ made = call := by
  obtain ⟨-, rfl⟩ := Prod.mk.inj h
  rw [List.mem_append, List.mem_singleton]

end RecordedFiles
end AfterAction
