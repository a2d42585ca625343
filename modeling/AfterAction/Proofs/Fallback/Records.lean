import AfterAction.Fallback
import AfterAction.Proofs.Files.View

/-!
# What keeping a record leaves

A record that was kept shows whole at its path, and a record that was not kept has left nothing
there. Names that the write does not touch show what they showed before.
-/

namespace AfterAction.Fallback

/-- Where the record of a document goes. -/
def recordPath (directory : String) (now : Instant) (suffix : UInt32) (d : TagDocument) : String :=
  Path.join directory (fileName now d.fields.operationId suffix)

variable {σ : Type} [FileStore σ]

/-- How trouble with the files ends a record. -/
inductive Troubled : FileAnswer → Kept → Prop
  | fault (fault : FileFault) : Troubled (.fault fault) (.fault fault)
  | crashed (message : String) : Troubled (.crashed message) (.crashed message)

theorem Troubled.ne_ok {answer : FileAnswer} {kept : Kept} (h : Troubled answer kept) :
    answer ≠ .ok := by
  cases h <;> nofun

theorem Troubled.ne_at {answer : FileAnswer} {kept : Kept} (h : Troubled answer kept)
    (path : String) : kept ≠ .at path := by
  cases h <;> nofun

/-- The calls on the files for one record, with the files before and after: the directory is made,
then the record is written at its path, and the first trouble is the end. -/
inductive Keeps (directory : String) (now : Instant) (suffix : UInt32) (d : TagDocument) :
    σ → Kept → σ → Prop
  | noDirectory {files made : σ} {answer : FileAnswer} {kept : Kept} :
      FileStore.createDirectories directory files = (answer, made) → Troubled answer kept →
      Keeps directory now suffix d files kept made
  | noRecord {files made after : σ} {answer : FileAnswer} {kept : Kept} :
      FileStore.createDirectories directory files = (.ok, made) →
      FileStore.write (recordPath directory now suffix d) (.text (recordText now d)) made =
        (answer, after) → Troubled answer kept →
      Keeps directory now suffix d files kept after
  | record {files made after : σ} :
      FileStore.createDirectories directory files = (.ok, made) →
      FileStore.write (recordPath directory now suffix d) (.text (recordText now d)) made =
        (.ok, after) →
      Keeps directory now suffix d files (.at (recordPath directory now suffix d)) after

theorem keep_keeps {directory : String} {now : Instant} {suffix : UInt32} {d : TagDocument}
    {kept : Kept} {files files' : σ} (h : keep directory now suffix d files = (kept, files')) :
    Keeps directory now suffix d files kept files' := by
  unfold keep at h
  obtain ⟨⟨answer, made⟩, hmade⟩ : ∃ r, FileStore.createDirectories directory files = r :=
    ⟨_, rfl⟩
  rw [hmade] at h
  cases answer with
  | fault fault =>
    cases h
    exact .noDirectory hmade (.fault fault)
  | crashed message =>
    cases h
    exact .noDirectory hmade (.crashed message)
  | ok =>
    obtain ⟨⟨answer, written⟩, hwritten⟩ : ∃ r, FileStore.write (recordPath directory now suffix d)
      (.text (recordText now d)) made = r := ⟨_, rfl⟩
    rw [recordPath] at hwritten
    simp only [hwritten] at h
    cases answer with
    | fault fault =>
      cases h
      exact .noRecord hmade hwritten (.fault fault)
    | crashed message =>
      cases h
      exact .noRecord hmade hwritten (.crashed message)
    | ok =>
      cases h
      exact .record hmade hwritten

variable [FileView σ] {directory path : String} {now : Instant} {suffix : UInt32}
  {d : TagDocument} {kept : Kept} {files files' : σ}

theorem Keeps.shows (h : Keeps directory now suffix d files (.at path) files') :
    path = recordPath directory now suffix d ∧
    FileView.Shows path (some (.text (recordText now d))) files' := by
  cases h with
  | noDirectory _ ht => exact absurd rfl (ht.ne_at path)
  | noRecord _ _ ht => exact absurd rfl (ht.ne_at path)
  | record _ hwritten => exact ⟨rfl, FileView.write_ok hwritten⟩

theorem Keeps.lost (h : Keeps directory now suffix d files kept files')
    (hlost : ∀ path, kept ≠ .at path) {shown : Option FileContent}
    (hs : FileView.Shows (recordPath directory now suffix d) shown files) :
    FileView.Shows (recordPath directory now suffix d) shown files' := by
  cases h with
  | noDirectory hmade _ => exact FileView.createDirectories_keeps hmade hs
  | noRecord hmade hwritten ht =>
    exact FileView.write_failed hwritten ht.ne_ok (FileView.createDirectories_keeps hmade hs)
  | record => exact absurd rfl (hlost _)

theorem Keeps.apart (h : Keeps directory now suffix d files kept files') {other : String}
    (ho : ¬ FileView.touches σ (recordPath directory now suffix d) other)
    {shown : Option FileContent} (hs : FileView.Shows other shown files) :
    FileView.Shows other shown files' := by
  cases h with
  | noDirectory hmade _ => exact FileView.createDirectories_keeps hmade hs
  | noRecord hmade hwritten _ | record hmade hwritten =>
    exact FileView.write_apart hwritten ho (FileView.createDirectories_keeps hmade hs)

end AfterAction.Fallback
