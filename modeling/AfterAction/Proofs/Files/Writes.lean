import AfterAction.Proofs.Files.View

/-!
# What a write leaves of the tree

A file is written under a temporary name and renamed when it is complete, so its path holds all of
it or what was there before. The temporary name is not a fresh one: it is the path with another
ending, and something may stand there already. A directory keeps the write from beginning. A file is
written over, and however the write ends after that, it is gone. That is the one entry besides its
path that a write can change (`write_written`), and where no file is lost in this way a write is all
or nothing (`Written.allOrNothing_iff`).
-/

namespace AfterAction.Disk

open AfterAction.Path

/-- The file is at its path if the answer says so, or all is as it was; nothing else has changed. -/
structure AllOrNothing (d : Disk) (path : String) (content : FileContent)
    (outcome : FileAnswer × Disk) : Prop where
  all : outcome.1 = .ok → ∀ way,
    outcome.2.place way = if way = wayOf path then .file content else d.place way
  nothing : outcome.1 ≠ .ok → ∀ way, outcome.2.place way = d.place way

/-- How a write may come out. -/
inductive Written (d : Disk) (path : String) (content : FileContent) : FileAnswer × Disk → Prop
  /-- The file is at its path, and the temporary name is free unless it is the path itself. -/
  | stored {d' : Disk} (hfile : d.place (wayOf (sibling path)) ≠ .directory)
      (hshows : Shows path (some content) d')
      (hplace : ∀ way, d'.place way = if way = wayOf path then .file content
        else if way = wayOf (sibling path) then .nothing else d.place way) :
      Written d path content (.ok, d')
  /-- The temporary file is refused, and nothing has changed. -/
  | refused {fault : FileFault} (haction : fault.action = .write) :
      Written d path content (.fault fault, d)
  /-- The temporary file is complete and not renamed. It is taken away again, and with it the file
  that it was written over. -/
  | withdrawn {fault : FileFault} {d' : Disk} (haction : fault.action = .rename)
      (hfile : d.place (wayOf (sibling path)) ≠ .directory)
      (hplace : ∀ way, d'.place way =
        if way = wayOf (sibling path) then .nothing else d.place way) :
      Written d path content (.fault fault, d')

variable {d d' : Disk} {path : String} {content : FileContent} {outcome : FileAnswer × Disk}

/-- No file is written where a directory is. -/
theorem place_ne_directory_of_writeFile (h : d.writeFile path content = .ok d') :
    d.place (wayOf path) ≠ .directory := by
  obtain ⟨-, -, hkeeps, hplace⟩ := writeFile_ok h
  intro hdir
  have hkept := hkeeps _ hdir
  rw [hplace, if_pos rfl] at hkept
  cases hkept

theorem write_written (d : Disk) (path : String) (content : FileContent) :
    Written d path content (FileStore.write path content d) := by
  have hshows := @FileView.write_ok Disk _ _ path content d
  cases hw : d.writeFile (sibling path) content with
  | error fault =>
    rw [write_of_refused hw]
    exact .refused rfl
  | ok written =>
    obtain ⟨-, -, -, hplace⟩ := writeFile_ok hw
    have hfile := place_ne_directory_of_writeFile hw
    have htemporary := (hplace (wayOf (sibling path))).trans (if_pos rfl)
    cases hr : written.rename (sibling path) path with
    | ok renamed =>
      have hwrite := write_of_renamed hw hr
      obtain ⟨-, -, -, hplace'⟩ := rename_ok hr htemporary
      rw [hwrite]
      refine .stored hfile (hshows hwrite) fun way => ?_
      rw [hplace']
      split
      · rfl
      · split
        · rfl
        · rw [hplace, if_neg (by assumption)]
    | error fault =>
      obtain ⟨removed, hremoved⟩ := exists_removeFile hw
      have hdiscard : written.discard path = removed := by
        rw [discard, hremoved]
        rfl
      rw [write_of_unnamed hw hr, hdiscard]
      refine .withdrawn rfl hfile fun way => ?_
      rw [(removeFile_ok hremoved).2]
      split
      · rfl
      · rw [hplace, if_neg (by assumption)]

/-- A write is all or nothing unless it loses a file that stood at the temporary name. -/
theorem Written.allOrNothing_iff (h : Written d path content outcome) :
    AllOrNothing d path content outcome ↔
      (∃ fault, outcome.1 = .fault fault ∧ fault.action = .write) ∨
      d.place (wayOf (sibling path)) = .nothing ∨
      (outcome.1 = .ok ∧ wayOf (sibling path) = wayOf path) := by
  cases h with
  | stored _ _ hplace =>
    constructor
    · intro hall
      by_cases hsame : wayOf (sibling path) = wayOf path
      · exact .inr (.inr ⟨rfl, hsame⟩)
      · have hfree := hplace (wayOf (sibling path))
        rw [hall.all rfl, if_neg hsame, if_neg hsame, if_pos rfl] at hfree
        exact .inr (.inl hfree)
    · intro hlaw
      refine ⟨fun _ way => ?_, fun hne => absurd rfl hne⟩
      rw [hplace]
      split
      · rfl
      · rename_i hway
        split
        · rename_i htemporary
          rcases hlaw with ⟨fault, hfault, -⟩ | hnothing | ⟨-, hsame⟩
          · exact absurd hfault nofun
          · rw [htemporary, hnothing]
          · exact absurd (htemporary.trans hsame) hway
        · rfl
  | refused haction => exact ⟨fun _ => .inl ⟨_, rfl, haction⟩, fun _ => ⟨nofun, fun _ _ => rfl⟩⟩
  | withdrawn haction _ hplace =>
    constructor
    · intro hall
      have hfree := hplace (wayOf (sibling path))
      rw [hall.nothing nofun, if_pos rfl] at hfree
      exact .inr (.inl hfree)
    · intro hlaw
      refine ⟨nofun, fun _ way => ?_⟩
      rw [hplace]
      split
      · rename_i htemporary
        rcases hlaw with ⟨fault', hfault, hwrite⟩ | hnothing | ⟨hok, -⟩
        · rw [← FileAnswer.fault.inj hfault, haction] at hwrite
          cases hwrite
        · rw [htemporary, hnothing]
        · exact absurd hok nofun
      · rfl

/-- **A write puts all of a file at its path or changes nothing, and the temporary name is the one
other entry that it can touch**: a file that stood there is gone, if the write got that far. For
every tree, path and content, one of the three outcomes is what happens, and it is all or nothing
exactly if no such file is lost. -/
theorem write_wholly (d : Disk) (path : String) (content : FileContent) :
    let outcome := FileStore.write path content d
    Written d path content outcome ∧
      (AllOrNothing d path content outcome ↔
        (∃ fault, outcome.1 = .fault fault ∧ fault.action = .write) ∨
        d.place (wayOf (sibling path)) = .nothing ∨
        (outcome.1 = .ok ∧ wayOf (sibling path) = wayOf path)) :=
  ⟨write_written d path content, (write_written d path content).allOrNothing_iff⟩

/-! ## A file in the way -/

/-- A file that has the temporary name of two others, one of which is a directory. -/
def drafts : Disk :=
  ⟨.directory [("report.tmp", .file (.text "draft")), ("report.d", .directory [])]⟩

/-- A write that goes well takes the draft away, and so does one that fails. -/
theorem drafts_lost :
    ¬ AllOrNothing drafts "report.json" (.text "new")
        (FileStore.write "report.json" (.text "new") drafts) ∧
    ¬ AllOrNothing drafts "report.d" (.text "new")
        (FileStore.write "report.d" (.text "new") drafts) := by
  constructor
  · intro h
    have hdraft := h.all (by decide +kernel) ["report.tmp"]
    revert hdraft
    decide +kernel
  · intro h
    have hdraft := h.nothing (by decide +kernel) ["report.tmp"]
    revert hdraft
    decide +kernel

end AfterAction.Disk
