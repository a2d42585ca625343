import AfterAction.Proofs.Files.View

/-!
# A disk on which calls fail

`FailingDisk` is a disk with a script of troubles, one for each call: what the disk itself has no
reason to refuse may fail at any step of a call, and what that step had done so far stays. Without
troubles it is the disk. A file that is written shows at its path only when it has been renamed, so
whatever fails before leaves the path as it was.
-/

namespace AfterAction

/-- What goes wrong in a call. -/
inductive DiskTrouble
  /-- So many directories, the last on the way, are not reached any more. -/
  | makingDirectories (unreached : Nat) (cause : String)
  /-- The temporary file is refused, or it is cut off after a part. -/
  | writing (part : Option FileContent) (cause : String)
  /-- The temporary file does not get its name; it is cleared away or stays. -/
  | renaming (cleared : Bool) (cause : String)
  | removing (cause : String)

structure FailingDisk where
  disk : Disk
  /-- In the order of the calls. A trouble that the call cannot have is none. -/
  troubles : List (Option DiskTrouble)

namespace FailingDisk

def trouble? (f : FailingDisk) : Option DiskTrouble := f.troubles.head?.join

/-- The call has come out like this. -/
def answered (f : FailingDisk) (outcome : FileAnswer × Disk) : FileAnswer × FailingDisk :=
  (outcome.1, ⟨outcome.2, f.troubles.tail⟩)

/-- A draft that is cut off: it holds the part, if the disk takes it. -/
def cutOff (path : String) (part : Option FileContent) (cause : String) (d : Disk) :
    Except String Unit × Disk :=
  (.error cause, part.elim d fun content => (d.draft path content).2)

instance : FileStore FailingDisk where
  createDirectories path f :=
    match f.trouble? with
    | some (.makingDirectories unreached cause) =>
      f.answered (.fault ⟨.createDirectory, path, cause⟩,
        (f.disk.makeUpwards [] ((Path.ancestors path).drop unreached)).2)
    | _ => f.answered (FileStore.createDirectories path f.disk)
  write path content f := f.answered <|
    match f.trouble? with
    | some (.writing part cause) =>
      Disk.writeBy (cutOff path part cause) (Disk.publish path) (Disk.discard path) path f.disk
    | some (.renaming cleared cause) =>
      Disk.writeBy (Disk.draft path content) (fun d => (.error cause, d))
        (if cleared then Disk.discard path else id) path f.disk
    | _ => FileStore.write path content f.disk
  remove path f :=
    match f.trouble? with
    | some (.removing cause) => f.answered (.fault ⟨.remove, path, cause⟩, f.disk)
    | _ => f.answered (FileStore.remove path f.disk)

/-! ## What a call leaves -/

variable {f f' : FailingDisk} {path : String} {content : FileContent} {answer : FileAnswer}

theorem createDirectories_grown (h : FileStore.createDirectories path f = (answer, f')) :
    Disk.Grown f.disk f'.disk := by
  simp only [FileStore.createDirectories] at h
  split at h
  · cases h
    exact Disk.makeUpwards_grown [] _ f.disk
  · cases h
    exact Disk.createDirectories_grown rfl

/-- Only the temporary file has changed. -/
structure Beside (path : String) (d d' : Disk) : Prop where
  keeps : Disk.Keeps d d'
  place (way : List String) : way ≠ Disk.wayOf (Path.sibling path) → d'.place way = d.place way

theorem Beside.refl (path : String) (d : Disk) : Beside path d d :=
  ⟨fun _ h => h, fun _ _ => rfl⟩

theorem Beside.trans {d d' d'' : Disk} (h : Beside path d d') (h' : Beside path d' d'') :
    Beside path d d'' :=
  ⟨h.keeps.trans h'.keeps, fun way hway => (h'.place way hway).trans (h.place way hway)⟩

theorem beside_draft (path : String) (content : FileContent) (d : Disk) :
    Beside path d (d.draft path content).2 := by
  unfold Disk.draft
  cases hw : d.writeFile (Path.sibling path) content with
  | error fault => exact .refl path d
  | ok written =>
    obtain ⟨-, -, hkeeps, hplace⟩ := Disk.writeFile_ok hw
    exact ⟨hkeeps, fun way hway => (hplace way).trans (if_neg hway)⟩

theorem beside_discard (path : String) (d : Disk) : Beside path d (d.discard path) :=
  ⟨(Disk.discard_keeps path d).1, (Disk.discard_keeps path d).2⟩

theorem beside_cutOff (path : String) (part : Option FileContent) (cause : String) (d : Disk) :
    Beside path d (cutOff path part cause d).2 := by
  cases part with
  | none => exact .refl path d
  | some content => exact beside_draft path content d

/-- A draft that gets no name is all that changes, if it stays and if it is cleared away. -/
theorem beside_unnamed {clear : Disk → Disk} (hclear : ∀ d, Beside path d (clear d))
    (cause : String) (d : Disk) :
    let outcome := Disk.writeBy (Disk.draft path content) (fun d => (.error cause, d)) clear path d
    outcome.1 ≠ .ok ∧ Beside path d outcome.2 := by
  obtain ⟨⟨refused, left⟩, hdrafted⟩ : ∃ r, Disk.draft path content d = r := ⟨_, rfl⟩
  have hdraft := beside_draft path content d
  rw [hdrafted] at hdraft
  rw [Disk.writeBy, hdrafted]
  cases refused with
  | error cause' => exact ⟨by simp, hdraft⟩
  | ok => exact ⟨by simp, hdraft.trans (hclear left)⟩

theorem Beside.shows {d d' : Disk} {other : String} {shown : Option FileContent}
    (h : Beside path d d') (hother : Disk.wayOf other ≠ Disk.wayOf (Path.sibling path))
    (hs : Disk.Shows other shown d) : Disk.Shows other shown d' :=
  hs.of_content h.keeps (Disk.content?_of_place fun _ => h.place _ hother)

/-- The disk itself writes the file, or a trouble keeps everything but the temporary file from
changing. -/
theorem write_cases (h : FileStore.write path content f = (answer, f')) :
    FileStore.write path content f.disk = (answer, f'.disk) ∨
      answer ≠ .ok ∧ Beside path f.disk f'.disk := by
  simp only [FileStore.write, answered] at h
  split at h
  · rename_i part cause _
    cases h
    exact .inr ⟨nofun, beside_cutOff path part cause f.disk⟩
  · rename_i cleared cause _
    cases h
    refine .inr (beside_unnamed (fun d => ?_) cause f.disk)
    cases cleared with
    | false => exact .refl path d
    | true => exact beside_discard path d
  · cases h
    exact .inl rfl

variable {other : String} {shown : Option FileContent}

theorem write_ok (h : FileStore.write path content f = (.ok, f')) :
    Disk.Shows path (some content) f'.disk := by
  rcases write_cases h with hdisk | ⟨hne, -⟩
  · exact FileView.write_ok hdisk
  · exact absurd rfl hne

/-- A path that is its own sibling may hold a part of what was to be written. -/
theorem write_failed (h : FileStore.write path content f = (answer, f')) (hne : answer ≠ .ok)
    (hsibling : Disk.wayOf path ≠ Disk.wayOf (Path.sibling path))
    (hs : Disk.Shows path shown f.disk) : Disk.Shows path shown f'.disk := by
  rcases write_cases h with hdisk | ⟨-, hbeside⟩
  · exact FileView.write_failed hdisk hne hs
  · exact hbeside.shows hsibling hs

theorem write_apart (h : FileStore.write path content f = (answer, f'))
    (hpath : Disk.wayOf other ≠ Disk.wayOf path)
    (hsibling : Disk.wayOf other ≠ Disk.wayOf (Path.sibling path))
    (hs : Disk.Shows other shown f.disk) : Disk.Shows other shown f'.disk := by
  rcases write_cases h with hdisk | ⟨-, hbeside⟩
  · exact FileView.write_apart hdisk (not_or.mpr ⟨hpath, hsibling⟩) hs
  · exact hbeside.shows hsibling hs

theorem createDirectories_keeps (h : FileStore.createDirectories path f = (answer, f'))
    (hs : Disk.Shows other shown f.disk) : Disk.Shows other shown f'.disk := by
  have hgrown := createDirectories_grown h
  exact hs.of_content hgrown.keeps (hgrown.content? other)

end FailingDisk
end AfterAction
