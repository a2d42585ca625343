import AfterAction.Files.Memory
import AfterAction.Proofs.Files.Disk

/-!
# What a file system shows

`FileView` is what callers of a file system rely on: a file that was written shows whole, a removed
one shows no more, and a write that does not go well changes nothing at its path. A write may touch
more names than its own, those of the same file and of the one it goes to first, and no others.
Files in memory keep all this, whatever their troubles, and a disk keeps it for all its paths.
-/

namespace AfterAction

/-- What readers meet at a path, and how the calls change it. -/
class FileView (σ : Type) [FileStore σ] where
  /-- The path shows this content, or nothing. A path that leads over missing directories may show
  neither. -/
  Shows : String → Option FileContent → σ → Prop
  /-- A write or a removal at the first path may change what the second shows. -/
  touches : String → String → Prop
  unique {path : String} {shown shown' : Option FileContent} {files : σ} :
    Shows path shown files → Shows path shown' files → shown = shown'
  createDirectories_keeps {directory path : String} {answer : FileAnswer} {files files' : σ}
    {shown : Option FileContent} : FileStore.createDirectories directory files = (answer, files') →
      Shows path shown files → Shows path shown files'
  write_ok {path : String} {content : FileContent} {files files' : σ} :
    FileStore.write path content files = (.ok, files') → Shows path (some content) files'
  write_failed {path : String} {content : FileContent} {answer : FileAnswer} {files files' : σ}
    {shown : Option FileContent} : FileStore.write path content files = (answer, files') →
      answer ≠ .ok → Shows path shown files → Shows path shown files'
  write_apart {path other : String} {content : FileContent} {answer : FileAnswer}
    {files files' : σ} {shown : Option FileContent} :
    FileStore.write path content files = (answer, files') →
      ¬ touches path other → Shows other shown files → Shows other shown files'
  remove_ok {path : String} {files files' : σ} {shown : Option FileContent} :
    FileStore.remove path files = (.ok, files') → Shows path shown files → Shows path none files'
  remove_apart {path other : String} {answer : FileAnswer} {files files' : σ}
    {shown : Option FileContent} : FileStore.remove path files = (answer, files') →
      ¬ touches path other → Shows other shown files → Shows other shown files'

namespace MemoryFiles

theorem content?_without (path other : String) (m : MemoryFiles) :
    (m.without path).content? other = if other = path then none else m.content? other :=
  Table.lookup_drop path other m.files

/-- Troubles keep an effect from happening; else there is only the effect. -/
theorem attempt_cases (action : FileAction) (path : String) (m : MemoryFiles)
    (effect : FileAnswer × MemoryFiles) :
    m.attempt action path effect = effect ∨
      ∃ answer, answer ≠ .ok ∧ m.attempt action path effect = (answer, m) := by
  unfold attempt
  split
  · exact .inr ⟨.crashed _, by simp, rfl⟩
  · split
    · exact .inr ⟨.fault _, by simp, rfl⟩
    · exact .inl rfl

theorem content?_put (path other : String) (content : FileContent) (m : MemoryFiles) :
    content? other { m.without path with files := (path, content) :: (m.without path).files } =
      if other = path then some content else m.content? other := by
  rw [content?, List.lookup_cons]
  by_cases ho : other = path
  · simp [ho]
  · rw [beq_false_of_ne ho, if_neg ho]
    exact (content?_without path other m).trans (if_neg ho)

/-- A write that goes well shows at its path, and any other shows nowhere. -/
theorem write_cases {path : String} {content : FileContent} {answer : FileAnswer}
    {m m' : MemoryFiles} (h : FileStore.write path content m = (answer, m')) :
    (answer = .ok ∧
      ∀ other, m'.content? other = if other = path then some content else m.content? other) ∨
    (answer ≠ .ok ∧ m' = m) := by
  simp only [FileStore.write] at h
  split at h
  · rcases attempt_cases .write path m (.ok, { m.without path with
      files := (path, content) :: (m.without path).files }) with ha | ⟨answer', hne, ha⟩
    · cases ha.symm.trans h
      exact .inl ⟨rfl, fun other => content?_put path other content m⟩
    · cases ha.symm.trans h
      exact .inr ⟨hne, rfl⟩
  · rcases attempt_cases .write path m (.fault ⟨.write, path, "no such directory"⟩, m) with
      ha | ⟨answer', hne, ha⟩
    · cases ha.symm.trans h
      exact .inr ⟨nofun, rfl⟩
    · cases ha.symm.trans h
      exact .inr ⟨hne, rfl⟩

/-- A removal that goes well takes its path's file away, and any other takes nothing. -/
theorem remove_cases {path : String} {answer : FileAnswer} {m m' : MemoryFiles}
    (h : FileStore.remove path m = (answer, m')) :
    (answer = .ok ∧ m' = m.without path) ∨ (answer ≠ .ok ∧ m' = m) := by
  rcases attempt_cases .remove path m (.ok, m.without path) with ha | ⟨answer', hne, ha⟩
  · cases ha.symm.trans h
    exact .inl ⟨rfl, rfl⟩
  · cases ha.symm.trans h
    exact .inr ⟨hne, rfl⟩

instance : FileView MemoryFiles where
  Shows path shown m := m.content? path = shown
  touches path other := other = path
  unique h h' := h.symm.trans h'
  createDirectories_keeps {directory _ _ m _ _} h hs := by
    rcases attempt_cases .createDirectory directory m
      (.ok, { m with directories := directory :: m.directories }) with ha | ⟨_, _, ha⟩
    · cases ha.symm.trans h
      exact hs
    · cases ha.symm.trans h
      exact hs
  write_ok {path _ _ _} h := by
    rcases write_cases h with ⟨_, hview⟩ | ⟨hne, _⟩
    · rw [hview, if_pos rfl]
    · exact absurd rfl hne
  write_failed h hne hs := by
    rcases write_cases h with ⟨hok, _⟩ | ⟨_, rfl⟩
    · exact absurd hok hne
    · exact hs
  write_apart h ho hs := by
    rcases write_cases h with ⟨_, hview⟩ | ⟨_, rfl⟩
    · rw [hview, if_neg ho, hs]
    · exact hs
  remove_ok {path _ _ _} h _ := by
    rcases remove_cases h with ⟨_, rfl⟩ | ⟨hne, _⟩
    · rw [content?_without, if_pos rfl]
    · exact absurd rfl hne
  remove_apart h ho hs := by
    rcases remove_cases h with ⟨_, rfl⟩ | ⟨_, rfl⟩
    · rw [content?_without, if_neg ho, hs]
    · exact hs

end MemoryFiles

namespace Disk

/-- The file where a path leads. -/
def content? (path : String) (d : Disk) : Option FileContent :=
  if (target path).named then (d.place (wayOf path)).content? else none

/-- A path shows a file that it leads to over directories, and nothing where its names lead to no
file, whichever directories on the way are missing yet. -/
def Shows (path : String) (shown : Option FileContent) (d : Disk) : Prop :=
  d.content? path = shown ∧ (shown = none ∨ ∃ way, d.holder path = .ok way)

variable {d d' : Disk} {path : String} {shown : Option FileContent}

theorem Shows.of_content (h : Shows path shown d) (hk : Keeps d d')
    (hc : d'.content? path = d.content? path) : Shows path shown d' := by
  refine ⟨hc.trans h.1, h.2.imp id ?_⟩
  rintro ⟨way, hw⟩
  exact ⟨way, holder_mono hk hw⟩

theorem content?_of_place (h : (target path).named = true →
    d'.place (wayOf path) = d.place (wayOf path)) : d'.content? path = d.content? path := by
  unfold content?
  split
  · rename_i hnamed
    rw [h hnamed]
  · rfl

theorem Grown.content? (h : Grown d d') (path : String) : d'.content? path = d.content? path := by
  unfold Disk.content?
  rcases h (wayOf path) with hw | ⟨hnothing, hdir⟩
  · rw [hw]
  · rw [hnothing, hdir]
    rfl

instance : FileView Disk where
  Shows := Shows
  touches path other := wayOf other = wayOf path ∨ wayOf other = wayOf (Path.sibling path)
  unique h h' := h.1.symm.trans h'.1
  createDirectories_keeps {_ path _ _ _ _} h hs := by
    have hg := createDirectories_grown h
    exact hs.of_content hg.keeps (hg.content? path)
  write_ok h := by
    obtain ⟨_, _, ⟨_, hnamed, hw, hplace⟩ | ⟨hne, _⟩⟩ := write_cases h
    · refine ⟨?_, .inr hw⟩
      rw [content?, if_pos hnamed, hplace]
      rfl
    · exact absurd rfl hne
  write_failed h hne hs := by
    obtain ⟨hk, _, ⟨hok, _⟩ | ⟨_, hplace⟩⟩ := write_cases h
    · exact absurd hok hne
    · exact hs.of_content hk (content?_of_place hplace)
  write_apart h ho hs := by
    obtain ⟨hk, hplace, _⟩ := write_cases h
    obtain ⟨hpath, hsibling⟩ := not_or.mp ho
    exact hs.of_content hk (content?_of_place fun _ => hplace _ hpath hsibling)
  remove_ok {path d _ shown} h hs := by
    rcases remove_cases h with ⟨_, _, hplace⟩ | ⟨rfl, hmissing⟩
    · refine ⟨?_, .inl rfl⟩
      unfold content?
      split
      · rw [hplace, if_pos rfl]
        rfl
      · rfl
    · refine ⟨?_, .inl rfl⟩
      rcases hs.2 with hnone | ⟨way, hw⟩
      · exact hs.1.trans hnone
      · rcases hmissing rfl with ⟨fault, hf⟩ | hnothing
        · cases hw.symm.trans hf
        · unfold content?
          split
          · rw [hnothing]
            rfl
          · rfl
  remove_apart h ho hs := by
    rcases remove_cases h with ⟨_, hk, hplace⟩ | ⟨rfl, _⟩
    · refine hs.of_content hk (content?_of_place fun _ => ?_)
      rw [hplace, if_neg (not_or.mp ho).1]
    · exact hs

end Disk
end AfterAction
