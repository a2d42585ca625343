import AfterAction.Proofs.Files.Names
import AfterAction.Proofs.Files.Tree

/-!
# What the calls to a disk do

Each call that goes well changes what stands at one way or two, and directories stay. Names that
lead upwards are followed on the tree by the calls and as text by `walk`; the two agree wherever a
call goes well.
-/

namespace AfterAction.Disk

/-- Where names lead if all on the way are there. -/
def walk : List String → List String → List String
  | way, [] => way
  | way, name :: rest =>
    if name = "" ∨ name = "." then walk way rest
    else if name = ".." then walk way.dropLast rest
    else walk (way ++ [name]) rest

/-- Where a path leads with its last name. -/
def wayOf (path : String) : List String :=
  walk [] (target path).before ++ [(target path).last]

/-- Directories stay. -/
def Keeps (d d' : Disk) : Prop := ∀ way, d.place way = .directory → d'.place way = .directory

variable {d d' : Disk} {way way' : List String} {path source : String} {content : FileContent}

theorem follow_ok {names : List String} (h : d.follow way names = .ok way') :
    way' = walk way names ∧ d.place way' = .directory := by
  induction names generalizing way with
  | nil =>
    rw [follow] at h
    split at h
    · rename_i hd
      cases h
      exact ⟨rfl, isDirectory_iff.mp hd⟩
    · cases h
  | cons name rest ih =>
    rw [follow] at h
    rw [walk]
    split
    · rename_i hn
      rw [if_pos hn] at h
      exact ih h
    · rename_i hn
      rw [if_neg hn] at h
      split
      · rename_i hup
        rw [if_pos hup] at h
        exact ih h
      · rename_i hup
        rw [if_neg hup] at h
        split at h
        · cases h
        · split at h
          · exact ih h
          · cases h
          · cases h

theorem follow_mono (hk : Keeps d d') {names : List String} (h : d.follow way names = .ok way') :
    d'.follow way names = .ok way' := by
  induction names generalizing way with
  | nil =>
    rw [follow] at h ⊢
    split at h
    · rename_i hd
      rw [if_pos (isDirectory_iff.mpr (hk way (isDirectory_iff.mp hd)))]
      exact h
    · cases h
  | cons name rest ih =>
    rw [follow] at h ⊢
    split
    · rename_i hn
      rw [if_pos hn] at h
      exact ih h
    · rename_i hn
      rw [if_neg hn] at h
      split
      · rename_i hup
        rw [if_pos hup] at h
        exact ih h
      · rename_i hup
        rw [if_neg hup] at h
        split at h
        · cases h
        · rename_i hlong
          rw [if_neg hlong]
          split at h
          · rename_i entries hentries
            have hplace : d.place (way ++ [name]) = .directory := by rw [place, hentries]; rfl
            obtain ⟨entries', he⟩ := Place.of_eq_directory_iff.mp (hk _ hplace)
            rw [he]
            exact ih h
          · cases h
          · cases h

theorem holder_ok (h : d.holder path = .ok way) :
    way = walk [] (target path).before ∧ d.place way = .directory := by
  unfold holder at h
  split at h
  · cases h
  · split at h
    · cases h
    · split at h
      · cases h
      · exact follow_ok h

theorem holder_mono (hk : Keeps d d') (h : d.holder path = .ok way) :
    d'.holder path = .ok way := by
  unfold holder at h ⊢
  split at h
  · cases h
  · rename_i hempty
    rw [if_neg hempty]
    split at h
    · cases h
    · rename_i hzero
      rw [if_neg hzero]
      split at h
      · cases h
      · rename_i hlong
        rw [if_neg hlong]
        exact follow_mono hk h

/-! ## The calls -/

theorem bind_ok {α β : Type} {x : Except DiskFault α} {f : α → Except DiskFault β} {b : β}
    (h : x >>= f = .ok b) : ∃ a, x = .ok a ∧ f a = .ok b := by
  cases x with
  | error fault => cases h
  | ok a => exact ⟨a, rfl, h⟩

theorem entry_ok {name : String} {node : Option Node} (h : d.entry way name = .ok node) :
    node = d.node? (way ++ [name]) := by
  unfold entry at h
  split at h
  · cases h
  · cases h
    rfl

/-- Where no directory is, anything may come or go. -/
theorem keeps_of_place {f : List String → Place}
    (h : ∀ other, d'.place other = if other = way then f other else d.place other)
    (hway : d.place way ≠ .directory) : Keeps d d' := by
  intro other hd
  rw [h, if_neg]
  · exact hd
  · rintro rfl
    exact hway hd

theorem writeFile_ok (h : d.writeFile path content = .ok d') :
    (target path).named = true ∧ (∃ way, d.holder path = .ok way) ∧ Keeps d d' ∧
    ∀ other, d'.place other = if other = wayOf path then .file content else d.place other := by
  obtain ⟨way, hw, h⟩ := bind_ok h
  obtain ⟨rfl, hdir⟩ := holder_ok hw
  simp only at h
  split at h
  · cases h
  · rename_i hn
    obtain ⟨node, he, h⟩ := bind_ok h
    obtain rfl := entry_ok he
    have hold : d.place (wayOf path) ≠ .directory := by
      intro hd
      obtain ⟨entries, hentries⟩ := Place.of_eq_directory_iff.mp hd
      rw [wayOf] at hentries
      rw [hentries] at h
      cases h
    have hd' : d.put (walk [] (target path).before) (target path).last (.file content) = d' := by
      split at h
      · cases h
      · exact Except.ok.inj h
    have hplace : ∀ other, d'.place other =
        if other = wayOf path then .file content else d.place other := by
      rw [← hd']
      exact place_put (Node.bare_file content) hdir hold
    exact ⟨by simpa [Target.named] using hn, ⟨_, hw⟩, keeps_of_place hplace hold, hplace⟩

/-- A file gets a new name. -/
theorem rename_ok (h : d.rename source path = .ok d')
    (hsource : d.place (wayOf source) = .file content) :
    (target path).named = true ∧ (∃ way, d.holder path = .ok way) ∧ Keeps d d' ∧
    ∀ other, d'.place other = if other = wayOf path then .file content
      else if other = wayOf source then .nothing else d.place other := by
  obtain ⟨sourceWay, hs, h⟩ := bind_ok h
  obtain ⟨way, hw, h⟩ := bind_ok h
  obtain ⟨rfl, hsdir⟩ := holder_ok hs
  obtain ⟨rfl, hdir⟩ := holder_ok hw
  simp only at h
  split at h
  · cases h
  · rename_i hstanding
    obtain ⟨node, he, h⟩ := bind_ok h
    obtain rfl := (entry_ok he).trans (Place.of_eq_file_iff.mp hsource)
    obtain ⟨there, ht, h⟩ := bind_ok h
    obtain rfl := entry_ok ht
    split at h
    · cases h
    · rename_i hslash
      have hnamed : (target path).named = true := by
        simp only [Bool.or_eq_true, not_or, Bool.not_eq_true] at hstanding hslash
        simp [Target.named, hstanding.2, hslash.2]
      have hold : d.place (wayOf path) ≠ .directory := by
        intro hd
        obtain ⟨entries, hentries⟩ := Place.of_eq_directory_iff.mp hd
        rw [wayOf] at hentries
        rw [hentries] at h
        cases h
      have hplace : ∀ other, d'.place other = if other = wayOf path then .file content
          else if other = wayOf source then .nothing else d.place other := by
        intro other
        split at h
        · cases h
        · split at h
          · rename_i hsame
            have hways : wayOf source = wayOf path := by rw [wayOf, wayOf, hsame.1, hsame.2]
            cases h
            by_cases ho : other = wayOf path
            · rw [if_pos ho, ho, ← hways, hsource]
            · rw [if_neg ho, if_neg (hways ▸ ho)]
          · cases h
            exact place_move hsdir hsource hdir hold other
      refine ⟨hnamed, ⟨_, hw⟩, fun other hd => ?_, hplace⟩
      rw [hplace, if_neg, if_neg]
      · exact hd
      · rintro rfl
        rw [hsource] at hd
        cases hd
      · rintro rfl
        exact hold hd

/-- A file that was just written is found under the name it was written under. -/
theorem entry_written (h : d.writeFile path content = .ok d') :
    d'.holder path = .ok (walk [] (target path).before) ∧
    d'.entry (walk [] (target path).before) (target path).last = .ok (some (.file content)) := by
  obtain ⟨-, ⟨way, hw⟩, hkeeps, hplace⟩ := writeFile_ok h
  obtain ⟨rfl, -⟩ := holder_ok hw
  refine ⟨holder_mono hkeeps hw, ?_⟩
  have hnode := Place.of_eq_file_iff.mp ((hplace (wayOf path)).trans (if_pos rfl))
  obtain ⟨_, _, h⟩ := bind_ok h
  simp only at h
  split at h
  · cases h
  · obtain ⟨_, he, _⟩ := bind_ok h
    unfold entry at he ⊢
    split at he
    · cases he
    · rename_i hshort
      rw [if_neg hshort, ← wayOf, hnode]

/-- A file that was just written may get the name that it has. -/
theorem rename_self (h : d.writeFile path content = .ok d') : d'.rename path path = .ok d' := by
  obtain ⟨hnamed, -⟩ := writeFile_ok h
  obtain ⟨hholder, hentry⟩ := entry_written h
  obtain ⟨hstanding, hslash⟩ := Bool.and_eq_true_iff.mp hnamed
  simp only [Bool.not_eq_true'] at hstanding hslash
  simp [rename, bind, Except.bind, hholder, hstanding, hslash, hentry, pure, Except.pure]

/-- A file that was just written can be removed. -/
theorem exists_removeFile (h : d.writeFile path content = .ok d') :
    ∃ removed, d'.removeFile path = .ok removed := by
  obtain ⟨hnamed, -⟩ := writeFile_ok h
  obtain ⟨hholder, hentry⟩ := entry_written h
  obtain ⟨hstanding, hslash⟩ := Bool.and_eq_true_iff.mp hnamed
  simp only [Bool.not_eq_true'] at hstanding hslash
  simp [removeFile, bind, Except.bind, hholder, hstanding, hslash, hentry, pure, Except.pure]

theorem removeFile_ok (h : d.removeFile path = .ok d') :
    Keeps d d' ∧
    ∀ other, d'.place other = if other = wayOf path then .nothing else d.place other := by
  obtain ⟨way, hw, h⟩ := bind_ok h
  obtain ⟨rfl, hdir⟩ := holder_ok hw
  simp only at h
  split at h
  · cases h
  · rename_i hstanding
    obtain ⟨node, he, h⟩ := bind_ok h
    obtain rfl := entry_ok he
    split at h
    · cases h
    · cases h
    · rename_i content hnode
      split at h
      · cases h
      · rename_i hslash
        cases h
        have hold : d.place (wayOf path) ≠ .directory := by
          rw [place, wayOf, hnode]
          nofun
        have hplace := place_drop hdir hold
        exact ⟨keeps_of_place hplace hold, hplace⟩

/-- A file that is missed is not where the path leads, or its directory is not. -/
theorem removeFile_missing (h : d.removeFile path = .error .missing) :
    (∃ fault, d.holder path = .error fault) ∨ d.place (wayOf path) = .nothing := by
  cases hw : d.holder path with
  | error fault => exact .inl ⟨fault, rfl⟩
  | ok way =>
    obtain ⟨rfl, -⟩ := holder_ok hw
    refine .inr ?_
    simp only [removeFile, bind, Except.bind, hw, entry] at h
    split at h
    · cases h
    · by_cases hlong : nameLimit < (target path).last.utf8ByteSize
      · rw [if_pos hlong] at h
        cases h
      · rw [if_neg hlong, ← wayOf] at h
        cases hn : d.node? (wayOf path) with
        | none =>
          rw [place, hn]
          rfl
        | some node =>
          rw [hn] at h
          cases node with
          | directory entries => cases h
          | file content =>
            simp only at h
            split at h
            · cases h
            · cases h

/-! ## New directories -/

/-- Directories have been made where nothing was. -/
def Grown (d d' : Disk) : Prop := ∀ way,
  d'.place way = d.place way ∨ d.place way = .nothing ∧ d'.place way = .directory

theorem grown_refl (d : Disk) : Grown d d := fun _ => .inl rfl

theorem Grown.trans {d'' : Disk} (h : Grown d d') (h' : Grown d' d'') : Grown d d'' := by
  intro way
  rcases h way with hw | ⟨hnothing, hdir⟩
  · rcases h' way with hw' | ⟨hnothing, hdir⟩
    · exact .inl (hw'.trans hw)
    · exact .inr ⟨hw ▸ hnothing, hdir⟩
  · rcases h' way with hw' | ⟨hnothing', _⟩
    · exact .inr ⟨hnothing, hw'.trans hdir⟩
    · rw [hdir] at hnothing'
      cases hnothing'

theorem Grown.keeps (h : Grown d d') : Keeps d d' := by
  intro way hd
  rcases h way with hw | ⟨_, hdir⟩
  · exact hw.trans hd
  · exact hdir

theorem makeDirectory_grown (h : d.makeDirectory path = .ok d') : Grown d d' := by
  obtain ⟨way, hw, h⟩ := bind_ok h
  obtain ⟨rfl, hdir⟩ := holder_ok hw
  simp only at h
  split at h
  · cases h
  · obtain ⟨node, he, h⟩ := bind_ok h
    obtain rfl := entry_ok he
    split at h
    · cases h
    · rename_i hnone
      cases h
      have hold : d.place (wayOf path) = .nothing := by
        rw [place, wayOf, hnone]
        rfl
      intro other
      rw [place_put Node.bare_empty hdir (by rw [← wayOf, hold]; nofun)]
      split
      · rename_i ho
        exact .inr ⟨ho ▸ hold, rfl⟩
      · exact .inl rfl

theorem makeMissing_grown (paths : List String) (d : Disk) : Grown d (d.makeMissing paths).2 := by
  induction paths generalizing d with
  | nil => exact grown_refl d
  | cons path rest ih =>
    rw [makeMissing]
    split
    · rename_i d' hd
      exact (makeDirectory_grown hd).trans (ih d')
    · split
      · exact ih d
      · exact grown_refl d
    · exact grown_refl d

theorem makeUpwards_grown (below above : List String) (d : Disk) :
    Grown d (d.makeUpwards below above).2 := by
  induction above generalizing below d with
  | nil => exact makeMissing_grown below d
  | cons path above ih =>
    rw [makeUpwards]
    split
    · rename_i d' hd
      exact (makeDirectory_grown hd).trans (makeMissing_grown below d')
    · exact ih (path :: below) d
    · split
      · exact makeMissing_grown below d
      · exact grown_refl d
    · exact grown_refl d

theorem createDirectories_grown {answer : FileAnswer}
    (h : FileStore.createDirectories path d = (answer, d')) : Grown d d' := by
  have hg := makeUpwards_grown [] (Path.ancestors path) d
  simp only [FileStore.createDirectories, createDirectories] at h
  split at h
  · rename_i d'' hd
    cases h
    rwa [hd] at hg
  · rename_i fault d'' hd
    cases h
    rwa [hd] at hg

/-! ## Writes and removals -/

theorem Keeps.trans {d'' : Disk} (h : Keeps d d') (h' : Keeps d' d'') : Keeps d d'' :=
  fun way hd => h' way (h way hd)

theorem wayOf_sibling_ne (h : (target path).named = true) (hne : Path.sibling path ≠ path) :
    wayOf (Path.sibling path) ≠ wayOf path := by
  obtain ⟨hbefore, _, hlast⟩ := target_sibling h
  intro he
  rw [wayOf, wayOf, hbefore] at he
  exact hne (hlast (List.singleton_inj.mp (List.append_cancel_left he)))

theorem write_of_refused {fault : DiskFault}
    (h : d.writeFile (Path.sibling path) content = .error fault) :
    FileStore.write path content d = (answer .write (Path.sibling path) fault, d) := by
  simp only [FileStore.write, writeBy, draft, h]
  rfl

theorem write_of_renamed {written : Disk}
    (h : d.writeFile (Path.sibling path) content = .ok written)
    (h' : written.rename (Path.sibling path) path = .ok d') :
    FileStore.write path content d = (.ok, d') := by
  simp only [FileStore.write, writeBy, draft, h, attempt, publish, h']

theorem write_of_unnamed {written : Disk} {fault : DiskFault}
    (h : d.writeFile (Path.sibling path) content = .ok written)
    (h' : written.rename (Path.sibling path) path = .error fault) :
    FileStore.write path content d = (answer .rename path fault, written.discard path) := by
  simp only [FileStore.write, writeBy, draft, h, attempt, publish, h']
  rfl

/-- Nothing but the draft goes. -/
theorem discard_keeps (path : String) (d : Disk) : Keeps d (d.discard path) ∧
    ∀ other, other ≠ wayOf (Path.sibling path) → (d.discard path).place other = d.place other := by
  unfold discard
  cases hr : d.removeFile (Path.sibling path) with
  | error fault => exact ⟨fun _ h => h, fun _ _ => rfl⟩
  | ok removed =>
    obtain ⟨hkeeps, hplace⟩ := removeFile_ok hr
    exact ⟨hkeeps, fun other ho => (hplace other).trans (if_neg ho)⟩

/-- A write puts the file at its path and leaves nothing at the sibling, or it leaves the path as it
was. -/
theorem write_cases {answer : FileAnswer} (h : FileStore.write path content d = (answer, d')) :
    Keeps d d' ∧
    (∀ other, other ≠ wayOf path → other ≠ wayOf (Path.sibling path) →
      d'.place other = d.place other) ∧
    ((answer = .ok ∧ (target path).named = true ∧ (∃ way, d'.holder path = .ok way) ∧
      d'.place (wayOf path) = .file content) ∨
    (answer ≠ .ok ∧
      ((target path).named = true → d'.place (wayOf path) = d.place (wayOf path)))) := by
  cases hw : d.writeFile (Path.sibling path) content with
  | error fault =>
    cases (write_of_refused hw).symm.trans h
    exact ⟨fun _ h => h, fun _ _ _ => rfl, .inr ⟨nofun, fun _ => rfl⟩⟩
  | ok written =>
    obtain ⟨_, _, hkeeps, hplace⟩ := writeFile_ok hw
    have hfile := (hplace (wayOf (Path.sibling path))).trans (if_pos rfl)
    have hsame : ∀ other, other ≠ wayOf (Path.sibling path) →
        written.place other = d.place other := fun other ho => (hplace other).trans (if_neg ho)
    cases hr : written.rename (Path.sibling path) path with
    | ok renamed =>
      cases (write_of_renamed hw hr).symm.trans h
      obtain ⟨hnamed, ⟨way, hway⟩, hkeeps', hplace'⟩ := rename_ok hr hfile
      refine ⟨hkeeps.trans hkeeps', fun other ho ho' => ?_, .inl ⟨rfl, hnamed, ?_, ?_⟩⟩
      · rw [hplace', if_neg ho, if_neg ho', hsame other ho']
      · exact ⟨way, holder_mono hkeeps' hway⟩
      · rw [hplace', if_pos rfl]
    | error fault =>
      cases (write_of_unnamed hw hr).symm.trans h
      have hback := discard_keeps path written
      refine ⟨hkeeps.trans hback.1, fun other _ ho => (hback.2 other ho).trans (hsame other ho),
        .inr ⟨nofun, fun hnamed => ?_⟩⟩
      have hne : Path.sibling path ≠ path := by
        intro he
        rw [he] at hw hr
        cases (rename_self hw).symm.trans hr
      have hways := Ne.symm (wayOf_sibling_ne hnamed hne)
      rw [hback.2 _ hways, hsame _ hways]

theorem remove_cases {answer : FileAnswer} (h : FileStore.remove path d = (answer, d')) :
    (answer = .ok ∧ Keeps d d' ∧
      ∀ other, d'.place other = if other = wayOf path then .nothing else d.place other) ∨
    (d' = d ∧ (answer = .ok → (∃ fault, d.holder path = .error fault) ∨
      d.place (wayOf path) = .nothing)) := by
  simp only [FileStore.remove] at h
  split at h
  · rename_i removed hr
    cases h
    exact .inl ⟨rfl, removeFile_ok hr⟩
  · rename_i hr
    cases h
    exact .inr ⟨rfl, fun _ => removeFile_missing hr⟩
  · cases h
    exact .inr ⟨rfl, nofun⟩

end AfterAction.Disk
