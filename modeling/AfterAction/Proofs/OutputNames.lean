import AfterAction.Proofs.Fallback.Naming
import AfterAction.Proofs.Files.Places
import AfterAction.Proofs.Report.Naming

/-!
# Names of output files

A report and a fallback record are named in one way: words that underscores divide, a dot, and an
extension. No word has an underscore, a dot or a slash of its own, so a name is one part of a path,
and the words can be read back from it by dividing it again. The temporary name of a file keeps its
words. So two files whose run, second, kind or random part differ stand at two places, whatever their
directories are, and so do the temporary files they are written under.
-/

namespace AfterAction

/-- The name of a file that is kept: a report, or a fallback record. -/
inductive OutputName
  | report (runId : RunId) (stamped : Instant) (isPartial : Bool)
  | fallback (runId : RunId) (stamped : Instant) (suffix : UInt32)

namespace OutputName

/-- What a name tells. -/
inductive Label
  | report (runId stamp : String) (isPartial : Bool)
  | fallback (runId stamp : String) (suffix : UInt32)
  deriving DecidableEq, Repr

def label : OutputName → Label
  | report runId stamped isPartial => .report runId.text stamped.stamp isPartial
  | fallback runId stamped suffix => .fallback runId.text stamped.stamp suffix

def text : OutputName → String
  | report runId stamped isPartial => Registry.fileName runId.text stamped isPartial
  | fallback runId stamped suffix => Fallback.fileName stamped runId.text suffix

/-- What the words before the extension say, and the extension. -/
def Label.ofWords? (extension : String) : List String → Option Label
  | [kind, runId, date, clock] =>
    if kind = "report" ∧ extension = "pdf" then
      some (.report runId (date ++ "_" ++ clock) false)
    else none
  | [kind, first, second, third, fourth] =>
    if kind = "report" ∧ fourth = "partial" ∧ extension = "pdf" then
      some (.report first (second ++ "_" ++ third) true)
    else if kind = "fallback" ∧ extension = "json" then
      (Text.spelled 16 Text.hexDigit? fourth.toList).map fun n =>
        .fallback third (first ++ "_" ++ second) (.ofNat n)
    else none
  | _ => none

/-- Reads a name: its words stand between underscores, and its extension behind the one dot. -/
def read? (name : String) : Option Label :=
  match name.toList.splitOn '.' with
  | [stem, extension] =>
    Label.ofWords? (.ofList extension) ((stem.splitOn '_').map String.ofList)
  | _ => none

/-! ## Words -/

def words : OutputName → List String
  | report runId stamped isPartial =>
    ["report", runId.text, stamped.dateText "", stamped.clockText ""] ++
      if isPartial then ["partial"] else []
  | fallback runId stamped suffix =>
    ["fallback", stamped.dateText "", stamped.clockText "", runId.text, Fallback.suffixText suffix]

def extension : OutputName → String
  | report .. => "pdf"
  | fallback .. => "json"

def stem (n : OutputName) : List Char := ['_'].intercalate (n.words.map String.toList)

theorem toList_text (n : OutputName) : n.text.toList = n.stem ++ '.' :: n.extension.toList := by
  cases n with
  | report runId stamped isPartial =>
    cases isPartial <;>
      simp [text, stem, words, extension, Registry.fileName, Instant.stamp, List.intercalate]
  | fallback runId stamped suffix =>
    simp [text, stem, words, extension, Fallback.fileName, Instant.stamp, List.intercalate]

/-- What divides names and paths. -/
def IsDivider (c : Char) : Prop := c = '_' ∨ c = '.' ∨ c = '/'

theorem not_mem_runId {c : Char} (hc : IsDivider c) (runId : RunId) : c ∉ runId.text.toList := by
  rcases hc with rfl | rfl | rfl <;> exact RunId.not_mem runId.valid (by decide)

theorem not_mem_dateText {c : Char} (hc : IsDivider c) (t : Instant) :
    c ∉ (t.dateText "").toList := by
  intro hmem
  have hchar := Instant.isDigit_or_sign_of_mem_dateText hmem
  rcases hc with rfl | rfl | rfl <;> exact absurd hchar (by decide)

theorem not_mem_clockText {c : Char} (hc : IsDivider c) (t : Instant) :
    c ∉ (t.clockText "").toList := by
  intro hmem
  have hchar := Instant.isDigit_of_mem_clockText hmem
  rcases hc with rfl | rfl | rfl <;> exact absurd hchar (by decide)

theorem not_mem_suffixText {c : Char} (hc : IsDivider c) (suffix : UInt32) :
    c ∉ (Fallback.suffixText suffix).toList := by
  rcases hc with rfl | rfl | rfl <;> exact Fallback.not_mem_suffixText rfl suffix

/-- No word has a divider. -/
theorem not_mem_word {c : Char} (hc : IsDivider c) {n : OutputName} {word : String}
    (h : word ∈ n.words) : c ∉ word.toList := by
  have hreport : c ∉ "report".toList := by rcases hc with rfl | rfl | rfl <;> decide
  have hfallback : c ∉ "fallback".toList := by rcases hc with rfl | rfl | rfl <;> decide
  have hpartial : c ∉ "partial".toList := by rcases hc with rfl | rfl | rfl <;> decide
  cases n with
  | report runId stamped isPartial =>
    simp only [words, List.mem_append, List.mem_cons, List.not_mem_nil, or_false] at h
    rcases h with (rfl | rfl | rfl | rfl) | h
    · exact hreport
    · exact not_mem_runId hc runId
    · exact not_mem_dateText hc stamped
    · exact not_mem_clockText hc stamped
    · split at h
      · rw [List.mem_singleton.mp h]
        exact hpartial
      · cases h
  | fallback runId stamped suffix =>
    simp only [words, List.mem_cons, List.not_mem_nil, or_false] at h
    rcases h with rfl | rfl | rfl | rfl | rfl
    · exact hfallback
    · exact not_mem_dateText hc stamped
    · exact not_mem_clockText hc stamped
    · exact not_mem_runId hc runId
    · exact not_mem_suffixText hc suffix

theorem words_ne_nil (n : OutputName) : n.words ≠ [] := by
  cases n <;> simp [words]

theorem splitOn_stem (n : OutputName) : n.stem.splitOn '_' = n.words.map String.toList := by
  refine List.splitOn_intercalate '_' (fun word hword => ?_) (by simpa using n.words_ne_nil)
  obtain ⟨word, hmem, rfl⟩ := List.mem_map.mp hword
  exact not_mem_word (.inl rfl) hmem

theorem words_of_stem {n n' : OutputName} (h : n.stem = n'.stem) : n.words = n'.words := by
  have hwords := congrArg (List.splitOn '_') h
  rw [splitOn_stem, splitOn_stem] at hwords
  exact List.map_injective_iff.mpr (fun _ _ => String.toList_injective) hwords

theorem not_mem_intercalate {sep c : Char} {ls : List (List Char)} (hsep : c ≠ sep)
    (hls : ∀ l ∈ ls, c ∉ l) : c ∉ [sep].intercalate ls := by
  induction ls with
  | nil => simp
  | cons l rest ih =>
    have hl : c ∉ l := hls l List.mem_cons_self
    by_cases hrest : rest = []
    · rw [hrest, List.intercalate_singleton]
      exact hl
    · rw [List.intercalate_cons_of_ne_nil hrest]
      simp [hl, hsep, ih fun l hmem => hls l (List.mem_cons_of_mem _ hmem)]

theorem not_mem_stem {c : Char} (hc : IsDivider c) (hne : c ≠ '_') (n : OutputName) :
    c ∉ n.stem := by
  refine not_mem_intercalate hne fun word hword => ?_
  obtain ⟨word, hmem, rfl⟩ := List.mem_map.mp hword
  exact not_mem_word hc hmem

theorem dot_not_mem_stem (n : OutputName) : '.' ∉ n.stem :=
  not_mem_stem (.inr (.inl rfl)) (by decide) n

theorem slash_not_mem_stem (n : OutputName) : '/' ∉ n.stem :=
  not_mem_stem (.inr (.inr rfl)) (by decide) n

theorem dot_not_mem_extension (n : OutputName) : '.' ∉ n.extension.toList := by
  cases n with
  | report => exact (by decide : '.' ∉ "pdf".toList)
  | fallback => exact (by decide : '.' ∉ "json".toList)

theorem stem_ne_nil (n : OutputName) : n.stem ≠ [] := by
  cases n <;> simp [stem, words, List.intercalate]

/-! ## Reading -/

theorem splitOn_text (n : OutputName) :
    n.text.toList.splitOn '.' = [n.stem, n.extension.toList] := by
  rw [toList_text, List.splitOn_append_cons_self_of_not_mem n.dot_not_mem_stem,
    List.splitOn_eq_singleton n.dot_not_mem_extension]

/-- A name says what it was made of. -/
theorem read?_text (n : OutputName) : read? n.text = some n.label := by
  have hwords : (n.stem.splitOn '_').map String.ofList = n.words := by
    rw [splitOn_stem, List.map_map]
    exact (List.map_congr_left fun _ _ => String.ofList_toList).trans (List.map_id _)
  rw [read?, splitOn_text]
  simp only [hwords, String.ofList_toList]
  cases n with
  | report runId stamped isPartial =>
    cases isPartial <;> simp [Label.ofWords?, words, extension, label, Instant.stamp]
  | fallback runId stamped suffix =>
    simp [Label.ofWords?, words, extension, label, Instant.stamp, Fallback.spelled_suffixText]

/-- Signs in a run id are no dividers. -/
example : read? "report_op-live-0001_20241004_120000_partial.pdf" =
    some (.report "op-live-0001" "20241004_120000" true) := by
  decide +kernel

theorem text_of_label {n n' : OutputName} (h : n.label = n'.label) : n.text = n'.text := by
  cases n with
  | report runId stamped isPartial =>
    cases n' with
    | report runId' stamped' isPartial' =>
      obtain ⟨hrun, hstamp, hpartial⟩ := Label.report.inj h
      rw [text, text, Registry.fileName, Registry.fileName, hrun, hstamp, hpartial]
    | fallback => cases h
  | fallback runId stamped suffix =>
    cases n' with
    | report => cases h
    | fallback runId' stamped' suffix' =>
      obtain ⟨hrun, hstamp, hsuffix⟩ := Label.fallback.inj h
      rw [text, text, Fallback.fileName, Fallback.fileName, hrun, hstamp, hsuffix]

theorem text_inj {n n' : OutputName} : n.text = n'.text ↔ n.label = n'.label := by
  refine ⟨fun h => Option.some.inj ?_, text_of_label⟩
  rw [← read?_text, h, read?_text]

/-! ## Places -/

theorem lasting_text (n : OutputName) : Disk.Lasting n.text.toList := by
  cases n with
  | report runId stamped isPartial =>
    exact Registry.IsReportName.lasting ⟨runId.text, stamped, isPartial, runId.valid, rfl⟩
  | fallback runId stamped suffix => exact Fallback.lasting_fileName runId.valid

/-- The name that the file is written under first. -/
def temporary (n : OutputName) : String := .ofList (n.stem ++ '.' :: "tmp".toList)

theorem toList_temporary (n : OutputName) : n.temporary.toList = n.stem ++ '.' :: "tmp".toList :=
  String.toList_ofList

theorem name_temporary (n : OutputName) : Path.Name n.temporary.toList := by
  rw [toList_temporary]
  exact ⟨by simp [n.slash_not_mem_stem], by simp, fun h => by simpa using congrArg List.length h⟩

theorem sibling_text (n : OutputName) (directory : String) :
    Path.sibling (Path.join directory n.text) = Path.join directory n.temporary := by
  have hstem : n.stem ≠ ['.'] := fun h => n.dot_not_mem_stem (h ▸ List.mem_singleton_self _)
  exact Path.sibling_join directory n.lasting_text.toName n.toList_text n.dot_not_mem_extension
    n.stem_ne_nil hstem n.lasting_text.ne_up

theorem extension_of_words {n n' : OutputName} (h : n.words = n'.words) :
    n.extension = n'.extension := by
  cases n <;> cases n' <;> simp_all [words, extension]

/-- The temporary name keeps the words, so it tells as much. -/
theorem temporary_inj {n n' : OutputName} : n.temporary = n'.temporary ↔ n.label = n'.label := by
  constructor
  · intro h
    have hstem : n.stem = n'.stem := List.append_cancel_right (String.ofList_injective h)
    have hextension := extension_of_words (words_of_stem hstem)
    refine text_inj.mp (String.toList_inj.mp ?_)
    rw [toList_text, toList_text, hstem, hextension]
  · intro h
    have htext := congrArg String.toList (text_of_label h)
    rw [toList_text, toList_text] at htext
    obtain ⟨hstem, -⟩ := Text.append_cons_inj n.dot_not_mem_stem n'.dot_not_mem_stem htext
    rw [temporary, hstem, temporary]

theorem text_ne_temporary (n n' : OutputName) : n.text ≠ n'.temporary := by
  intro h
  refine n.lasting_text.not_temporary n'.stem ?_
  rw [h, toList_temporary]

/-- Places of paths, as far as an entry stands directly in its directory. -/
def Direct (place base : String → List String) : Prop := ∀ (directory name : String),
  Path.Name name.toList → place (Path.join directory name) = base directory ++ [name]

/-- Two files have one place only if their directories are one and their labels the same, and this
goes for their temporary files too; no file has the place of a temporary one. -/
structure Apart (place base : String → List String) (n n' : OutputName) : Prop where
  direct : ∀ directory, place (Path.join directory n.text) = base directory ++ [n.text]
  target_iff : ∀ directory directory',
    place (Path.join directory n.text) = place (Path.join directory' n'.text) ↔
      base directory = base directory' ∧ n.label = n'.label
  temporary_iff : ∀ directory directory',
    place (Path.sibling (Path.join directory n.text)) =
        place (Path.sibling (Path.join directory' n'.text)) ↔
      base directory = base directory' ∧ n.label = n'.label
  crossed : ∀ directory directory',
    place (Path.join directory n.text) ≠ place (Path.sibling (Path.join directory' n'.text))

theorem Direct.eq_iff {place base : String → List String} (h : Direct place base)
    {name name' : String} (hname : Path.Name name.toList) (hname' : Path.Name name'.toList)
    (directory directory' : String) :
    place (Path.join directory name) = place (Path.join directory' name') ↔
      base directory = base directory' ∧ name = name' := by
  rw [h directory name hname, h directory' name' hname']
  constructor
  · intro he
    obtain ⟨hbase, hlast⟩ := List.append_inj' he rfl
    exact ⟨hbase, List.singleton_inj.mp hlast⟩
  · rintro ⟨hbase, rfl⟩
    rw [hbase]

theorem Direct.apart {place base : String → List String} (h : Direct place base)
    (n n' : OutputName) : Apart place base n n' where
  direct directory := h directory n.text n.lasting_text.toName
  target_iff directory directory' := by
    rw [h.eq_iff n.lasting_text.toName n'.lasting_text.toName, text_inj]
  temporary_iff directory directory' := by
    rw [sibling_text, sibling_text, h.eq_iff n.name_temporary n'.name_temporary, temporary_inj]
  crossed directory directory' he := by
    rw [sibling_text, h.eq_iff n.lasting_text.toName n'.name_temporary] at he
    exact text_ne_temporary n n' he.2

/-- **Files of different runs never collide.** Any name is one part of a path and reads back to its
label; names are the same exactly if their labels are; and what has two labels is told apart by the
parts of its paths and by where a disk follows them, before it gets its name and after. -/
theorem outputs_apart (n n' : OutputName) :
    '/' ∉ n.text.toList ∧ read? n.text = some n.label ∧ (n.text = n'.text ↔ n.label = n'.label) ∧
      Apart Path.parts Path.parts n n' ∧ Apart Disk.wayOf Disk.wayInto n n' :=
  ⟨n.lasting_text.no_slash, read?_text n, text_inj,
    Direct.apart (fun directory _ h => Path.parts_join directory h) n n',
    Direct.apart (fun directory _ h => Disk.wayOf_join directory h) n n'⟩

end OutputName
end AfterAction
