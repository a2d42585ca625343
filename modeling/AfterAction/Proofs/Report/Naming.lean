import AfterAction.Proofs.Files.Naming
import AfterAction.Proofs.Files.View
import AfterAction.Proofs.Time.Stamps
import AfterAction.Report.Registry

/-!
# The names of report files

A report's name holds its run, the second in which it was named, and whether it is partial, and
nothing else: each of the three can be read off the name, so two reports have one name exactly if
they agree in all of them. On disk a report is written under a temporary name first, which is no
report's name.
-/

namespace AfterAction

namespace Registry

/-! ## Names -/

/-- What follows the stamp. -/
def ending (isPartial : Bool) : List Char :=
  (if isPartial then "_partial" else "").toList ++ ".pdf".toList

theorem toList_fileName (runId : String) (now : Instant) (isPartial : Bool) :
    (fileName runId now isPartial).toList =
      "report_".toList ++ (runId.toList ++ '_' :: (now.stamp.toList ++ ending isPartial)) := by
  simp [fileName, ending, List.append_assoc]

theorem stamp_ending_inj {now now' : Instant} {isPartial isPartial' : Bool}
    (h : now.stamp.toList ++ ending isPartial = now'.stamp.toList ++ ending isPartial') :
    now.stamp = now'.stamp ∧ isPartial = isPartial' := by
  -- the mark of a partial report has letters, and a stamp has none
  have hmark : ∀ t t' : Instant, t.stamp.toList ++ ending true ≠ t'.stamp.toList ++ ending false := by
    intro t t' he
    simp only [ending, if_true, Bool.false_eq_true, if_false, ← List.append_assoc] at he
    have hstamp : t.stamp.toList ++ "_partial".toList = t'.stamp.toList := by
      simpa using List.append_cancel_right he
    have hp : 'p' ∈ t'.stamp.toList := by
      rw [← hstamp]
      exact List.mem_append_right _ (by decide)
    exact absurd (Instant.stampChar_of_stamp hp) (by decide)
  cases isPartial with
  | false =>
    cases isPartial' with
    | false => exact ⟨String.toList_inj.mp (List.append_cancel_right h), rfl⟩
    | true => exact absurd h.symm (hmark _ _)
  | true =>
    cases isPartial' with
    | false => exact absurd h (hmark _ _)
    | true => exact ⟨String.toList_inj.mp (List.append_cancel_right h), rfl⟩

/-- Two reports have one name exactly if run, second and kind are the same. -/
theorem fileName_inj {runId runId' : String} (hgood : RunId.wellFormed runId = true)
    (hgood' : RunId.wellFormed runId' = true) {now now' : Instant} {isPartial isPartial' : Bool} :
    fileName runId now isPartial = fileName runId' now' isPartial' ↔
      runId = runId' ∧ now.stamp = now'.stamp ∧ isPartial = isPartial' := by
  constructor
  · intro h
    have hlist := congrArg String.toList h
    rw [toList_fileName, toList_fileName, List.append_right_inj] at hlist
    obtain ⟨hrun, hrest⟩ := Text.append_cons_inj (RunId.not_mem hgood (by decide))
      (RunId.not_mem hgood' (by decide)) hlist
    exact ⟨String.toList_inj.mp hrun, stamp_ending_inj hrest⟩
  · rintro ⟨rfl, hstamp, rfl⟩
    rw [fileName, fileName, hstamp]

/-- The name of some report. -/
def IsReportName (name : String) : Prop :=
  ∃ runId now isPartial, RunId.wellFormed runId = true ∧ name = fileName runId now isPartial

variable {directory name name' : String}

theorem IsReportName.ends (h : IsReportName name) : ∃ stem, name.toList = stem ++ ".pdf".toList := by
  obtain ⟨runId, now, isPartial, -, rfl⟩ := h
  rw [toList_fileName, ending]
  exact ⟨"report_".toList ++ (runId.toList ++ '_' :: (now.stamp.toList ++
    (if isPartial then "_partial" else "").toList)), by simp⟩

theorem IsReportName.no_slash (h : IsReportName name) : '/' ∉ name.toList := by
  obtain ⟨runId, now, isPartial, hgood, rfl⟩ := h
  rw [toList_fileName]
  intro hmem
  rcases List.mem_append.mp hmem with hmem | hmem
  · exact absurd hmem (by decide)
  · rcases List.mem_append.mp hmem with hmem | hmem
    · exact absurd (RunId.allowed_of_mem hgood hmem) (by decide)
    · rcases List.mem_cons.mp hmem with hmem | hmem
      · cases hmem
      · rcases List.mem_append.mp hmem with hmem | hmem
        · exact absurd (Instant.stampChar_of_stamp hmem) (by decide)
        · cases isPartial with
          | false => exact absurd hmem (by decide)
          | true => exact absurd hmem (by decide)

theorem IsReportName.lasting (h : IsReportName name) : Disk.Lasting name.toList := by
  obtain ⟨stem, hs⟩ := h.ends
  have hlast : name.toList.getLast? = some 'f' := by
    rw [hs, List.getLast?_append]
    rfl
  exact Disk.lasting_of_last h.no_slash hlast (by decide) (by decide)

/-! ## Files of reports -/

/-- What is written or removed under one report's name shows under no other's. -/
def NamesApart (σ : Type) [FileStore σ] [FileView σ] : Prop :=
  ∀ directory name name', IsReportName name → IsReportName name' → name ≠ name' →
    ¬ FileView.touches σ (Path.join directory name) (Path.join directory name')

theorem namesApart_memory : NamesApart MemoryFiles := by
  intro directory name name' _ _ hne htouches
  exact hne (Path.join_inj.mp htouches.symm)

theorem namesApart_disk : NamesApart Disk := by
  intro directory name name' hname hname' hne htouches
  rcases htouches with hsame | htemporary
  · exact hne ((hname'.lasting.wayOf_inj hname.lasting).mp hsame).symm
  · exact hname.lasting.ne_sibling hname'.lasting directory htemporary

end Registry
end AfterAction
