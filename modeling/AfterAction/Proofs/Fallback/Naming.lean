import AfterAction.Proofs.Fallback.Records
import AfterAction.Proofs.Files.Naming
import AfterAction.Proofs.Time.Stamps

/-!
# The names of fallback records

Neither the random part of a record's name nor a run id has an underscore; so both can be read off
the end of the name, and the stamp is what is left. Two records share a name exactly if run, second
and random part are the same.
-/

namespace AfterAction.Fallback

open Text

theorem toList_suffixText (suffix : UInt32) :
    (suffixText suffix).toList = filled 16 8 suffix.toNat :=
  String.toList_ofList

theorem spelled_suffixText (suffix : UInt32) :
    spelled 16 hexDigit? (suffixText suffix).toList = some suffix.toNat := by
  rw [toList_suffixText]
  exact spelled_filled (by decide) hexDigit?_digitChar 8 suffix.toNat

theorem suffixText_inj {suffix suffix' : UInt32} :
    (suffixText suffix).toList = (suffixText suffix').toList ↔ suffix = suffix' := by
  constructor
  · intro h
    refine UInt32.toNat_inj.mp (Option.some.inj ?_)
    rw [← spelled_suffixText, h, spelled_suffixText]
  · rintro rfl
    rfl

theorem not_mem_suffixText {c : Char} (hc : hexDigit? c = none) (suffix : UInt32) :
    c ∉ (suffixText suffix).toList := by
  intro hmem
  obtain ⟨d, hd⟩ := exists_digit_of_spelled (spelled_suffixText suffix) hmem
  cases hc.symm.trans hd

theorem toList_fileName (now : Instant) (runId : String) (suffix : UInt32) :
    (fileName now runId suffix).toList = "fallback_".toList ++
      ((now.stamp.toList ++ '_' :: runId.toList) ++ '_' :: (suffixText suffix).toList) ++
        ".json".toList := by
  simp [fileName]

variable {now now' : Instant} {runId runId' : String} {suffix suffix' : UInt32}

/-- Two records have one name exactly if second, run and random part are the same. -/
theorem fileName_inj (hgood : RunId.wellFormed runId = true)
    (hgood' : RunId.wellFormed runId' = true) :
    fileName now runId suffix = fileName now' runId' suffix' ↔
      now.stamp = now'.stamp ∧ runId = runId' ∧ suffix = suffix' := by
  constructor
  · intro h
    have hlist := congrArg String.toList h
    rw [toList_fileName, toList_fileName, List.append_left_inj, List.append_right_inj] at hlist
    -- the stamp has an underscore of its own, so the parts come off from the last to the first
    obtain ⟨hlist, hsuffix⟩ := append_cons_inj_last (not_mem_suffixText rfl _)
      (not_mem_suffixText rfl _) hlist
    obtain ⟨hstamp, hrun⟩ := append_cons_inj_last (RunId.not_mem hgood (by decide))
      (RunId.not_mem hgood' (by decide)) hlist
    exact ⟨String.toList_inj.mp hstamp, String.toList_inj.mp hrun, suffixText_inj.mp hsuffix⟩
  · rintro ⟨hstamp, rfl, rfl⟩
    rw [fileName, fileName, hstamp]

theorem not_mem_fileName (hgood : RunId.wellFormed runId = true) :
    '/' ∉ (fileName now runId suffix).toList := by
  rw [toList_fileName]
  simp only [List.mem_append, List.mem_cons, not_or]
  refine ⟨⟨by decide, ⟨?_, by decide, RunId.not_mem hgood (by decide)⟩, by decide,
    not_mem_suffixText rfl suffix⟩, by decide⟩
  intro hmem
  exact absurd (Instant.stampChar_of_stamp hmem) (by decide)

theorem lasting_fileName (hgood : RunId.wellFormed runId = true) :
    Disk.Lasting (fileName now runId suffix).toList := by
  have hlast : (fileName now runId suffix).toList.getLast? = some 'n' := by
    rw [toList_fileName, List.getLast?_append]
    rfl
  exact Disk.lasting_of_last (not_mem_fileName hgood) hlast (by decide) (by decide)

end AfterAction.Fallback
