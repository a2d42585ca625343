import AfterAction.Proofs.Files.Disk
import AfterAction.RunId

/-!
# Names of kept files

A name made of parts is read apart at the separators that its parts do not have. A file of a lasting
name is written under a temporary one first, and no lasting name is temporary: so in one directory,
files of two lasting names have nothing in common.
-/

namespace AfterAction

theorem RunId.allowed_of_mem {runId : String} (h : RunId.wellFormed runId = true) {c : Char}
    (hc : c ∈ runId.toList) : RunId.allowed c = true := by
  simp only [RunId.wellFormed, Bool.and_eq_true] at h
  exact List.all_eq_true.mp h.2 c hc

/-- No character of a run id separates it from what stands beside it. -/
theorem RunId.not_mem {runId : String} (h : RunId.wellFormed runId = true) {c : Char}
    (hc : RunId.allowed c = false) : c ∉ runId.toList := by
  intro hmem
  rw [RunId.allowed_of_mem h hmem] at hc
  cases hc

namespace Text

variable {c : Char} {before before' rest rest' : List Char}

/-- What stands before the first of a separator, and what behind it. -/
theorem append_cons_inj (h : c ∉ before) (h' : c ∉ before')
    (he : before ++ c :: rest = before' ++ c :: rest') : before = before' ∧ rest = rest' := by
  induction before generalizing before' with
  | nil =>
    cases before' with
    | nil => exact ⟨rfl, (List.cons.inj he).2⟩
    | cons d before' => exact absurd List.mem_cons_self ((List.cons.inj he).1 ▸ h')
  | cons d before ih =>
    cases before' with
    | nil => exact absurd List.mem_cons_self ((List.cons.inj he).1 ▸ h)
    | cons d' before' =>
      obtain ⟨rfl, htail⟩ := List.cons.inj he
      obtain ⟨rfl, hrest⟩ :=
        ih (List.not_mem_of_not_mem_cons h) (List.not_mem_of_not_mem_cons h') htail
      exact ⟨rfl, hrest⟩

/-- What stands before the last of a separator, and what behind it. -/
theorem append_cons_inj_last (h : c ∉ rest) (h' : c ∉ rest')
    (he : before ++ c :: rest = before' ++ c :: rest') : before = before' ∧ rest = rest' := by
  have hreverse := congrArg List.reverse he
  simp only [List.reverse_append, List.reverse_cons, List.append_assoc,
    List.singleton_append] at hreverse
  obtain ⟨hrest, hbefore⟩ := append_cons_inj (mt List.mem_reverse.mp h) (mt List.mem_reverse.mp h')
    hreverse
  exact ⟨List.reverse_inj.mp hbefore, List.reverse_inj.mp hrest⟩

end Text

namespace Disk

open AfterAction.Path

/-- A name that a file may keep: no name of a directory, and none of those that files are written
under first. -/
structure Lasting (name : List Char) : Prop extends Path.Name name where
  ne_up : name ≠ ['.', '.']
  not_temporary (stem : List Char) : name ≠ stem ++ '.' :: "tmp".toList

theorem lasting_of_last {name : List Char} {c : Char} (hslash : '/' ∉ name)
    (hlast : name.getLast? = some c) (hdot : c ≠ '.') (hp : c ≠ 'p') : Lasting name where
  no_slash := hslash
  ne_nil := by
    rintro rfl
    cases hlast
  ne_dot := by
    rintro rfl
    exact hdot (Option.some.inj hlast).symm
  ne_up := by
    rintro rfl
    exact hdot (Option.some.inj hlast).symm
  not_temporary stem := by
    rintro rfl
    rw [List.getLast?_append] at hlast
    exact hp (Option.some.inj hlast).symm

variable {directory name name' : String}

/-- An entry with a lasting name is no temporary file of the directory, not even its own. -/
theorem Lasting.ne_sibling (h : Lasting name.toList) (h' : Lasting name'.toList)
    (directory : String) :
    wayOf (join directory name') ≠ wayOf (sibling (join directory name)) := by
  obtain ⟨before, hlead, hjoin⟩ := exists_lead_join directory
  obtain ⟨sib, hsib, hslash, hnil, hkind⟩ := exists_sibling hlead h.toName h.ne_up
  rw [hjoin, hjoin, hsib, wayOf, wayOf, target_concat hlead h'.no_slash h'.ne_nil,
    target_concat hlead hslash hnil]
  intro he
  have hsame := String.ofList_injective (List.singleton_inj.mp (List.append_cancel_left he))
  rcases hkind with rfl | ⟨stem, rfl⟩
  · exact h'.ne_up hsame
  · exact h'.not_temporary stem hsame

theorem Lasting.wayOf_inj (h : Lasting name.toList) (h' : Lasting name'.toList) :
    wayOf (join directory name) = wayOf (join directory name') ↔ name = name' := by
  constructor
  · obtain ⟨before, hlead, hjoin⟩ := exists_lead_join directory
    rw [hjoin, hjoin, wayOf, wayOf, target_concat hlead h.no_slash h.ne_nil,
      target_concat hlead h'.no_slash h'.ne_nil]
    intro he
    exact String.toList_inj.mp
      (String.ofList_injective (List.singleton_inj.mp (List.append_cancel_left he)))
  · rintro rfl
    rfl

end Disk
end AfterAction
