import AfterAction.Proofs.Files.Disk
import Mathlib.Data.List.Basic

/-!
# Where the entries of a directory stand

Paths are compared part by part, and a disk follows their names. Either way an entry stands directly
in its directory, its own name last; and so does the sibling it is written under first. So what is
told apart by name is told apart by place, whatever the directories are.
-/

namespace AfterAction

namespace Path

variable {before rest name stem extension : List Char}

/-- The parts of a path up to a slash, and behind it. -/
theorem parts_slash (hrest : '/' ∉ rest) : parts (.ofList (before ++ '/' :: rest)) =
    (if (before ++ ['/']).head? = some '/' then ["/"] else []) ++
      (if (before.splitOn '/').head? = some ['.'] then ["."] else []) ++
      ((before.splitOn '/').filter (!isNothing ·)).map String.ofList ++
      ([rest].filter (!isNothing ·)).map String.ofList := by
  have hpieces : (before ++ '/' :: rest).splitOn '/' = before.splitOn '/' ++ [rest] := by
    rw [List.splitOn_append_cons_self, List.splitOn_eq_singleton hrest]
  have hhead : (before ++ '/' :: rest).head? = (before ++ ['/']).head? := by
    cases before <;> rfl
  simp only [parts, pieces, String.toList_ofList, hpieces, hhead,
    List.head?_append_of_ne_nil _ (List.splitOn_ne_nil '/' before), List.filter_append,
    List.map_append, List.append_assoc]

theorem parts_concat (h : Name name) : parts (.ofList (before ++ '/' :: name)) =
    parts (.ofList (before ++ ['/'])) ++ [.ofList name] := by
  have hkeep : [name].filter (!isNothing ·) = [name] := by
    simp [isNothing, h.ne_nil, h.ne_dot]
  rw [parts_slash h.no_slash, parts_slash (List.not_mem_nil), hkeep]
  simp [isNothing]

/-- A slash at the end adds nothing. -/
theorem parts_trailing (h : before ≠ []) :
    parts (.ofList (before ++ ['/'])) = parts (.ofList before) := by
  rw [parts_slash (List.not_mem_nil), List.head?_append_of_ne_nil _ h]
  simp [parts, pieces, isNothing]

theorem parts_of_name (h : Name name) : parts (.ofList name) = [.ofList name] := by
  have hhead : name.head? ≠ some '/' := fun he => h.no_slash (List.mem_of_mem_head? he)
  simp [parts, pieces, List.splitOn_eq_singleton h.no_slash, hhead, isNothing, h.ne_nil, h.ne_dot]

/-- An entry stands directly in its directory. -/
theorem parts_join (directory : String) {name : String} (h : Name name.toList) :
    parts (join directory name) = parts directory ++ [name] := by
  have hname : String.ofList name.toList = name := String.ofList_toList
  unfold join
  split
  · rename_i hd
    rcases hd with rfl | hd
    · rw [String.empty_append, ← hname, parts_of_name h]
      rfl
    · obtain ⟨before, hbefore⟩ := List.getLast?_eq_some_iff.mp hd
      have hdirectory : directory = .ofList (before ++ ['/']) := by
        rw [← hbefore, String.ofList_toList]
      have hpath : directory ++ name = .ofList (before ++ '/' :: name.toList) := by
        refine String.toList_inj.mp ?_
        simp [hbefore]
      rw [hpath, parts_concat h, hname, ← hdirectory]
  · rename_i hd
    obtain ⟨hne, -⟩ := not_or.mp hd
    have hpath : directory ++ "/" ++ name = .ofList (directory.toList ++ '/' :: name.toList) := by
      refine String.toList_inj.mp ?_
      simp
    have hdirectory : directory.toList ≠ [] := by simpa using hne
    rw [hpath, parts_concat h, parts_trailing hdirectory, hname, String.ofList_toList]

/-- The sibling of an entry is the entry of its temporary name. -/
theorem sibling_join (directory : String) {name : String} (h : Name name.toList)
    (hname : name.toList = stem ++ '.' :: extension) (hdot : '.' ∉ extension) (hne : stem ≠ [])
    (hstem : stem ≠ ['.']) (hup : name.toList ≠ ['.', '.']) :
    sibling (join directory name) = join directory (.ofList (stem ++ '.' :: "tmp".toList)) := by
  obtain ⟨before, hlead, hjoin⟩ := exists_lead_join directory
  have hsplit : splitExtension name.toList = (stem, some extension) :=
    hname ▸ splitExtension_append hne hdot
  have hstem' : (splitExtension name.toList).1 ≠ ['.'] := by rwa [hsplit]
  have htemporary : (String.ofList (stem ++ '.' :: "tmp".toList)).toList =
      stem ++ '.' :: "tmp".toList := String.toList_ofList
  rw [hjoin, hjoin, sibling_concat hlead h hup (congrArg Prod.snd hsplit) hstem', hsplit,
    htemporary]

end Path

namespace Disk

open AfterAction.Path

theorem walk_append (way names names' : List String) :
    walk way (names ++ names') = walk (walk way names) names' := by
  induction names generalizing way with
  | nil => rfl
  | cons name rest ih =>
    rw [List.cons_append, walk, walk]
    split
    · exact ih way
    · split
      · exact ih way.dropLast
      · exact ih (way ++ [name])

/-- Where a path of directories leads. -/
def wayInto (directory : String) : List String := walk [] ((pieces directory).map String.ofList)

theorem wayOf_concat {before name : List Char} (hb : Lead before) (h : Name name) :
    wayOf (.ofList (before ++ name)) =
      walk [] ((before.splitOn '/').map String.ofList) ++ [.ofList name] := by
  rw [wayOf, target_concat hb h.no_slash h.ne_nil]

/-- A disk follows the directory's path, and then the name. -/
theorem wayOf_join (directory : String) {name : String} (h : Name name.toList) :
    wayOf (join directory name) = wayInto directory ++ [name] := by
  have hname : String.ofList name.toList = name := String.ofList_toList
  unfold join
  split
  · rename_i hd
    have hlead : Lead directory.toList := hd.imp (fun he => by rw [he]; rfl) id
    have hpath : directory ++ name = .ofList (directory.toList ++ name.toList) := by
      rw [← String.toList_append, String.ofList_toList]
    rw [hpath, wayOf_concat hlead h, hname, wayInto, pieces]
  · have hlead : Lead (directory.toList ++ ['/']) := .inr (by simp)
    have hpath : directory ++ "/" ++ name =
        .ofList ((directory.toList ++ ['/']) ++ name.toList) := by
      refine String.toList_inj.mp ?_
      simp
    -- the slash between the two leaves an empty name, which leads nowhere
    rw [hpath, wayOf_concat hlead h, hname, List.splitOn_append_cons_self, List.map_append,
      walk_append, wayInto, pieces]
    rfl

end Disk
end AfterAction
