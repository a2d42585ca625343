import AfterAction.Files.Disk

/-!
# Last names

A path is a lead and a last name. What a disk takes for the two is what a path is taken apart into,
and the sibling of a path has the same lead: so the two stand in one directory.
-/

namespace AfterAction

namespace Path

/-- The text before a last name: nothing, or something up to a slash. -/
def Lead (before : List Char) : Prop := before = [] ∨ before.getLast? = some '/'

/-- A last name that is not passed over and does not lead upwards. -/
structure Name (name : List Char) : Prop where
  no_slash : '/' ∉ name
  ne_nil : name ≠ []
  ne_dot : name ≠ ['.']

variable {before name : List Char}

/-- What stands before the name of an entry of a directory. -/
theorem exists_lead_join (directory : String) :
    ∃ before, Lead before ∧ ∀ name, join directory name = .ofList (before ++ name.toList) := by
  by_cases h : directory = "" ∨ directory.toList.getLast? = some '/'
  · refine ⟨directory.toList, h.imp (fun he => by rw [he]; rfl) id, fun name => ?_⟩
    rw [join, if_pos h, ← String.toList_append, String.ofList_toList]
  · refine ⟨directory.toList ++ ['/'], .inr (by simp), fun name => ?_⟩
    rw [join, if_neg h]
    refine String.toList_inj.mp ?_
    simp

/-- In one directory, entries of two names have two paths. -/
theorem join_inj {directory name name' : String} : join directory name = join directory name' ↔
    name = name' := by
  obtain ⟨before, -, hjoin⟩ := exists_lead_join directory
  rw [hjoin, hjoin, String.ofList_inj, List.append_right_inj, String.toList_inj]

theorem takeWhile_lead (hb : Lead before) (hn : '/' ∉ name) :
    (before ++ name).reverse.takeWhile (· != '/') = name.reverse := by
  have hall : ∀ c ∈ name.reverse, (c != '/') = true := by
    intro c hc
    have hne : c ≠ '/' := fun he => hn (he ▸ List.mem_reverse.mp hc)
    simpa using hne
  rw [List.reverse_append, List.takeWhile_append_of_pos hall]
  rcases hb with rfl | hb
  · simp
  · rw [← List.head?_reverse] at hb
    obtain ⟨rest, hr⟩ := List.head?_eq_some_iff.mp hb
    simp [hr]

theorem dropWhile_lead (hb : Lead before) (hn : '/' ∉ name) :
    (before ++ name).reverse.dropWhile (· != '/') = before.reverse := by
  have h : (before ++ name).reverse.takeWhile (· != '/') ++
      (before ++ name).reverse.dropWhile (· != '/') = (before ++ name).reverse :=
    List.takeWhile_append_dropWhile
  rw [takeWhile_lead hb hn] at h
  exact List.append_cancel_left (h.trans List.reverse_append)

/-- Every path has a lead and a last name. -/
theorem exists_lead (path : List Char) :
    ∃ before name, path = before ++ name ∧ Lead before ∧ '/' ∉ name := by
  refine ⟨(path.reverse.dropWhile (· != '/')).reverse, (path.reverse.takeWhile (· != '/')).reverse,
    ?_, ?_, ?_⟩
  · rw [← List.reverse_append, List.takeWhile_append_dropWhile, List.reverse_reverse]
  · cases hd : path.reverse.dropWhile (· != '/') with
    | nil => exact .inl rfl
    | cons c rest =>
      have hne : path.reverse.dropWhile (· != '/') ≠ [] := by simp [hd]
      have hc := List.head_dropWhile_not (· != '/') hne
      simp only [hd, List.head_cons] at hc
      refine .inr ?_
      rw [List.getLast?_reverse, List.head?_cons]
      simpa using hc
  · intro h
    have hall : (path.reverse.takeWhile (· != '/')).all (· != '/') = true := List.all_takeWhile
    have hc := List.all_eq_true.mp hall '/' (List.mem_reverse.mp h)
    simp at hc

theorem passOver_concat (h : Name name) :
    passOver (before ++ name).reverse = (before ++ name).reverse := by
  have hno : ∀ c ∈ name.reverse, c ≠ '/' := fun c hc he => h.no_slash (he ▸ List.mem_reverse.mp hc)
  rw [List.reverse_append]
  cases hr : name.reverse with
  | nil => exact absurd (List.reverse_eq_nil_iff.mp hr) h.ne_nil
  | cons c rest =>
    rw [hr] at hno
    have hc : c ≠ '/' := hno c List.mem_cons_self
    cases rest with
    | nil =>
      have hdot : c ≠ '.' := by
        rintro rfl
        exact h.ne_dot (by rw [← List.reverse_reverse name, hr]; rfl)
      rw [List.singleton_append, passOver]
      · exact fun rest he => hc (List.cons.inj he).1
      · exact fun rest he => hdot (List.cons.inj he).1
    | cons c' rest =>
      have hc' : c' ≠ '/' := hno c' (List.mem_cons_of_mem _ List.mem_cons_self)
      rw [List.cons_append, List.cons_append, passOver]
      · exact fun rest he => hc (List.cons.inj he).1
      · exact fun rest he => hc' (List.cons.inj (List.cons.inj he).2).1

theorem splitLast_concat (hb : Lead before) (h : Name name) :
    splitLast (before ++ name) = (before, name) := by
  simp only [splitLast, passOver_concat h, takeWhile_lead hb h.no_slash,
    dropWhile_lead hb h.no_slash, List.reverse_reverse]

theorem fileName?_concat (hb : Lead before) (h : Name name) (hup : name ≠ ['.', '.']) :
    fileName? (.ofList (before ++ name)) = some name := by
  simp only [fileName?, String.toList_ofList, splitLast_concat hb h]
  rw [if_neg]
  rintro (hn | hn | hn)
  · exact h.ne_nil hn
  · exact h.ne_dot hn
  · exact hup hn

theorem fileName?_up (hb : Lead before) : fileName? (.ofList (before ++ ['.', '.'])) = none := by
  have h : Name ['.', '.'] := ⟨by simp, by simp, by simp⟩
  simp only [fileName?, String.toList_ofList, splitLast_concat hb h]
  simp

theorem setExtension_concat (hb : Lead before) (h : Name name) (hup : name ≠ ['.', '.'])
    (extension : String) :
    setExtension (.ofList (before ++ name)) extension =
      .ofList (before ++ (splitExtension name).1 ++ '.' :: extension.toList) := by
  simp only [setExtension, fileName?_concat hb h hup, String.toList_ofList, splitLast_concat hb h]

theorem splitExtension_of_none (h : (splitExtension name).2 = none) :
    (splitExtension name).1 = name := by
  simp only [splitExtension] at h ⊢
  split at h
  · rename_i hr
    rw [if_pos hr]
  · cases h

theorem splitExtension_of_some {extension : List Char}
    (h : (splitExtension name).2 = some extension) :
    (splitExtension name).1 ≠ [] ∧ name = (splitExtension name).1 ++ '.' :: extension := by
  simp only [splitExtension] at h ⊢
  split at h
  · cases h
  · rename_i hr
    rw [if_neg hr]
    refine ⟨hr, ?_⟩
    obtain rfl := Option.some.inj h
    have hd : name.reverse.dropWhile (· != '.') ≠ [] := fun he => hr (by rw [he]; rfl)
    obtain ⟨c, rest, hc⟩ := List.exists_cons_of_ne_nil hd
    have hdot := List.head_dropWhile_not (· != '.') hd
    simp only [hc, List.head_cons] at hdot
    have hcdot : c = '.' := by simpa using hdot
    have hw : name.reverse.takeWhile (· != '.') ++ name.reverse.dropWhile (· != '.') =
      name.reverse := List.takeWhile_append_dropWhile
    rw [hc, hcdot] at hw
    have hname := congrArg List.reverse hw
    rw [hc, List.reverse_cons, List.dropLast_concat]
    simpa using hname.symm

/-- An extension is what follows the last dot. -/
theorem splitExtension_append {stem extension : List Char} (h : stem ≠ []) (hdot : '.' ∉ extension) :
    splitExtension (stem ++ '.' :: extension) = (stem, some extension) := by
  have hall : ∀ c ∈ extension.reverse, (c != '.') = true := by
    intro c hc
    have hne : c ≠ '.' := fun he => hdot (he ▸ List.mem_reverse.mp hc)
    simpa using hne
  have hreverse : (stem ++ '.' :: extension).reverse = extension.reverse ++ '.' :: stem.reverse := by
    simp
  simp [splitExtension, hreverse, List.takeWhile_append_of_pos hall,
    List.dropWhile_append_of_pos hall, h]

/-- A text that gives up the length of its extension keeps the dot. -/
theorem take_extension (before stem extension : List Char) :
    (before ++ (stem ++ '.' :: extension)).take
      ((before ++ (stem ++ '.' :: extension)).length - extension.length) =
      before ++ (stem ++ ['.']) := by
  have hsplit : before ++ (stem ++ '.' :: extension) = (before ++ (stem ++ ['.'])) ++ extension := by
    simp
  rw [hsplit, List.length_append, Nat.add_sub_cancel]
  exact List.take_left

/-- A name with an extension has its sibling beside it, with the extension of a temporary file. -/
theorem sibling_concat (hb : Lead before) (h : Name name) (hup : name ≠ ['.', '.'])
    {extension : List Char} (hextension : (splitExtension name).2 = some extension)
    (hstem : (splitExtension name).1 ≠ ['.']) : sibling (.ofList (before ++ name)) =
      .ofList (before ++ ((splitExtension name).1 ++ '.' :: "tmp".toList)) := by
  obtain ⟨hne, hname⟩ := splitExtension_of_some hextension
  rw [sibling, fileName?_concat hb h hup, Option.bind_some, hextension]
  generalize (splitExtension name).1 = stem at hstem hne hname
  have hno : '/' ∉ stem := fun hm => h.no_slash (hname ▸ List.mem_append_left _ hm)
  have hkept := take_extension before stem extension
  rw [← hname] at hkept
  have hdotted : Name (stem ++ ['.']) := ⟨by simp [hno], by simp, by simpa using hne⟩
  have hnot : stem ++ ['.'] ≠ ['.', '.'] := fun he => hstem (List.append_inj_left' he rfl)
  simp only [String.toList_ofList, hkept, setExtension_concat hb hdotted hnot,
    splitExtension_append hne (List.not_mem_nil), List.append_assoc]

/-- The sibling has the same lead, and a temporary name unless it leads upwards. -/
theorem exists_sibling (hb : Lead before) (h : Name name) (hup : name ≠ ['.', '.']) :
    ∃ name', sibling (.ofList (before ++ name)) = .ofList (before ++ name') ∧ '/' ∉ name' ∧
      name' ≠ [] ∧ (name' = ['.', '.'] ∨ ∃ stem, name' = stem ++ '.' :: "tmp".toList) := by
  have hslash : '/' ∉ "tmp".toList := by decide
  cases he : (splitExtension name).2 with
  | none =>
    refine ⟨name ++ '.' :: "tmp".toList, ?_, ?_, by simp, .inr ⟨name, rfl⟩⟩
    · rw [sibling, fileName?_concat hb h hup, Option.bind_some, he]
      simp only [setExtension_concat hb h hup, splitExtension_of_none he, List.append_assoc]
    · simp [h.no_slash]
  | some extension =>
    obtain ⟨hne, hname⟩ := splitExtension_of_some he
    by_cases hdot : (splitExtension name).1 = ['.']
    · refine ⟨['.', '.'], ?_, by simp, by simp, .inl rfl⟩
      -- nothing but dots is left of the name, and these lead upwards
      have hkept := take_extension before ['.'] extension
      rw [← hdot, ← hname, hdot] at hkept
      rw [sibling, fileName?_concat hb h hup, Option.bind_some, he]
      simp only [String.toList_ofList, hkept, setExtension, List.singleton_append, fileName?_up hb]
    · have hno : '/' ∉ (splitExtension name).1 := fun hm =>
        h.no_slash (hname ▸ List.mem_append_left _ hm)
      exact ⟨_, sibling_concat hb h hup he hdot, by simp [hno], by simp, .inr ⟨_, rfl⟩⟩

end Path

namespace Disk

open AfterAction.Path

variable {before name : List Char} {path : String}

/-- The last name stands for an entry that may be missing, and it ends the path. -/
def Target.named (t : Target) : Bool := !t.standing && !t.slash

theorem target_concat (hb : Lead before) (hs : '/' ∉ name) (hne : name ≠ []) :
    target (.ofList (before ++ name)) =
      ⟨(before.splitOn '/').map String.ofList, .ofList name, false⟩ := by
  obtain ⟨c, rest, hr⟩ := List.exists_cons_of_ne_nil (mt List.reverse_eq_nil_iff.mp hne)
  have hc : c ≠ '/' := fun he => hs (List.mem_reverse.mp (by rw [hr, he]; exact List.mem_cons_self))
  have hcons : (before ++ name).reverse = c :: (rest ++ before.reverse) := by
    rw [List.reverse_append, hr, List.cons_append]
  have hkeep : (before ++ name).reverse.dropWhile (· == '/') = (before ++ name).reverse := by
    rw [hcons, List.dropWhile_cons_of_neg (by simpa using hc)]
  have hslash : ((before ++ name).reverse.head? = some '/') = False := by
    rw [hcons]
    simpa using hc
  simp only [target, String.toList_ofList, hkeep, takeWhile_lead hb hs, dropWhile_lead hb hs,
    List.reverse_reverse, hslash, decide_false]

theorem exists_of_named (h : (target path).named = true) :
    ∃ before name, path = .ofList (before ++ name) ∧ Lead before ∧ Name name ∧
      name ≠ ['.', '.'] := by
  obtain ⟨before, name, hp, hb, hs⟩ := exists_lead path.toList
  have hpath : path = .ofList (before ++ name) := by rw [← hp, String.ofList_toList]
  obtain ⟨hstanding, hslash⟩ := Bool.and_eq_true_iff.mp h
  have hne : name ≠ [] := by
    rintro rfl
    rw [List.append_nil] at hp hpath
    rcases hb with rfl | hb
    · subst hpath
      cases hstanding
    · have hend : (target path).slash = true := by
        simp only [target, hp, List.head?_reverse, hb, decide_true]
      rw [hend] at hslash
      cases hslash
  have ht := target_concat hb hs hne
  rw [← hpath] at ht
  rw [ht] at hstanding
  refine ⟨before, name, hpath, hb, ⟨hs, hne, ?_⟩, ?_⟩
  · rintro rfl
    cases hstanding
  · rintro rfl
    cases hstanding

/-- A path and its sibling stand in one directory, under two names unless they are one path. -/
theorem target_sibling (h : (target path).named = true) :
    (target (sibling path)).before = (target path).before ∧
    (target (sibling path)).slash = false ∧
    ((target (sibling path)).last = (target path).last → sibling path = path) := by
  obtain ⟨before, name, rfl, hb, hn, hup⟩ := exists_of_named h
  obtain ⟨name', hsib, hs, hne, -⟩ := exists_sibling hb hn hup
  rw [hsib, target_concat hb hs hne, target_concat hb hn.no_slash hn.ne_nil]
  refine ⟨rfl, rfl, fun he => ?_⟩
  rw [String.ofList_injective he]

end Disk
end AfterAction
