import AfterAction.Files.Disk

/-!
# What stands where in a tree

A change to the entries of one directory that concerns one name shows at that name and nowhere
else, if what was there and what comes there has nothing below it. So a disk is known by what stands
at each way, and each of its calls changes that at one place.
-/

namespace AfterAction

/-- What stands at a way. -/
inductive Place
  | nothing
  | directory
  | file (content : FileContent)
  deriving DecidableEq, Repr

namespace Place

def of : Option Node → Place
  | none => .nothing
  | some (.directory _) => .directory
  | some (.file content) => .file content

def content? : Place → Option FileContent
  | .file content => some content
  | _ => none

theorem of_eq_directory_iff {n : Option Node} :
    Place.of n = .directory ↔ ∃ entries, n = some (.directory entries) := by
  cases n with
  | none => simp [Place.of]
  | some n => cases n <;> simp [Place.of]

theorem of_eq_file_iff {n : Option Node} {content : FileContent} :
    Place.of n = .file content ↔ n = some (.file content) := by
  cases n with
  | none => simp [Place.of]
  | some n => cases n <;> simp [Place.of]

end Place

namespace Node

theorem get?_append (way rest : List String) (n : Node) :
    n.get? (way ++ rest) = (n.get? way).bind (get? rest) := by
  induction way generalizing n with
  | nil => simp [get?]
  | cons name way ih =>
    cases n with
    | file content => rfl
    | directory entries =>
      simp only [List.cons_append, get?, Option.bind_assoc]
      congr 1
      funext child
      exact ih child

variable {change : List (String × Node) → List (String × Node)} {name : String} {way : List String}

theorem get?_modify_self {n : Node} {entries : List (String × Node)}
    (h : n.get? way = some (.directory entries)) :
    (n.modify change way).get? way = some (.directory (change entries)) := by
  induction way generalizing n with
  | nil =>
    cases h
    rfl
  | cons first rest ih =>
    cases n with
    | file content => cases h
    | directory es =>
      obtain ⟨child, hc, hchild⟩ := Option.bind_eq_some_iff.mp h
      simp only [modify, hc, get?, Table.lookup_put, if_true, Option.bind_some]
      exact ih hchild

/-- Elsewhere the tree stays as it is, apart from what directories have below them. -/
theorem place_modify_elsewhere
    (hchange : ∀ entries other, other ≠ name → (change entries).lookup other = entries.lookup other)
    {other : List String} (h : ¬ (way ++ [name]) <+: other) (n : Node) :
    Place.of ((n.modify change way).get? other) = Place.of (n.get? other) := by
  induction way generalizing n other with
  | nil =>
    cases n with
    | file content => rfl
    | directory entries =>
      cases other with
      | nil => rfl
      | cons first rest =>
        have hne : first ≠ name := by
          rintro rfl
          exact h ⟨rest, rfl⟩
        simp only [modify, get?, hchange _ _ hne]
  | cons first way ih =>
    cases n with
    | file content => rfl
    | directory entries =>
      simp only [modify]
      cases hc : entries.lookup first with
      | none => rfl
      | some child =>
        cases other with
        | nil => rfl
        | cons first' rest =>
          simp only [get?, Table.lookup_put]
          by_cases hf : first' = first
          · subst hf
            rw [if_pos rfl, hc]
            refine ih (fun hp => h ?_) child
            obtain ⟨tail, rfl⟩ := hp
            exact ⟨tail, rfl⟩
          · rw [if_neg hf]

/-- Nothing is below a node. -/
def Bare (n : Option Node) : Prop := ∀ way, way ≠ [] → n.bind (get? way) = none

theorem bare_none : Bare none := fun _ _ => rfl

theorem bare_file (content : FileContent) : Bare (some (.file content)) := by
  intro way h
  cases way with
  | nil => exact absurd rfl h
  | cons => rfl

theorem bare_empty : Bare (some (.directory [])) := by
  intro way h
  cases way with
  | nil => exact absurd rfl h
  | cons => rfl

theorem bare_of_place {n : Option Node} (h : Place.of n ≠ .directory) : Bare n := by
  cases n with
  | none => exact bare_none
  | some n =>
    cases n with
    | file content => exact bare_file content
    | directory entries => exact absurd rfl h

/-- A change to one entry, where nothing is below before and after, shows there and nowhere else. -/
theorem place_modify {new : Option Node}
    (hchange : ∀ entries other, (change entries).lookup other =
      if other = name then new else entries.lookup other)
    {n : Node} (hway : Place.of (n.get? way) = .directory)
    (hold : Place.of (n.get? (way ++ [name])) ≠ .directory) (hnew : Bare new)
    (other : List String) :
    Place.of ((n.modify change way).get? other) =
      if other = way ++ [name] then Place.of new else Place.of (n.get? other) := by
  obtain ⟨entries, hentries⟩ := Place.of_eq_directory_iff.mp hway
  by_cases hp : (way ++ [name]) <+: other
  · obtain ⟨rest, rfl⟩ := hp
    have hleft : (n.modify change way).get? (way ++ [name] ++ rest) = new.bind (get? rest) := by
      rw [List.append_assoc, get?_append, get?_modify_self hentries]
      show ((change entries).lookup name).bind (get? rest) = _
      rw [hchange, if_pos rfl]
    rw [hleft]
    by_cases hr : rest = []
    · subst hr
      rw [List.append_nil, if_pos rfl]
      cases new with
      | none => rfl
      | some new => rfl
    · rw [if_neg (by simpa using hr), hnew rest hr, get?_append, bare_of_place hold rest hr]
  · rw [place_modify_elsewhere (fun entries other hne => by rw [hchange, if_neg hne]) hp,
      if_neg]
    rintro rfl
    exact hp (List.prefix_refl _)

end Node

namespace Disk

def place (d : Disk) (way : List String) : Place := .of (d.node? way)

variable {d : Disk} {way : List String} {name : String}

theorem isDirectory_iff : d.isDirectory way = true ↔ d.place way = .directory := by
  unfold isDirectory place
  cases d.node? way with
  | none => simp [Place.of]
  | some n => cases n <;> simp [Place.of]

theorem place_put {n : Node} (hn : Node.Bare (some n)) (hway : d.place way = .directory)
    (hold : d.place (way ++ [name]) ≠ .directory) (other : List String) :
    (d.put way name n).place other =
      if other = way ++ [name] then .of (some n) else d.place other :=
  Node.place_modify (fun entries other => Table.lookup_put name other n entries) hway hold hn other

theorem place_drop (hway : d.place way = .directory) (hold : d.place (way ++ [name]) ≠ .directory)
    (other : List String) :
    (d.drop way name).place other = if other = way ++ [name] then .nothing else d.place other :=
  Node.place_modify (fun entries other => Table.lookup_drop name other entries) hway hold
    Node.bare_none other

/-- A file goes from one directory to another, or to the same under a new name. -/
theorem place_move {sourceWay : List String} {source : String} {content : FileContent}
    (hsourceWay : d.place sourceWay = .directory)
    (hsource : d.place (sourceWay ++ [source]) = .file content) (hway : d.place way = .directory)
    (hold : d.place (way ++ [name]) ≠ .directory) (other : List String) :
    ((d.drop sourceWay source).put way name (.file content)).place other =
      if other = way ++ [name] then .file content
      else if other = sourceWay ++ [source] then .nothing else d.place other := by
  have hgone := place_drop hsourceWay (by rw [hsource]; nofun)
  have hstays : (d.drop sourceWay source).place way = .directory := by
    rw [hgone, if_neg, hway]
    rintro rfl
    cases hway.symm.trans hsource
  have hold' : (d.drop sourceWay source).place (way ++ [name]) ≠ .directory := by
    rw [hgone]
    split
    · nofun
    · exact hold
  rw [place_put (Node.bare_file content) hstays hold', hgone]
  rfl

end Disk
end AfterAction
