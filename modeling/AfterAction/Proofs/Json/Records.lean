import AfterAction.Json.Shape
import AfterAction.Proofs.Json.Spelling
import Mathlib.Data.List.Nodup

/-!
Values carried by the interchange format. A value is carried when its reader takes the written tree
for the value itself and the tree has a text that reads back. For a record this follows from its
fields one at a time, because the reader goes by names: a member is looked up under its own name
and no other field sees it, whatever the order of the members.
-/

namespace AfterAction.Json

variable {α β : Type}

/-- The reader takes the tree for the value, and the text of the tree reads back. -/
structure Conveys (decoder : Decoder α) (v : Json) (a : α) : Prop where
  sound : v.sound = true
  reads : decoder v = .ok a

namespace Conveys

/-- A value that is carried comes back from either of its texts. -/
theorem decode_compact {decoder : Decoder α} {v : Json} {a : α} (h : Conveys decoder v a) :
    decode decoder v.compact = .ok a := by
  simp only [decode, scan_compact h.sound, h.reads]
  rfl

theorem decode_pretty {decoder : Decoder α} {v : Json} {a : α} (h : Conveys decoder v a) :
    decode decoder (v.pretty 0) = .ok a := by
  simp only [decode, scan_pretty h.sound, h.reads]
  rfl

theorem text (s : String) : Conveys text (.string s) s := ⟨rfl, rfl⟩

theorem flag (b : Bool) : Conveys flag (.bool b) b := ⟨rfl, rfl⟩

theorem count (n : UInt64) : Conveys count (ofNat n.toNat) n where
  sound := by
    have := n.toNat_lt
    simp only [ofNat, Json.sound, fits, Bool.and_eq_true, decide_eq_true_eq]
    omega
  reads := by
    simp only [ofNat, Json.count, Int.natCast_nonneg, if_true, Int.toNat_natCast]
    simp

theorem small {n : Int} (hleast : -0x80000000 ≤ n) (hgreatest : n < 0x80000000) :
    Conveys small (ofInt n) n where
  sound := by
    simp only [ofInt, Json.sound, fits, Bool.and_eq_true, decide_eq_true_eq]
    omega
  reads := by simp [ofInt, Json.small, hleast, hgreatest]

/-- Nothing is written as nothing; so whatever there is must not be written like it. -/
theorem optional {decoder : Decoder α} {write : α → Json} {a : Option α}
    (h : ∀ x ∈ a, Conveys decoder (write x) x) (hnull : ∀ x, write x ≠ .null) :
    Conveys (optional decoder) (ofOption write a) a := by
  cases a with
  | none => exact ⟨rfl, rfl⟩
  | some x =>
    have hx := h x rfl
    refine ⟨hx.sound, ?_⟩
    simp only [ofOption, Json.optional]
    split
    · rename_i heq
      exact absurd heq (hnull x)
    · rw [hx.reads]
      rfl

theorem optionalText (s : Option String) :
    Conveys (Json.optional Json.text) (ofOption .string s) s :=
  optional (fun x _ => text x) (by simp)

theorem list {decoder : Decoder α} {write : α → Json} {xs : List α}
    (h : ∀ x ∈ xs, Conveys decoder (write x) x) :
    Conveys (list decoder) (.array (xs.map write)) xs := by
  induction xs with
  | nil => exact ⟨rfl, rfl⟩
  | cons x xs ih =>
    have hx := h x (by simp)
    obtain ⟨hsound, hreads⟩ := ih fun y hy => h y (by simp [hy])
    simp only [Json.sound, Json.list] at hsound hreads ⊢
    constructor
    · simp [Json.sound, soundItems, hx.sound, hsound]
    · simp only [Json.list, List.map_cons, List.mapM_cons, hx.reads, hreads]
      rfl

theorem texts (texts : List String) : Conveys (Json.list Json.text) (ofStrings texts) texts :=
  list fun s _ => text s

theorem choice {names : List (String × α)} {s : String} {a : α} (h : names.lookup s = some a) :
    Conveys (choice names) (.string s) a := ⟨rfl, by simp [Json.choice, h]⟩

theorem heldChoice {names : List (String × α)} {s : String} {a : α} (h : names.lookup s = some a) :
    Conveys (heldChoice names) (.string s) a := ⟨rfl, by simp [Json.heldChoice, h]⟩

end Conveys

namespace Field

@[simp] theorem name_required (name : String) (decoder : Decoder α) :
    (required name decoder).name = name := rfl

@[simp] theorem name_nullable (name : String) (decoder : Decoder α) :
    (nullable name decoder).name = name := rfl

@[simp] theorem name_defaulted (name : String) (decoder : Decoder α) (value : α) :
    (defaulted name decoder value).name = name := rfl

end Field

@[simp] theorem Record.check_of (a : α) (name : String) : (Record.of a).check name = none := rfl

@[simp] theorem Record.check_field (r : Record (α → β)) (f : Field α) (name : String) :
    (r.field f).check name =
      if name = f.name then some fun v => discard (f.decoder v) else r.check name := rfl

/-- What the members of an object say to a record: each member the record knows is one it accepts,
and `a` is built from them. -/
structure Record.Reads (r : Record α) (members : List (String × Json)) (a : α) : Prop where
  keys : (members.map Prod.fst).Nodup
  accepts : ∀ m ∈ members, ∀ check, r.check m.1 = some check → check m.2 = .ok () ∧ m.2.sound = true
  builds : r.build (fun name => members.lookup name) = .ok a

/-- The record knows the member and accepts it, and the member's text reads back. -/
def Record.Accepts (r : Record α) (m : String × Json) : Prop :=
  ∃ check, r.check m.1 = some check ∧ check m.2 = .ok () ∧ m.2.sound = true

/-- The induction is on the members; names already seen are those in front, and no name comes
twice. -/
theorem checkMembers_of_accepts {r : Record α} {members : List (String × Json)}
    (hkeys : (members.map Prod.fst).Nodup) (haccepts : ∀ m ∈ members, r.Accepts m) :
    ∀ seen : List String, (∀ m ∈ members, m.1 ∉ seen) → r.checkMembers seen members = .ok () := by
  induction members with
  | nil =>
    intro seen _
    rfl
  | cons m members ih =>
    obtain ⟨name, v⟩ := m
    intro seen hseen
    obtain ⟨hname, hkeys⟩ := List.nodup_cons.mp hkeys
    obtain ⟨check, hcheck, hv, hsound⟩ := haccepts (name, v) (by simp)
    have hfresh : name ∉ seen := hseen (name, v) (by simp)
    have htail : r.checkMembers (name :: seen) members = .ok () := by
      apply ih hkeys (fun x hx => haccepts x (by simp [hx]))
      intro x hx
      have hother : x.1 ≠ name := fun he => hname (List.mem_map.mpr ⟨x, hx, he⟩)
      simpa [hother] using hseen x (by simp [hx])
    simp only at hcheck hv hsound
    unfold Record.checkMembers
    split
    · simp [Json.sound] at hsound
    · simp_all
    · simp_all
      rfl

theorem soundMembers_iff {members : List (String × Json)} :
    soundMembers members = true ↔ ∀ m ∈ members, m.2.sound = true := by
  induction members with
  | nil => simp [soundMembers]
  | cons m members ih => simp [soundMembers, ih]

theorem lookup_of_mem {members : List (String × α)} (hkeys : (members.map Prod.fst).Nodup)
    {name : String} {v : α} (h : (name, v) ∈ members) : members.lookup name = some v := by
  cases hlookup : members.lookup name with
  | none =>
    rw [List.lookup_eq_none_iff] at hlookup
    simpa using hlookup _ h
  | some w =>
    obtain ⟨front, back, rfl, -⟩ := List.lookup_eq_some_iff.mp hlookup
    rw [Option.some.injEq]
    have hw : (name, w) ∈ front ++ (name, w) :: back := by simp
    exact congrArg Prod.snd (List.inj_on_of_nodup_map hkeys hw h rfl)

namespace Record.Reads

theorem of {members : List (String × Json)} (a : α) (hkeys : (members.map Prod.fst).Nodup) :
    (Record.of a).Reads members a where
  keys := hkeys
  accepts := by simp [Record.of]
  builds := rfl

/-- A field looks up the member of its name and no other. -/
theorem field {r : Record (α → β)} {members : List (String × Json)} {g : α → β} {f : Field α}
    {v : Json} {a : α} (h : r.Reads members g) (hmem : (f.name, v) ∈ members)
    (hv : Conveys f.decoder v a) : (r.field f).Reads members (g a) where
  keys := h.keys
  accepts := by
    intro m hm check hcheck
    by_cases hname : m.1 = f.name
    · obtain rfl : m = (f.name, v) := List.inj_on_of_nodup_map h.keys hm hmem hname
      simp only [Record.field, if_true, Option.some.injEq] at hcheck
      subst hcheck
      have hreads : discard (f.decoder v) = .ok () := by
        rw [hv.reads]
        rfl
      exact ⟨hreads, hv.sound⟩
    · simp only [Record.field, hname, if_false] at hcheck
      exact h.accepts m hm check hcheck
  builds := by
    have hlookup := lookup_of_mem h.keys hmem
    simp only [Record.field, h.builds, hlookup, Field.read, hv.reads]
    rfl

theorem accepted {r : Record α} {members : List (String × Json)} {a : α} (h : r.Reads members a)
    (hknown : ∀ m ∈ members, r.check m.1 ≠ none) : ∀ m ∈ members, r.Accepts m := by
  intro m hm
  obtain ⟨check, hcheck⟩ := Option.ne_none_iff_exists'.mp (hknown m hm)
  exact ⟨check, hcheck, h.accepts m hm check hcheck⟩

theorem sound {r : Record α} {members : List (String × Json)} {a : α} (h : r.Reads members a)
    (hknown : ∀ m ∈ members, r.check m.1 ≠ none) : soundMembers members = true := by
  rw [soundMembers_iff]
  intro m hm
  obtain ⟨-, -, -, hsound⟩ := h.accepted hknown m hm
  exact hsound

theorem ofMembers {r : Record α} {members : List (String × Json)} {a : α}
    (h : r.Reads members a) (hknown : ∀ m ∈ members, r.check m.1 ≠ none) :
    r.ofMembers members = .ok a := by
  have hcheck := checkMembers_of_accepts h.keys (h.accepted hknown) [] (by simp)
  rw [Record.ofMembers, hcheck]
  exact h.builds

theorem conveys {r : Record α} {members : List (String × Json)} {a : α} (h : r.Reads members a)
    (hknown : ∀ m ∈ members, r.check m.1 ≠ none) : Conveys r.decoder (.object members) a :=
  ⟨h.sound hknown, h.ofMembers hknown⟩

theorem conveysHeld {r : Record α} {members : List (String × Json)} {a : α}
    (h : r.Reads members a) (hknown : ∀ m ∈ members, r.check m.1 ≠ none) :
    Conveys r.heldDecoder (.object members) a :=
  ⟨h.sound hknown, h.ofMembers hknown⟩

end Record.Reads

/-! ## Tagged records -/

mutual

theorem flawless_of_sound : ∀ {v : Json}, v.sound = true → v.flawless = true
  | .null, _ | .bool _, _ | .string _, _ | .number _, _ => rfl
  | .array items, h => flawlessItems_of_sound (show soundItems items = true from h)
  | .object members, h => flawlessMembers_of_sound (show soundMembers members = true from h)

theorem flawlessItems_of_sound : ∀ {items : List Json},
    soundItems items = true → flawlessItems items = true
  | [], _ => rfl
  | v :: items, h => by
    simp only [soundItems, Bool.and_eq_true] at h
    simp [flawlessItems, flawless_of_sound h.1, flawlessItems_of_sound h.2]

theorem flawlessMembers_of_sound : ∀ {members : List (String × Json)},
    soundMembers members = true → flawlessMembers members = true
  | [], _ => rfl
  | (_, v) :: members, h => by
    simp only [soundMembers, Bool.and_eq_true] at h
    simp [flawlessMembers, flawless_of_sound h.1, flawlessMembers_of_sound h.2]

end

theorem nestingItems_map_le {write : α → Json} {depth : Nat} {xs : List α}
    (h : ∀ x ∈ xs, (write x).nesting ≤ depth) : nestingItems (xs.map write) ≤ depth := by
  induction xs with
  | nil => simp [nestingItems]
  | cons x xs ih =>
    simp only [List.map_cons, nestingItems]
    exact Nat.max_le.mpr ⟨h x (by simp), ih fun y hy => h y (by simp [hy])⟩

theorem nesting_ofOption_le {write : α → Json} {depth : Nat} {a : Option α}
    (h : ∀ x ∈ a, (write x).nesting ≤ depth) : (ofOption write a).nesting ≤ depth := by
  cases a with
  | none => simp [ofOption, nesting]
  | some x => exact h x rfl

/-- Members behind the tag are held back as they are. -/
theorem splitTag_of_held {key : String} {variants : List (String × Decoder α)} (decoder : Decoder α)
    {others : List (String × Json)} (hkey : ∀ m ∈ others, m.1 ≠ key)
    (hsound : soundMembers others = true) (hnesting : ∀ m ∈ others, m.2.nesting < nestingLimit) :
    splitTag key variants (some decoder) others = .ok (some decoder, others) := by
  induction others with
  | nil => rfl
  | cons m others ih =>
    obtain ⟨name, v⟩ := m
    simp only [soundMembers, Bool.and_eq_true] at hsound
    have hname : name ≠ key := hkey (name, v) (by simp)
    have hheld : held v = .ok () := by
      simp [held, flawless_of_sound hsound.1, hnesting (name, v) (by simp)]
    have hothers := ih (fun x hx => hkey x (by simp [hx])) hsound.2
      fun x hx => hnesting x (by simp [hx])
    unfold splitTag
    split
    · simp_all
    · simp_all [Json.sound]
    · simp_all
      rfl

theorem Conveys.tagged {key name : String} {variants : List (String × Decoder α)}
    {decoder : Decoder α} {others : List (String × Json)} {a : α}
    (hvariant : variants.lookup name = some decoder) (h : Conveys decoder (.object others) a)
    (hkey : ∀ m ∈ others, m.1 ≠ key) (hnesting : ∀ m ∈ others, m.2.nesting < nestingLimit) :
    Conveys (tagged key variants) (.object ((key, .string name) :: others)) a where
  sound := h.sound
  reads := by
    have hsplit : splitTag key variants none ((key, .string name) :: others) =
        .ok (some decoder, others) := by
      simp only [splitTag, if_true, variant, hvariant]
      exact splitTag_of_held decoder hkey h.sound hnesting
    simp only [Json.tagged, hsplit]
    exact h.reads

end AfterAction.Json
