import AfterAction.Evidence
import AfterAction.Proofs.RoundTrip
import Mathlib.Algebra.Order.Ring.Nat
import Mathlib.Data.List.Forall2

/-!
# Counts of documents

The store counts the documents of a technique by their status as it is written, so that one status
can have several groups, `detected` and `Detected`. They are added one by one, and each sum has to
fit the 64 bits of a count. No addition fails that the whole would not fail: the counts of a status
have a sum exactly if what they add up to is below 2^64, and then it is that
(`countOf?_eq_some_iff`). So evidence is right whenever there is any. But one group that counts too
much leaves none for the whole answer: whoever reads it crashes.
-/

namespace AfterAction

variable {g : TechniqueGroup} {status : String} {e : Evidence}

theorem addCounts?_eq_some_iff {a b sum : UInt64} :
    addCounts? a b = some sum ↔ sum.toNat = a.toNat + b.toNat := by
  have hadd := UInt64.toNat_add a b
  have hsum := sum.toNat_lt_size
  unfold addCounts?
  split
  · rename_i hfits
    rw [Nat.mod_eq_of_lt hfits] at hadd
    rw [Option.some.injEq, ← UInt64.toNat_inj, hadd, eq_comm]
  · rename_i hover
    refine ⟨nofun, fun h => absurd (h ▸ hsum) hover⟩

/-- Sums of a chain are the sum of the whole. -/
theorem foldlM_addCounts?_eq_some_iff {counts : List UInt64} {start sum : UInt64} :
    counts.foldlM addCounts? start = some sum ↔
      sum.toNat = start.toNat + (counts.map (·.toNat)).sum := by
  induction counts generalizing start with
  | nil =>
    rw [List.foldlM_nil, List.map_nil, List.sum_nil, Nat.add_zero, UInt64.toNat_inj]
    exact Option.some_inj.trans eq_comm
  | cons count counts ih =>
    rw [List.foldlM_cons, List.map_cons, List.sum_cons, ← Nat.add_assoc]
    constructor
    · intro h
      obtain ⟨first, hfirst, hrest⟩ := Option.bind_eq_some_iff.mp h
      rw [ih.mp hrest, addCounts?_eq_some_iff.mp hfirst]
    · intro h
      -- the sum is there, so the first addition fits as well
      have hfits : start.toNat + count.toNat < UInt64.size := by
        have := sum.toNat_lt_size
        omega
      have hfirst : addCounts? start count = some (start + count) := if_pos hfits
      refine Option.bind_eq_some_iff.mpr ⟨start + count, hfirst, ih.mpr ?_⟩
      rw [h, addCounts?_eq_some_iff.mp hfirst]

namespace TechniqueGroup

/-- The groups of a status, in whatever case it is written. -/
def groupsOf (g : TechniqueGroup) (status : String) : List KeyCount :=
  g.statuses.filter (sameLetters ·.key status)

/-- How many documents a status has. -/
def total (g : TechniqueGroup) (status : String) : Nat :=
  ((g.groupsOf status).map (·.count.toNat)).sum

/-- Some group of a status has documents. -/
def Shows (g : TechniqueGroup) (status : String) : Prop := ∃ s ∈ g.groupsOf status, 0 < s.count

/-- Both totals that evidence is made of fit a count. -/
def Fits (g : TechniqueGroup) : Prop :=
  g.total "detected" < UInt64.size ∧ g.total "evaded" < UInt64.size

theorem total_pos_iff : 0 < g.total status ↔ g.Shows status := by
  simp [total, Shows, List.sum_pos_iff_exists_pos_nat, UInt64.lt_iff_toNat_lt]

theorem countOf?_eq_some_iff {count : UInt64} :
    g.countOf? status = some count ↔ count.toNat = g.total status := by
  rw [countOf?, foldlM_addCounts?_eq_some_iff, UInt64.toNat_zero, Nat.zero_add, List.map_map]
  rfl

theorem exists_countOf?_iff :
    (∃ count, g.countOf? status = some count) ↔ g.total status < UInt64.size := by
  constructor
  · rintro ⟨count, h⟩
    rw [← countOf?_eq_some_iff.mp h]
    exact count.toNat_lt_size
  · intro h
    exact ⟨.ofNat (g.total status), countOf?_eq_some_iff.mpr (UInt64.toNat_ofNat_of_lt h)⟩

theorem countOf?_pos_iff {count : UInt64} (h : g.countOf? status = some count) :
    0 < count ↔ g.Shows status := by
  rw [UInt64.lt_iff_toNat_lt, countOf?_eq_some_iff.mp h, UInt64.toNat_zero, total_pos_iff]

end TechniqueGroup

namespace Evidence

/-- What evidence says of the group that it is made of. -/
structure Counted (g : TechniqueGroup) (e : Evidence) : Prop where
  technique : e.techniqueId = g.key
  documents : e.documentCount = g.count
  rules : e.ruleNames = g.rules.map (·.key)
  detected : e.detectedCount.toNat = g.total "detected"
  evaded : e.markedEvaded = true ↔ g.Shows "evaded"
  alert : e.hasAlert = true ↔ g.Shows "detected" ∨ e.ruleNames ≠ []

theorem ofGroup?_eq_some_iff : ofGroup? g = some e ↔
    ∃ detected evaded, g.countOf? "detected" = some detected ∧ g.countOf? "evaded" = some evaded ∧
      e = ⟨g.key, g.count, detected, 0 < evaded, g.rules.map (·.key)⟩ := by
  simp only [ofGroup?, Option.bind_eq_bind, Option.bind_eq_some_iff, Option.pure_def,
    Option.some.injEq]
  constructor
  · rintro ⟨detected, hdetected, evaded, hevaded, rfl⟩
    exact ⟨detected, evaded, hdetected, hevaded, rfl⟩
  · rintro ⟨detected, evaded, hdetected, hevaded, rfl⟩
    exact ⟨detected, hdetected, evaded, hevaded, rfl⟩

theorem counted_of_ofGroup? (h : ofGroup? g = some e) : Counted g e := by
  obtain ⟨detected, evaded, hdetected, hevaded, rfl⟩ := ofGroup?_eq_some_iff.mp h
  refine ⟨rfl, rfl, rfl, TechniqueGroup.countOf?_eq_some_iff.mp hdetected, ?_, ?_⟩
  · rw [← TechniqueGroup.countOf?_pos_iff hevaded]
    exact decide_eq_true_iff
  · rw [← TechniqueGroup.countOf?_pos_iff hdetected, hasAlert, Bool.or_eq_true,
      decide_eq_true_iff]
    simp

theorem exists_ofGroup?_iff : (∃ e, ofGroup? g = some e) ↔ g.Fits := by
  rw [TechniqueGroup.Fits, ← TechniqueGroup.exists_countOf?_iff,
    ← TechniqueGroup.exists_countOf?_iff]
  constructor
  · rintro ⟨e, h⟩
    obtain ⟨detected, evaded, hdetected, hevaded, -⟩ := ofGroup?_eq_some_iff.mp h
    exact ⟨⟨detected, hdetected⟩, evaded, hevaded⟩
  · rintro ⟨⟨detected, hdetected⟩, evaded, hevaded⟩
    exact ⟨_, ofGroup?_eq_some_iff.mpr ⟨detected, evaded, hdetected, hevaded, rfl⟩⟩

/-- Groups are read one after another, and the first that does not fit ends it. -/
theorem mapM_ofGroup? (groups : List TechniqueGroup) :
    match groups.mapM ofGroup? with
    | some evidence => (∀ g ∈ groups, g.Fits) ∧ List.Forall₂ Counted groups evidence
    | none => ∃ g ∈ groups, ¬ g.Fits := by
  induction groups with
  | nil => exact ⟨nofun, .nil⟩
  | cons g rest ih =>
    rw [List.mapM_cons]
    cases hfirst : ofGroup? g with
    | none =>
      refine ⟨g, List.mem_cons_self, fun hfits => ?_⟩
      obtain ⟨e, he⟩ := exists_ofGroup?_iff.mpr hfits
      cases hfirst.symm.trans he
    | some e =>
      cases hrest : rest.mapM ofGroup? with
      | none =>
        rw [hrest] at ih
        obtain ⟨g', hmem, hover⟩ := ih
        exact ⟨g', List.mem_cons_of_mem g hmem, hover⟩
      | some evidence =>
        rw [hrest] at ih
        refine ⟨List.forall_mem_cons.mpr ⟨exists_ofGroup?_iff.mp ⟨e, hfirst⟩, ih.1⟩, ?_⟩
        exact .cons (counted_of_ofGroup? hfirst) ih.2

/-- **Evidence counts exactly, or there is none.** An answer is read out exactly if the totals of
all its groups are below 2^64. Then there is one piece of evidence for each of them, in their order:
its count of detected documents is their sum in whatever case the status is written, a mark of
evasion is there if documents are behind it, and an alert if documents or rules are. -/
theorem ofAnswer_counted (answer : SearchAnswer) :
    match ofAnswer? answer with
    | some evidence => (∀ g ∈ answer.groups.getD [], g.Fits) ∧
        List.Forall₂ Counted (answer.groups.getD []) evidence
    | none => ∃ g ∈ answer.groups.getD [], ¬ g.Fits :=
  mapM_ofGroup? (answer.groups.getD [])

/-! ## Counts that do not fit -/

/-- A status in two cases: all that a count can tell, and one more. -/
def overfull (key lower upper : String) : TechniqueGroup where
  key
  count := 0xFFFFFFFFFFFFFFFF
  statuses := [⟨lower, 0xFFFFFFFFFFFFFFFF⟩, ⟨upper, 1⟩]
  rules := []

def noticed : TechniqueGroup := overfull "T1078" "detected" "Detected"

def avoided : TechniqueGroup := overfull "T1018" "evaded" "Evaded"

/-- The store can answer with either, and then there is no evidence, though both have documents. -/
theorem overfull_crashes :
    Json.decode SearchAnswer.decoder (SearchAnswer.toJson ⟨some [noticed]⟩).compact =
      .ok ⟨some [noticed]⟩ ∧
    Json.decode SearchAnswer.decoder (SearchAnswer.toJson ⟨some [avoided]⟩).compact =
      .ok ⟨some [avoided]⟩ ∧
    noticed.total "detected" = UInt64.size ∧ noticed.Shows "detected" ∧
    avoided.total "evaded" = UInt64.size ∧ avoided.Shows "evaded" ∧
    ofAnswer? ⟨some [noticed]⟩ = none ∧ ofAnswer? ⟨some [avoided]⟩ = none := by
  have htotal : noticed.total "detected" = UInt64.size := by decide +kernel
  have hevaded : avoided.total "evaded" = UInt64.size := by decide +kernel
  have hshows : noticed.Shows "detected" :=
    TechniqueGroup.total_pos_iff.mp (htotal ▸ (by decide : 0 < UInt64.size))
  have hshows' : avoided.Shows "evaded" :=
    TechniqueGroup.total_pos_iff.mp (hevaded ▸ (by decide : 0 < UInt64.size))
  exact ⟨(SearchAnswer.conveys _).decode_compact, (SearchAnswer.conveys _).decode_compact, htotal,
    hshows, hevaded, hshows', by decide +kernel, by decide +kernel⟩

end Evidence
end AfterAction
