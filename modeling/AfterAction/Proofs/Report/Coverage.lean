import AfterAction.Proofs.FirstAppearance
import AfterAction.Proofs.Text.Trimming
import AfterAction.Report.Document
import Mathlib.Algebra.BigOperators.Group.List.Basic
import Mathlib.Algebra.Order.Ring.Nat

/-!
# Tactic coverage

Every step counts under one name, so the groups divide the steps between them and their counts add
up to those of the statistics. The order of the groups is that of the kill chain as far as it goes,
and behind it the sort, which is stable, leaves the order in which the names come up. Of the order
of the steps that is all that shows: it is the same report for any other order in which the names
outside the kill chain come up one after the other as before.
-/

namespace AfterAction

namespace Tactic

/-- The name that a label counts under: what stands between its blanks, if that is anything. -/
def CountsAs (raw name : String) : Prop :=
  ∃ core, Text.Trimmed raw.toList core ∧ name = if core = [] then "unknown" else .ofList core

theorem groupName_eq_iff {raw name : String} : groupName raw = name ↔ CountsAs raw name := by
  have hgroup : groupName raw = if Text.trimChars raw.toList = [] then "unknown"
      else .ofList (Text.trimChars raw.toList) := by
    have hempty : (String.ofList (Text.trimChars raw.toList) = "") =
        (Text.trimChars raw.toList = []) :=
      propext ⟨fun h => String.ofList_injective h, fun h => by rw [h]⟩
    simp only [groupName, Text.trim, hempty]
  rw [hgroup]
  constructor
  · intro h
    exact ⟨_, Text.trimmed_trimChars _, h.symm⟩
  · rintro ⟨core, hcore, rfl⟩
    rw [hcore.trimChars_eq]

instance (raw name : String) : Decidable (CountsAs raw name) :=
  decidable_of_iff _ groupName_eq_iff

theorem rank_lt_iff {name : String} : rank name < killChain.length ↔ name ∈ killChain :=
  List.idxOf_lt_length_iff

theorem rank_inj {a b : String} (ha : a ∈ killChain) (h : rank a = rank b) : a = b :=
  (List.idxOf_inj ha).mp h

theorem pairwise_rank_killChain : killChain.Pairwise fun a b => rank a ≤ rank b := by decide

end Tactic

namespace RunStatistics

/-- Every step ended in one of three ways. -/
def AddsUp (s : RunStatistics) : Prop := s.total = s.successful + s.failed + s.timedOut

theorem addsUp_ofSteps (steps : List Step) : (ofSteps steps).AddsUp := by
  induction steps with
  | nil => rfl
  | cons s rest ih =>
    simp only [AddsUp, ofSteps, List.length_cons, List.countP_cons] at ih ⊢
    cases s.outcome <;> simp <;> omega

end RunStatistics

namespace TacticCoverage

open AfterAction.Tactic

variable {steps steps' : List Step}

/-! ## Order -/

/-- The names that the steps count under. -/
def names (steps : List Step) : List String := steps.map fun s => groupName s.tactic

/-- The names of the groups, in their order. -/
def order (steps : List Step) : List String :=
  (names steps).eraseDups.mergeSort fun a b => rank a ≤ rank b

theorem ofSteps_eq (steps : List Step) :
    ofSteps steps = (order steps).map (ofTactic steps) := by
  have h := List.map_mergeSort (f := ofTactic steps) (l := (names steps).eraseDups)
    (r := fun a b => rank a ≤ rank b) (s := fun a b => rank a.tactic ≤ rank b.tactic)
    fun a _ b _ => rfl
  exact h.symm

theorem tactics_ofSteps (steps : List Step) : (ofSteps steps).map (·.tactic) = order steps := by
  rw [ofSteps_eq, List.map_map]
  exact List.map_id _

theorem order_perm (steps : List Step) : (order steps).Perm (names steps).eraseDups :=
  List.mergeSort_perm _ _

theorem mem_order {name : String} : name ∈ order steps ↔ name ∈ names steps := by
  rw [(order_perm steps).mem_iff, List.mem_eraseDups]

theorem nodup_order (steps : List Step) : (order steps).Nodup :=
  (order_perm steps).nodup_iff.mpr (nodup_eraseDups _)

theorem rank_trans (a b c : String) (hab : decide (rank a ≤ rank b) = true)
    (hbc : decide (rank b ≤ rank c) = true) : decide (rank a ≤ rank c) = true := by
  simp only [decide_eq_true_eq] at *
  omega

theorem rank_total (a b : String) :
    (decide (rank a ≤ rank b) || decide (rank b ≤ rank a)) = true := by
  simp only [Bool.or_eq_true, decide_eq_true_eq]
  omega

theorem pairwise_order (steps : List Step) :
    (order steps).Pairwise fun a b => rank a ≤ rank b :=
  (List.pairwise_mergeSort rank_trans rank_total (names steps).eraseDups).imp of_decide_eq_true

/-- In a list by rank, the kill chain comes first. -/
theorem filter_append_of_pairwise {order : List String}
    (h : order.Pairwise fun a b => rank a ≤ rank b) :
    order = order.filter (· ∈ killChain) ++ order.filter (· ∉ killChain) := by
  induction order with
  | nil => rfl
  | cons name rest ih =>
    obtain ⟨hname, hrest⟩ := List.pairwise_cons.mp h
    by_cases hk : name ∈ killChain
    · rw [List.filter_cons_of_pos (by simpa using hk),
        List.filter_cons_of_neg (by simpa using hk), List.cons_append, ← ih hrest]
    · have hbehind : ∀ other ∈ rest, other ∉ killChain := by
        intro other hother
        rw [← rank_lt_iff] at hk ⊢
        have := hname other hother
        omega
      have hnone : rest.filter (· ∈ killChain) = [] := by simpa using hbehind
      have hall : rest.filter (· ∉ killChain) = rest := by simpa using hbehind
      rw [List.filter_cons_of_neg (by simpa using hk),
        List.filter_cons_of_pos (by simpa using hk), hnone, hall, List.nil_append]

/-- Names of the kill chain are ordered by it. -/
theorem filter_known (steps : List Step) :
    (order steps).filter (· ∈ killChain) = killChain.filter (· ∈ names steps) := by
  have hknown := (pairwise_order steps).sublist (List.filter_sublist (p := (· ∈ killChain)))
  refine List.Perm.eq_of_pairwise ?_ hknown
    (pairwise_rank_killChain.sublist List.filter_sublist) ?_
  · intro a b ha _ hab hba
    have hka : a ∈ killChain := by simpa using (List.mem_filter.mp ha).2
    exact rank_inj hka (Nat.le_antisymm hab hba)
  · refine (List.perm_ext_iff_of_nodup ((nodup_order steps).filter _)
      (List.Nodup.filter _ (by decide))).mpr fun name => ?_
    rw [List.mem_filter, List.mem_filter, mem_order]
    simp only [decide_eq_true_eq]
    exact and_comm

/-- All other names rank alike, so the sort leaves them as they come up. -/
theorem filter_unknown (steps : List Step) :
    (order steps).filter (· ∉ killChain) = (names steps).eraseDups.filter (· ∉ killChain) := by
  set others := (names steps).eraseDups.filter (· ∉ killChain) with hothers
  have hlast : ∀ name ∈ others, rank name = killChain.length := by
    intro name hname
    have hk : name ∉ killChain := by simpa using (List.mem_filter.mp hname).2
    exact Nat.le_antisymm (rank_le name) (Nat.not_lt.mp (mt rank_lt_iff.mp hk))
  have hsorted : others.Pairwise fun a b => decide (rank a ≤ rank b) = true :=
    List.pairwise_of_forall_mem_list fun a ha b hb => by simp [hlast a ha, hlast b hb]
  have hsub : others.Sublist (order steps) :=
    List.sublist_mergeSort rank_trans rank_total hsorted List.filter_sublist
  have hfiltered := hsub.filter (· ∉ killChain)
  rw [hothers, List.filter_filter] at hfiltered
  simp only [Bool.and_self] at hfiltered
  exact (hfiltered.eq_of_length ((order_perm steps).filter _).length_eq.symm).symm

theorem order_eq (steps : List Step) : order steps =
    killChain.filter (· ∈ names steps) ++ (names steps).eraseDups.filter (· ∉ killChain) := by
  rw [← filter_known, ← filter_unknown]
  exact filter_append_of_pairwise (pairwise_order steps)

/-- The place of the first step that counts under a name. -/
def firstStep (steps : List Step) (name : String) : Nat :=
  steps.findIdx fun s => CountsAs s.tactic name

theorem idxOf_names (steps : List Step) (name : String) :
    (names steps).idxOf name = firstStep steps name := by
  rw [List.idxOf, names, List.findIdx_map, firstStep]
  refine congrArg (fun p => List.findIdx p steps) (funext fun s => ?_)
  rw [Function.comp_apply, Bool.eq_iff_iff, beq_iff_eq, decide_eq_true_iff]
  exact groupName_eq_iff

theorem pairwise_firstStep (steps : List Step) (p : String → Bool) :
    ((names steps).eraseDups.filter p).Pairwise
      fun a b => firstStep steps a < firstStep steps b := by
  have h := pairwise_idxOf_eraseDups (fun _ => true) (names steps)
  rw [List.filter_true] at h
  simp only [idxOf_names] at h
  exact h.sublist List.filter_sublist

/-! ## Counts -/

theorem sum_indicators (names : List String) (q : String → Prop) [DecidablePred q] :
    (names.map fun name => if q name then 1 else 0).sum = names.countP q := by
  induction names with
  | nil => rfl
  | cons name rest ih =>
    rw [List.map_cons, List.sum_cons, ih, List.countP_cons, Nat.add_comm]
    simp only [decide_eq_true_eq]

/-- What is counted of the steps is counted under one name for each of them. -/
theorem sum_countP (p : Step → Bool) {order : List String} (hn : order.Nodup) {steps : List Step}
    (hall : ∀ s ∈ steps, groupName s.tactic ∈ order) :
    (order.map fun name => steps.countP fun s => groupName s.tactic = name ∧ p s = true).sum =
      steps.countP p := by
  induction steps with
  | nil => simp
  | cons s rest ih =>
    have hone : order.countP (fun name => groupName s.tactic = name ∧ p s = true) =
        if p s = true then 1 else 0 := by
      by_cases hp : p s = true
      · have hcount := List.count_eq_one_of_mem hn (hall s List.mem_cons_self)
        rw [if_pos hp, ← hcount, List.count]
        refine List.countP_congr fun name _ => ?_
        rw [decide_eq_true_iff, beq_iff_eq]
        exact ⟨fun h => h.1.symm, fun h => ⟨h.symm, hp⟩⟩
      · rw [if_neg hp]
        exact List.countP_eq_zero.mpr fun name _ => by simp [hp]
    have hrest := ih fun s' hs' => hall s' (List.mem_cons_of_mem _ hs')
    simp only [List.countP_cons, List.sum_map_add, hrest, decide_eq_true_eq]
    rw [sum_indicators, hone]

/-! ## The groups of a run -/

/-- What the groups tell of the steps. -/
structure Covers (steps : List Step) (groups : List TacticCoverage) : Prop where
  nodup : (groups.map (·.tactic)).Nodup
  mem_iff : ∀ name, name ∈ groups.map (·.tactic) ↔ ∃ s ∈ steps, CountsAs s.tactic name
  steps_eq : ∀ g ∈ groups, g.steps = steps.countP fun s => CountsAs s.tactic g.tactic
  successful_eq : ∀ g ∈ groups,
    g.successful = steps.countP fun s => CountsAs s.tactic g.tactic ∧ s.outcome = .success
  total_eq : ∀ g ∈ groups, g.total = (RunStatistics.ofSteps steps).total
  sum_steps : (groups.map (·.steps)).sum = (RunStatistics.ofSteps steps).total
  sum_successful : (groups.map (·.successful)).sum = (RunStatistics.ofSteps steps).successful
  /-- First the kill chain as far as it goes, then the other names as they come up. -/
  inOrder : ∃ known others, groups = known ++ others ∧
    (known.map (·.tactic)).Sublist killChain ∧ (∀ g ∈ others, g.tactic ∉ killChain) ∧
    others.Pairwise fun g g' => firstStep steps g.tactic < firstStep steps g'.tactic

/-- Outside the kill chain, the names come up in the same order. -/
def SameUnknowns (steps steps' : List Step) : Prop :=
  ∀ a ∈ names steps, a ∉ killChain → ∀ b ∈ names steps, b ∉ killChain →
    (firstStep steps a < firstStep steps b ↔ firstStep steps' a < firstStep steps' b)

instance (steps steps' : List Step) : Decidable (SameUnknowns steps steps') :=
  inferInstanceAs (Decidable (∀ a ∈ names steps, a ∉ killChain → ∀ b ∈ names steps,
    b ∉ killChain → (firstStep steps a < firstStep steps b ↔ firstStep steps' a < firstStep steps' b)))

theorem mem_names {name : String} : name ∈ names steps ↔ ∃ s ∈ steps, CountsAs s.tactic name := by
  simp only [names, List.mem_map, groupName_eq_iff]

theorem groupName_mem_order {s : Step} (hs : s ∈ steps) : groupName s.tactic ∈ order steps :=
  mem_order.mpr (List.mem_map_of_mem hs)

theorem ofTactic_steps (steps : List Step) (name : String) :
    (ofTactic steps name).steps = steps.countP fun s => groupName s.tactic = name :=
  List.countP_eq_length_filter.symm

theorem ofTactic_successful (steps : List Step) (name : String) : (ofTactic steps name).successful =
    steps.countP fun s => groupName s.tactic = name ∧ s.outcome = .success := by
  rw [ofTactic, List.countP_filter]
  refine List.countP_congr fun s _ => ?_
  simp only [Bool.and_eq_true, decide_eq_true_eq]
  exact and_comm

theorem covers_ofSteps (steps : List Step) : Covers steps (ofSteps steps) where
  nodup := by
    rw [tactics_ofSteps]
    exact nodup_order steps
  mem_iff name := by rw [tactics_ofSteps, mem_order, mem_names]
  steps_eq g hg := by
    rw [ofSteps_eq] at hg
    obtain ⟨name, -, rfl⟩ := List.mem_map.mp hg
    rw [ofTactic_steps]
    simp only [groupName_eq_iff]
    rfl
  successful_eq g hg := by
    rw [ofSteps_eq] at hg
    obtain ⟨name, -, rfl⟩ := List.mem_map.mp hg
    rw [ofTactic_successful]
    simp only [groupName_eq_iff]
    rfl
  total_eq g hg := by
    rw [ofSteps_eq] at hg
    obtain ⟨name, -, rfl⟩ := List.mem_map.mp hg
    rfl
  sum_steps := by
    have h := sum_countP (fun _ => true) (nodup_order steps) fun s => groupName_mem_order
    simp only [and_true, List.countP_true] at h
    rw [ofSteps_eq, List.map_map]
    simp only [Function.comp_def, ofTactic_steps]
    exact h
  sum_successful := by
    have h := sum_countP (fun s => s.outcome = .success) (nodup_order steps) fun s =>
      groupName_mem_order
    simp only [decide_eq_true_eq] at h
    rw [ofSteps_eq, List.map_map]
    simp only [Function.comp_def, ofTactic_successful]
    exact h
  inOrder := by
    refine ⟨(killChain.filter (· ∈ names steps)).map (ofTactic steps),
      ((names steps).eraseDups.filter (· ∉ killChain)).map (ofTactic steps), ?_, ?_, ?_, ?_⟩
    · rw [ofSteps_eq, order_eq, List.map_append]
    · rw [List.map_map]
      exact (List.map_id _).symm ▸ List.filter_sublist
    · intro g hg
      obtain ⟨name, hname, rfl⟩ := List.mem_map.mp hg
      exact of_decide_eq_true (List.mem_filter.mp hname).2
    · exact List.pairwise_map.mpr (pairwise_firstStep steps _)

/-! ## Other orders of the steps -/

theorem ofTactic_perm (h : steps'.Perm steps) (name : String) :
    ofTactic steps' name = ofTactic steps name := by
  have hmine := h.filter fun s => groupName s.tactic = name
  simp only [ofTactic, hmine.length_eq, hmine.countP_eq, h.length_eq]

theorem order_perm_eq (h : steps'.Perm steps) (hsame : SameUnknowns steps steps') :
    order steps' = order steps := by
  have hnames : ∀ name, name ∈ names steps' ↔ name ∈ names steps := fun name =>
    (h.map _).mem_iff
  have hothers : (names steps').eraseDups.filter (· ∉ killChain) =
      (names steps).eraseDups.filter (· ∉ killChain) := by
    have hordered : ((names steps').eraseDups.filter (· ∉ killChain)).Pairwise
        fun a b => firstStep steps a < firstStep steps b := by
      have hunknown : ∀ {a : String}, a ∈ (names steps').eraseDups.filter (· ∉ killChain) →
          a ∈ names steps ∧ a ∉ killChain := fun ha => by
        obtain ⟨hmem, hk⟩ := List.mem_filter.mp ha
        exact ⟨(hnames _).mp (List.mem_eraseDups.mp hmem), of_decide_eq_true hk⟩
      refine (pairwise_firstStep steps' _).imp_of_mem fun ha hb hab => ?_
      obtain ⟨ha, hka⟩ := hunknown ha
      obtain ⟨hb, hkb⟩ := hunknown hb
      exact (hsame _ ha hka _ hb hkb).mpr hab
    refine List.Perm.eq_of_pairwise (fun a b _ _ hab hba => absurd hab (Nat.lt_asymm hba))
      hordered (pairwise_firstStep steps _) ?_
    refine (List.perm_ext_iff_of_nodup ((nodup_eraseDups _).filter _)
      ((nodup_eraseDups _).filter _)).mpr fun name => ?_
    rw [List.mem_filter, List.mem_filter, List.mem_eraseDups, List.mem_eraseDups, hnames]
  rw [order_eq, order_eq, hothers]
  simp only [hnames]

theorem ofSteps_perm (h : steps'.Perm steps) (hsame : SameUnknowns steps steps') :
    ofSteps steps' = ofSteps steps := by
  rw [ofSteps_eq, ofSteps_eq, order_perm_eq h hsame]
  exact List.map_congr_left fun name _ => ofTactic_perm h name

/-- **The groups divide the steps between them, in kill chain order**, whatever labels the steps
carry: each name once, with its own counts, which add up to those of the statistics. And for any
other order of the steps that leaves the names outside the kill chain to come up as before, they are
the same. -/
theorem ofSteps_partitions (steps : List Step) :
    Covers steps (ofSteps steps) ∧
    (RunStatistics.ofSteps steps).AddsUp ∧
    ∀ steps', steps'.Perm steps → SameUnknowns steps steps' → ofSteps steps' = ofSteps steps :=
  ⟨covers_ofSteps steps, RunStatistics.addsUp_ofSteps steps, fun _ => ofSteps_perm⟩

/-- A step of every kind of label: padded, known, blank and unknown. -/
def mixed : List Step :=
  [(" custom", .success), ("impact", .failure), ("  ", .timeout), ("discovery", .success),
    ("custom", .failure)].map fun (tactic, outcome) =>
      ⟨"T1018", none, tactic, outcome, "whoami", none⟩

/-- The known labels change places, and two steps with one name do. -/
def remixed : List Step :=
  [("discovery", .success), ("custom", .failure), (" custom", .success), ("  ", .timeout),
    ("impact", .failure)].map fun (tactic, outcome) =>
      ⟨"T1018", none, tactic, outcome, "whoami", none⟩

theorem remixed_partitions : remixed.Perm mixed ∧ SameUnknowns mixed remixed ∧
    Covers mixed (ofSteps mixed) ∧ (RunStatistics.ofSteps mixed).AddsUp ∧
    ofSteps remixed = ofSteps mixed := by
  have hperm : remixed.Perm mixed := by decide +kernel
  have hsame : SameUnknowns mixed remixed := by decide +kernel
  obtain ⟨hcovers, hadds, hreordered⟩ := ofSteps_partitions mixed
  exact ⟨hperm, hsame, hcovers, hadds, hreordered remixed hperm hsame⟩

end TacticCoverage
end AfterAction
