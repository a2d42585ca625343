import AfterAction.Proofs.Tagging.Dealings
import AfterAction.Proofs.Tagging.History

/-!
# What a call does to the files

`handlings` are the steps of one call in a run, each with the files that the client found and those
that it left. `Follows` reads the call's records beside them: a step that gave a record to the
fallback found and left the files of that record, and every other step of the call left the files
as it found them.
-/

namespace AfterAction.Tagging

variable {σ : Type}

/-- The records that a call gave to the fallback. -/
def keepings (met : List (Encounter σ)) : List (Keeping σ) :=
  met.filterMap fun
    | .fallback k => some k
    | _ => none

theorem keepings_append (met met' : List (Encounter σ)) :
    keepings (met ++ met') = keepings met ++ keepings met' := List.filterMap_append

/-- A step of a call, with the files before and after it. -/
structure Handling (σ : Type) where
  event : Event σ × Moment
  before : σ
  after : σ

def Handling.Idle (h : Handling σ) : Prop := h.after = h.before

/-- The step of the call at place `i` that gave the record to the fallback. -/
def Keeping.handling (k : Keeping σ) (i : Nat) (m : Moment) : Handling σ :=
  ⟨(.keep i k.suffix, m), k.before, k.after⟩

/-- Of all steps of the call, this record's is the one that was not idle. -/
def Keeping.Filed (k : Keeping σ) (i : Nat) (hs : List (Handling σ)) : Prop :=
  ∃ earlier m later, hs = earlier ++ k.handling i m :: later ∧ m.wall = k.now ∧
    ∀ h ∈ earlier ++ later, h.Idle

/-- Records of a call, one for each of its steps that was not idle. -/
inductive Follows (i : Nat) : List (Keeping σ) → List (Handling σ) → Prop
  | nil : Follows i [] []
  | idle {ks : List (Keeping σ)} {hs : List (Handling σ)} {h : Handling σ} :
      h.Idle → Follows i ks hs → Follows i ks (h :: hs)
  | kept {ks : List (Keeping σ)} {hs : List (Handling σ)} {k : Keeping σ} {m : Moment} :
      m.wall = k.now → Follows i ks hs → Follows i (k :: ks) (k.handling i m :: hs)

variable {i : Nat} {ks : List (Keeping σ)} {hs : List (Handling σ)}

theorem Follows.append (h : Follows i ks hs) {ks' : List (Keeping σ)} {hs' : List (Handling σ)}
    (h' : Follows i ks' hs') : Follows i (ks ++ ks') (hs ++ hs') := by
  induction h with
  | nil => exact h'
  | idle hidle _ ih => exact .idle hidle ih
  | kept hnow _ ih => exact .kept hnow ih

theorem Follows.idle_of_nil (h : Follows i ks hs) (hks : ks = []) : ∀ h ∈ hs, h.Idle := by
  induction h with
  | nil => exact nofun
  | idle hidle _ ih => exact List.forall_mem_cons.mpr ⟨hidle, ih hks⟩
  | kept => cases hks

theorem Follows.filed {k : Keeping σ} (h : Follows i ks hs) (hks : ks = [k]) : k.Filed i hs := by
  induction h with
  | nil => cases hks
  | @idle ks hs h hidle _ ih =>
    obtain ⟨earlier, m, later, rfl, hnow, hrest⟩ := ih hks
    exact ⟨h :: earlier, m, later, rfl, hnow, List.forall_mem_cons.mpr ⟨hidle, hrest⟩⟩
  | @kept ks hs k m hnow hlater _ =>
    obtain ⟨rfl, rfl⟩ := List.cons.inj hks
    exact ⟨[], m, hs, rfl, hnow, hlater.idle_of_nil rfl⟩

/-- What is no record of the call adds none. -/
theorem keepings_none {x : Option (Nat × Encounter σ)} (hnone : ∀ k, x ≠ some (i, .fallback k)) :
    keepings ((x.toList.filter (·.1 = i)).map (·.2)) = [] := by
  rcases x with _ | ⟨j, x⟩
  · rfl
  · cases x with
    | fallback k =>
      have hne : j ≠ i := fun he => hnone k (he ▸ rfl)
      simp [hne, keepings]
    | _ => by_cases he : j = i <;> simp [he, keepings]

namespace World

variable [FileStore σ] {w : World σ} {m : Moment}

/-- The step of an event, if it is one of the call. -/
def handled (w : World σ) (i : Nat) (e : Event σ × Moment) : List (Handling σ) :=
  if w.place? e.1 = some i then [⟨e, w.files, (w.step e).files⟩] else []

def handlings (w : World σ) (i : Nat) : List (Event σ × Moment) → List (Handling σ)
  | [] => []
  | e :: es => w.handled i e ++ (w.step e).handlings i es

/-- A record that a call has met is one that it gave to the fallback just then, with the files of
the world before and after. -/
theorem fallback_of_encounter? {e : Event σ} {k : Keeping σ}
    (h : w.encounter? m e = some (i, .fallback k)) :
    e = .keep i k.suffix ∧ m.wall = k.now ∧ k.before = w.files ∧
      k.after = (w.step (e, m)).files := by
  cases e with
  | keep j suffix =>
    simp only [encounter?] at h
    split at h <;> cases h
    rename_i document reason hc
    refine ⟨rfl, rfl, rfl, ?_⟩
    simp only [World.step, happen, Tagging.keep, hc]
  | start run | notice j =>
    simp only [encounter?, entry] at h
    grind
  | answered j answer | resume j | expire j =>
    simp only [encounter?] at h
    grind
  | elsewhere change => cases h

/-- A step of a call that begins no record leaves the files alone. -/
theorem files_step {e : Event σ} (hplace : w.place? e = some i)
    (hnone : ∀ k, w.encounter? m e ≠ some (i, .fallback k)) : (w.step (e, m)).files = w.files := by
  cases e with
  | start run =>
    simp only [World.step, happen]
    split <;> rfl
  | notice | answered | resume | expire => rfl
  | keep j suffix =>
    cases hplace
    simp only [World.step, happen, Tagging.keep]
    split
    · rename_i hc
      simp only [encounter?, hc] at hnone
      exact absurd rfl (hnone _)
    · rfl
  | elsewhere => cases hplace

theorem met_step (w : World σ) (i : Nat) (e : Event σ × Moment) :
    (w.step e).met i =
      w.met i ++ ((w.encounter? e.2 e.1).toList.filter (·.1 = i)).map (·.2) := by
  simp [met, World.step]

/-- What an event adds to the records of a call, and the call's step in it. -/
theorem follows_step (w : World σ) (i : Nat) (e : Event σ × Moment) :
    ∃ ks, keepings ((w.step e).met i) = keepings (w.met i) ++ ks ∧ Follows i ks (w.handled i e) := by
  rw [met_step, keepings_append]
  refine ⟨_, rfl, ?_⟩
  obtain ⟨e, m⟩ := e
  by_cases hkeep : ∃ k, w.encounter? m e = some (i, .fallback k)
  · obtain ⟨k, hk⟩ := hkeep
    obtain ⟨rfl, hnow, hbefore, hafter⟩ := fallback_of_encounter? hk
    have hstep : w.handled i (.keep i k.suffix, m) = [k.handling i m] := by
      rw [handled, if_pos (place?_of_encounter? hk), Keeping.handling, hbefore, hafter]
    rw [hk, hstep]
    simpa [keepings] using Follows.kept hnow .nil
  · have hnone : ∀ k, w.encounter? m e ≠ some (i, .fallback k) := fun k hk => hkeep ⟨k, hk⟩
    rw [keepings_none hnone, handled]
    split
    · exact .idle (files_step ‹_› hnone) .nil
    · exact .nil

/-- **What a call does to the files is what its records say.** -/
theorem follows_play (w : World σ) (i : Nat) (es : List (Event σ × Moment)) :
    ∃ ks, keepings ((w.play es).met i) = keepings (w.met i) ++ ks ∧
      Follows i ks (w.handlings i es) := by
  induction es generalizing w with
  | nil => exact ⟨[], (List.append_nil _).symm, .nil⟩
  | cons e es ih =>
    obtain ⟨ks, hks, hfirst⟩ := follows_step w i e
    obtain ⟨ks', hks', hrest⟩ := ih (w.step e)
    refine ⟨ks ++ ks', ?_, hfirst.append hrest⟩
    rw [← List.append_assoc, ← hks]
    exact hks'

end World
end AfterAction.Tagging
