import Mathlib.Data.List.Nodup
import AfterAction.Proofs.Breaker.Admissions

/-!
# A breaker and the calls that use it

`Dealing` lists what a call can do to a breaker that it shares, `deal?` says what that makes of the
breaker, and `Turn` what it makes of the admission that the call has. `Lends` is a sound breaker with
the admissions that are out, in no order: those who share a breaker keep it, one turn after the
other, by counting their own calls in flight, whatever the calls are. With none in flight no trial is
out, so a cooled-down breaker admits the next call, and the success of that call closes it.
-/

namespace AfterAction

/-! ## What many do, by one -/

variable {δ : Type}

/-- What one of them did, of a record in which each entry bears a number. -/
def ofCall (trace : List (Nat × δ)) (i : Nat) : List δ := (trace.filter (·.1 = i)).map (·.2)

theorem ofCall_append (trace trace' : List (Nat × δ)) (i : Nat) :
    ofCall (trace ++ trace') i = ofCall trace i ++ ofCall trace' i := by
  simp [ofCall]

theorem ofCall_map (ds : List δ) (i j : Nat) :
    ofCall (ds.map (Prod.mk i)) j = if i = j then ds else [] := by
  unfold ofCall
  split
  · rename_i h
    subst h
    induction ds with
    | nil => rfl
    | cons d ds ih => simpa using ih
  · rename_i h
    rw [List.filter_eq_nil_iff.mpr, List.map_nil]
    intro e he
    obtain ⟨d, -, rfl⟩ := List.mem_map.mp he
    simpa using h

namespace Breaker

/-! ## What a call does to a breaker -/

/-- What a call does to the breaker that it shares. -/
inductive Dealing
  | granted (a : Admission) (now : Nat)
  | refused (now : Nat)
  | succeeded (a : Admission)
  | failed (a : Admission) (now : Nat)
  deriving DecidableEq, Repr

/-- The breaker after a dealing; none if it would have answered otherwise. -/
def deal? (b : Breaker) : Dealing → Option Breaker
  | .granted a now =>
    match b.admit? now with
    | some (a', b') => if a' = a then some b' else none
    | none => none
  | .refused now => if (b.admit? now).isNone then some b else none
  | .succeeded a => some (b.succeeded a)
  | .failed a now => some (b.failed a now)

/-- The breaker after dealings, each of them possible in its turn. -/
def replay? (b : Breaker) (ds : List Dealing) : Option Breaker := ds.foldlM deal? b

/-- What a call does to the breaker in one step, with the admission that it has before and after. -/
inductive Turn : List Dealing → Option Admission → Option Admission → Prop
  | idle (had : Option Admission) : Turn [] had had
  | granted (a : Admission) (now : Nat) : Turn [.granted a now] none (some a)
  | refused (now : Nat) : Turn [.refused now] none none
  | succeeded (a : Admission) : Turn [.succeeded a] (some a) none
  | failed (a : Admission) (now : Nat) : Turn [.failed a now] (some a) none

theorem deal?_granted {b b' : Breaker} {a : Admission} {now : Nat}
    (h : b.admit? now = some (a, b')) : b.deal? (.granted a now) = some b' := by
  simp [deal?, h]

theorem admit?_of_deal? {b b' : Breaker} {a : Admission} {now : Nat}
    (h : b.deal? (.granted a now) = some b') : b.admit? now = some (a, b') := by
  simp only [deal?] at h
  split at h
  · rename_i a' b'' hgrant
    split at h
    · rename_i ha
      cases h
      rw [hgrant, ha]
    · cases h
  · cases h

theorem deal?_refused {b : Breaker} {now : Nat} (h : b.admit? now = none) :
    b.deal? (.refused now) = some b := by
  simp [deal?, h]

theorem eq_of_deal?_refused {b b' : Breaker} {now : Nat} (h : b.deal? (.refused now) = some b') :
    b' = b := by
  simp only [deal?] at h
  split at h
  · cases h
    rfl
  · cases h

theorem replay?_singleton (b : Breaker) (d : Dealing) : b.replay? [d] = b.deal? d := by
  simp [replay?]

theorem replay?_append {b b' b'' : Breaker} {ds ds' : List Dealing} (h : b.replay? ds = some b')
    (h' : b'.replay? ds' = some b'') : b.replay? (ds ++ ds') = some b'' := by
  unfold replay? at h ⊢
  rw [List.foldlM_append, h]
  exact h'

/-- What one element gives to a filtered list, whatever is made of it. -/
theorem filterMap_modify {α β : Type} (f : α → Option β) {l : List α} {i : Nat} {a : α}
    (h : l[i]? = some a) :
    ∃ rest, (l.filterMap f).Perm ((f a).toList ++ rest) ∧
      ∀ g : α → α, ((l.modify i g).filterMap f).Perm ((f (g a)).toList ++ rest) := by
  obtain ⟨hi, rfl⟩ := List.getElem?_eq_some_iff.mp h
  have hsplit : ∀ x : α, ((l.take i ++ x :: l.drop (i + 1)).filterMap f).Perm
      ((f x).toList ++ ((l.take i).filterMap f ++ (l.drop (i + 1)).filterMap f)) := by
    intro x
    rw [List.filterMap_append, List.filterMap_cons]
    cases f x with
    | none => exact .refl _
    | some y => exact List.perm_middle
  refine ⟨(l.take i).filterMap f ++ (l.drop (i + 1)).filterMap f, ?_, ?_⟩
  · have hl : l = l.take i ++ l[i] :: l.drop (i + 1) := by simp
    exact (List.Perm.of_eq (congrArg (List.filterMap f) hl)).trans (hsplit l[i])
  · intro g
    have hl : l.modify i g = l.take i ++ g l[i] :: l.drop (i + 1) :=
      List.modify_eq_take_cons_drop hi
    exact (List.Perm.of_eq (congrArg (List.filterMap f) hl)).trans (hsplit (g l[i]))

/-! ## Admissions by their places -/

namespace Lending

/-- No two admissions that are out have one place, and new places are still free. -/
structure Numbered (l : Lending) : Prop where
  nodup : (l.out.map (·.1)).Nodup
  lt : ∀ e ∈ l.out, e.1 < l.granted

theorem numbered_new (threshold cooldown : Nat) : (new threshold cooldown).Numbered where
  nodup := List.nodup_nil
  lt e he := by cases he

variable {l : Lending} {threshold : Nat} {e : Nat × Admission}

theorem Numbered.find? (h : l.Numbered) (he : e ∈ l.out) : l.find? e.1 = some e := by
  cases hf : l.find? e.1 with
  | none => exact absurd (List.find?_eq_none.mp hf e he) (by simp)
  | some e' =>
    obtain ⟨hmem, hplace⟩ := find?_some hf
    rw [List.inj_on_of_nodup_map h.nodup hmem he hplace]

theorem Numbered.erase (h : l.Numbered) (e : Nat × Admission) :
    ((l.out.erase e).map (·.1)).Nodup ∧ ∀ e' ∈ l.out.erase e, e'.1 < l.granted :=
  ⟨h.nodup.sublist (List.erase_sublist.map _), fun e' he' => h.lt e' (List.mem_of_mem_erase he')⟩

/-- A grant puts the admission out under a place of its own. -/
theorem Numbered.grant (h : l.Numbered) (a : Admission) (breaker : Breaker) :
    Numbered ⟨breaker, l.granted + 1, (l.granted, a) :: l.out, l.recent⟩ where
  nodup := by
    refine List.nodup_cons.mpr ⟨?_, h.nodup⟩
    intro hmem
    obtain ⟨e, he, heq⟩ := List.mem_map.mp hmem
    exact Nat.ne_of_lt (h.lt e he) heq
  lt e he := by
    rcases List.mem_cons.mp he with rfl | he
    · exact Nat.lt_succ_self _
    · exact Nat.lt_succ_of_lt (h.lt e he)

/-- An admission that is out is among those that a list of them counts. -/
theorem exists_mem_out {a : Admission} {out : List Admission}
    (hperm : (l.out.map (·.2)).Perm (a :: out)) :
    ∃ e ∈ l.out, e.2 = a ∧ ((l.out.erase e).map (·.2)).Perm out := by
  obtain ⟨e, he, rfl⟩ := List.mem_map.mp (hperm.mem_iff.mpr List.mem_cons_self)
  refine ⟨e, he, rfl, ?_⟩
  have hsplit := (List.perm_cons_erase he).map (·.2)
  rw [List.map_cons] at hsplit
  exact (List.perm_cons e.2).mp (hsplit.symm.trans hperm)

end Lending

/-! ## A sound breaker with what is out -/

/-- The breaker is what it should be while exactly these admissions are out. -/
def Lends (threshold : Nat) (b : Breaker) (out : List Admission) : Prop :=
  ∃ l : Lending, l.Sound threshold ∧ l.Numbered ∧ l.breaker = b ∧ (l.out.map (·.2)).Perm out

variable {threshold : Nat} {b b' : Breaker} {out out' : List Admission} {a : Admission} {now : Nat}

theorem lends_new (threshold cooldown : Nat) : Lends threshold (Breaker.new threshold cooldown) [] :=
  ⟨.new threshold cooldown, Lending.sound_new threshold cooldown,
    Lending.numbered_new threshold cooldown, rfl, .refl _⟩

theorem Lends.perm (h : Lends threshold b out) (hperm : out.Perm out') : Lends threshold b out' := by
  obtain ⟨l, hsound, hnumbered, hb, hout⟩ := h
  exact ⟨l, hsound, hnumbered, hb, hout.trans hperm⟩

theorem Lends.granted (h : Lends threshold b out) (hgrant : b.admit? now = some (a, b')) :
    Lends threshold b' (a :: out) := by
  obtain ⟨l, hsound, hnumbered, rfl, hout⟩ := h
  have hstep : l.apply (.allow now) = ⟨b', l.granted + 1, (l.granted, a) :: l.out, l.recent⟩ := by
    simp [Lending.apply, hgrant]
  refine ⟨l.apply (.allow now), hsound.allow now, ?_, ?_, ?_⟩
  · rw [hstep]
    exact hnumbered.grant a b'
  · rw [hstep]
  · rw [hstep]
    exact hout.cons a

theorem Lends.succeeded (h : Lends threshold b (a :: out)) :
    Lends threshold (b.succeeded a) out := by
  obtain ⟨l, hsound, hnumbered, rfl, hout⟩ := h
  obtain ⟨e, he, rfl, hrest⟩ := Lending.exists_mem_out hout
  have hstep := hsound.succeeded e.1
  simp only [Lending.apply, hnumbered.find? he] at hstep
  obtain ⟨hnodup, hlt⟩ := hnumbered.erase e
  exact ⟨_, hstep, ⟨hnodup, hlt⟩, rfl, hrest⟩

theorem Lends.failed (h : Lends threshold b (a :: out)) (now : Nat) :
    Lends threshold (b.failed a now) out := by
  obtain ⟨l, hsound, hnumbered, rfl, hout⟩ := h
  obtain ⟨e, he, rfl, hrest⟩ := Lending.exists_mem_out hout
  have hstep := hsound.failed e.1 now
  simp only [Lending.apply, hnumbered.find? he] at hstep
  obtain ⟨hnodup, hlt⟩ := hnumbered.erase e
  exact ⟨_, hstep, ⟨hnodup, hlt⟩, rfl, hrest⟩

/-- A turn of one call leaves out what the others have and what the call has then. -/
theorem Lends.turn {ds : List Dealing} {had has : Option Admission}
    (h : Lends threshold b (had.toList ++ out)) (hd : b.replay? ds = some b')
    (ht : Turn ds had has) : Lends threshold b' (has.toList ++ out) := by
  cases ht with
  | idle =>
    cases hd
    exact h
  | granted a now =>
    rw [replay?_singleton] at hd
    exact Lends.granted h (admit?_of_deal? hd)
  | refused now =>
    rw [replay?_singleton] at hd
    rw [eq_of_deal?_refused hd]
    exact h
  | succeeded a =>
    cases hd
    exact Lends.succeeded h
  | failed a now =>
    cases hd
    exact Lends.failed h now

/-- Calls in a list share the breaker: a turn of one of them, which changes its entry only. -/
theorem Lends.modify {α : Type} {f : α → Option Admission} {g : α → α} {l : List α} {i : Nat} {x : α}
    {ds : List Dealing} (h : Lends threshold b (l.filterMap f)) (hx : l[i]? = some x)
    (hd : b.replay? ds = some b') (ht : Turn ds (f x) (f (g x))) :
    Lends threshold b' ((l.modify i g).filterMap f) := by
  obtain ⟨rest, hbefore, hafter⟩ := filterMap_modify f hx
  exact ((h.perm hbefore).turn hd ht).perm (hafter g).symm

/-- With nothing out, no trial is marked in flight. -/
theorem Lends.quiet (h : Lends threshold b []) : b.trialInFlight = false := by
  obtain ⟨l, hsound, -, rfl, hout⟩ := h
  have hnil : l.out = [] := List.map_eq_nil_iff.mp hout.eq_nil
  have hlen := hsound.trials_length
  rw [Lending.trials, hnil] at hlen
  cases hf : l.breaker.trialInFlight with
  | false => rfl
  | true => simp [hf] at hlen

/-! ## Cooling down -/

/-- The time of the failure that a dealing reports. -/
def Dealing.failure? : Dealing → Option Nat
  | .failed _ now => some now
  | _ => none

/-- The time of the last failure. -/
def lastFailed? (ds : List Dealing) : Option Nat := (ds.filterMap Dealing.failure?).getLast?

theorem lastFailed?_cons (d : Dealing) (ds : List Dealing) :
    lastFailed? (d :: ds) = (lastFailed? ds).or d.failure? := by
  cases d <;> simp [lastFailed?, Dealing.failure?, List.getLast?_cons, Option.or_some]

theorem dated_of_deal? {d : Dealing} (h : b.deal? d = some b') :
    b'.cooldown = b.cooldown ∧ b'.lastFailure = d.failure?.or b.lastFailure := by
  cases d with
  | granted a now =>
    rcases admit?_cases (admit?_of_deal? h) with ⟨-, -, rfl⟩ | ⟨-, -, -, -, rfl⟩
    · exact ⟨rfl, rfl⟩
    · exact ⟨rfl, rfl⟩
  | refused now =>
    rw [eq_of_deal?_refused h]
    exact ⟨rfl, rfl⟩
  | succeeded a =>
    cases h
    unfold succeeded
    split
    · exact ⟨rfl, rfl⟩
    · split <;> exact ⟨rfl, rfl⟩
  | failed a now =>
    cases h
    obtain ⟨-, hlast, -, hcooldown⟩ := failed_counts b a now
    exact ⟨hcooldown, hlast⟩

/-- The breaker knows when it heard of a failure last. -/
theorem dated_of_replay? {ds : List Dealing} (h : b.replay? ds = some b') :
    b'.cooldown = b.cooldown ∧ b'.lastFailure = (lastFailed? ds).or b.lastFailure := by
  induction ds generalizing b with
  | nil =>
    cases h
    exact ⟨rfl, rfl⟩
  | cons d ds ih =>
    rw [replay?, List.foldlM_cons] at h
    obtain ⟨b₁, hd, hds⟩ := Option.bind_eq_some_iff.mp h
    obtain ⟨hcooldown, hlast⟩ := dated_of_deal? hd
    obtain ⟨hcooldown', hlast'⟩ := ih hds
    refine ⟨hcooldown'.trans hcooldown, ?_⟩
    rw [hlast', hlast, lastFailed?_cons, Option.or_assoc]

/-- The cooldown since the last failure has passed. -/
def Cooled (b : Breaker) (now : Nat) : Prop :=
  ∀ last, b.lastFailure = some last → last + b.cooldown ≤ now

theorem cooled_of_replay? {cooldown : Nat} {ds : List Dealing}
    (h : (Breaker.new threshold cooldown).replay? ds = some b)
    (hlast : ∀ last, lastFailed? ds = some last → last + cooldown ≤ now) : b.Cooled now := by
  obtain ⟨hcooldown, hdated⟩ := dated_of_replay? h
  intro last hb
  rw [hcooldown]
  refine hlast last ?_
  have hfirst : (Breaker.new threshold cooldown).lastFailure = none := rfl
  rwa [hdated, hfirst, Option.or_none] at hb

/-- A breaker with no trial in flight admits a call once it has cooled down. -/
theorem admit?_of_cooled (hflight : b.trialInFlight = false) (hcool : b.Cooled now) :
    ∃ a b', b.admit? now = some (a, b') := by
  cases ho : b.isOpen with
  | false => exact ⟨⟨false⟩, b, by simp [admit?, ho]⟩
  | true =>
    have hcd : b.cooledDown now = true := by
      unfold cooledDown
      cases hl : b.lastFailure with
      | none => rfl
      | some last =>
        have := hcool last hl
        exact decide_eq_true (by omega)
    exact ⟨⟨true⟩, { b with trialInFlight := true }, by simp [admit?, ho, hflight, hcd]⟩

/-- An open breaker that admitted a call admits no other until it hears of that one. -/
theorem admit?_of_trial (h : b.admit? now = some (a, b')) (hopen : b.isOpen = true) (later : Nat) :
    b'.admit? later = none := by
  rcases admit?_cases h with ⟨hclosed, -⟩ | ⟨-, -, -, -, rfl⟩
  · rw [hopen] at hclosed
    cases hclosed
  · simp [admit?, hopen]

/-- The success of a call that was just admitted leaves the breaker closed with nothing counted. -/
theorem succeeded_of_admit? (h : b.admit? now = some (a, b')) :
    (b'.succeeded a).isOpen = false ∧ (b'.succeeded a).failures = 0 := by
  rcases admit?_cases h with ⟨hclosed, rfl, rfl⟩ | ⟨hopen, -, -, rfl, rfl⟩
  · rw [succeeded_of_closed hclosed]
    exact ⟨hclosed, rfl⟩
  · have htrial : ({ b with trialInFlight := true } : Breaker).isOpen = true := hopen
    rw [succeeded_trial htrial rfl]
    exact ⟨rfl, rfl⟩

end Breaker
end AfterAction
