import AfterAction.Proofs.Breaker.Admissions

/-!
# Trials keep their distance

An open breaker admits a trial only once the cooldown has passed since the last failure, and every
failure restarts the cooldown, whoever reports it. So a trial comes a cooldown after all failures
before it; and since it must fail before the next one can be granted, the next one comes a cooldown
after it too. A period of being open then lets at most one call through for each cooldown, and one
more.
-/

namespace AfterAction.Breaker

/-- When an operation is made. Successes are reported without their time. -/
def Operation.time? : Operation → Option Nat
  | .allow now | .failed _ now => some now
  | .succeeded _ => none

def times (ops : List Operation) : List Nat := ops.filterMap Operation.time?

/-- The clock never goes back. -/
def InOrder (ops : List Operation) : Prop := (times ops).Pairwise (· ≤ ·)

instance (ops : List Operation) : Decidable (InOrder ops) :=
  inferInstanceAs (Decidable ((times ops).Pairwise (· ≤ ·)))

theorem times_append (ops ops' : List Operation) : times (ops ++ ops') = times ops ++ times ops' :=
  List.filterMap_append

theorem times_cons (op : Operation) (ops : List Operation) :
    times (op :: ops) = op.time?.toList ++ times ops := by
  rw [times, List.filterMap_cons]
  cases op.time? <;> rfl

theorem InOrder.cons {op : Operation} {ops : List Operation} (h : InOrder (op :: ops)) :
    InOrder ops ∧ ∀ now, op.time? = some now → ∀ t ∈ times ops, now ≤ t := by
  rw [InOrder, times_cons] at h
  obtain ⟨-, hrest, hacross⟩ := List.pairwise_append.mp h
  refine ⟨hrest, ?_⟩
  intro now hnow t ht
  exact hacross now (by simp [hnow]) t ht

theorem InOrder.append {ops ops' : List Operation} (h : InOrder (ops ++ ops')) :
    InOrder ops ∧ InOrder ops' ∧ ∀ t ∈ times ops, ∀ t' ∈ times ops', t ≤ t' := by
  rw [InOrder, times_append] at h
  exact List.pairwise_append.mp h

theorem admit?_cooldown {b b' : Breaker} {a : Admission} {now : Nat}
    (h : b.admit? now = some (a, b')) : b'.cooldown = b.cooldown := by
  rcases admit?_cases h with ⟨-, -, rfl⟩ | ⟨-, -, -, -, rfl⟩
  · rfl
  · rfl

theorem succeeded_cooldown (b : Breaker) (a : Admission) :
    (b.succeeded a).cooldown = b.cooldown := by
  unfold succeeded
  split
  · rfl
  · split <;> rfl

namespace Lending

/-- When the operation is a failure that is recorded: its time. -/
def failureAt? (l : Lending) : Operation → Option Nat
  | .failed n now => if (l.find? n).isSome then some now else none
  | _ => none

/-- When the operation is granted an admission: its time. -/
def grantAt? (l : Lending) : Operation → Option Nat
  | .allow now => if (l.breaker.admit? now).isSome then some now else none
  | _ => none

/-- When the failures of a run are recorded. -/
def failureTimes (l : Lending) : List Operation → List Nat
  | [] => []
  | op :: ops => (l.failureAt? op).toList ++ (l.apply op).failureTimes ops

/-- When the admissions of a run are granted. -/
def grantTimes (l : Lending) : List Operation → List Nat
  | [] => []
  | op :: ops => (l.grantAt? op).toList ++ (l.apply op).grantTimes ops

/-- The breaker is open before the operations, between them and afterwards. -/
def OpenThroughout (l : Lending) : List Operation → Prop
  | [] => l.breaker.isOpen = true
  | op :: ops => l.breaker.isOpen = true ∧ (l.apply op).OpenThroughout ops

variable {l : Lending} {op : Operation} {ops : List Operation} {t now : Nat} {ts : List Nat}

theorem OpenThroughout.isOpen (h : l.OpenThroughout ops) : l.breaker.isOpen = true := by
  cases ops with
  | nil => exact h
  | cons op ops => exact h.1

theorem time?_of_failureAt? (h : l.failureAt? op = some t) : op.time? = some t := by
  cases op with
  | failed n now =>
    simp only [failureAt?] at h
    split at h
    · exact h
    · cases h
  | _ => cases h

theorem time?_of_grantAt? (h : l.grantAt? op = some t) : op.time? = some t := by
  cases op with
  | allow now =>
    simp only [grantAt?] at h
    split at h
    · exact h
    · cases h
  | _ => cases h

theorem mem_times_of_failureTimes (h : t ∈ l.failureTimes ops) : t ∈ times ops := by
  induction ops generalizing l with
  | nil => cases h
  | cons op ops ih =>
    rw [times_cons]
    rcases List.mem_append.mp h with h | h
    · exact List.mem_append_left _ (by rw [time?_of_failureAt? (Option.mem_toList.mp h)]; simp)
    · exact List.mem_append_right _ (ih h)

theorem mem_times_of_grantTimes (h : t ∈ l.grantTimes ops) : t ∈ times ops := by
  induction ops generalizing l with
  | nil => cases h
  | cons op ops ih =>
    rw [times_cons]
    rcases List.mem_append.mp h with h | h
    · exact List.mem_append_left _ (by rw [time?_of_grantAt? (Option.mem_toList.mp h)]; simp)
    · exact List.mem_append_right _ (ih h)

theorem apply_cooldown (l : Lending) (op : Operation) :
    (l.apply op).breaker.cooldown = l.breaker.cooldown := by
  cases op with
  | allow now =>
    simp only [apply]
    split
    · rename_i a b' hb
      exact admit?_cooldown hb
    · rfl
  | succeeded n =>
    simp only [apply]
    split
    · exact succeeded_cooldown _ _
    · rfl
  | failed n now =>
    simp only [apply]
    split
    · exact (failed_counts _ _ _).2.2.2
    · rfl

theorem run_cooldown (l : Lending) (ops : List Operation) :
    (l.run ops).breaker.cooldown = l.breaker.cooldown := by
  induction ops generalizing l with
  | nil => rfl
  | cons op ops ih => exact (ih (l.apply op)).trans (l.apply_cooldown op)

/-- Each time in `grantTimes` is that of one admission. -/
theorem granted_run (l : Lending) (ops : List Operation) :
    (l.run ops).granted = l.granted + (l.grantTimes ops).length := by
  induction ops generalizing l with
  | nil => rfl
  | cons op ops ih =>
    have hstep : (l.apply op).granted = l.granted + (l.grantAt? op).toList.length := by
      cases op with
      | allow now =>
        simp only [apply, grantAt?]
        cases l.breaker.admit? now <;> rfl
      | succeeded n =>
        simp only [apply, grantAt?]
        split <;> rfl
      | failed n now =>
        simp only [apply, grantAt?]
        split <;> rfl
    have hrun : (l.run (op :: ops)).granted = ((l.apply op).run ops).granted := rfl
    rw [hrun, ih, hstep, grantTimes, List.length_append, Nat.add_assoc]

/-! ## The last failure is the latest -/

/-- No failure is later than the one that the breaker goes by. -/
def Latest (l : Lending) (ts : List Nat) : Prop :=
  ∀ t ∈ ts, ∃ last, l.breaker.lastFailure = some last ∧ t ≤ last

theorem Latest.apply (h : l.Latest ts) (hnow : ∀ now, op.time? = some now → ∀ t ∈ ts, t ≤ now) :
    (l.apply op).Latest (ts ++ (l.failureAt? op).toList) := by
  cases op with
  | allow now =>
    have hlast : (l.apply (.allow now)).breaker.lastFailure = l.breaker.lastFailure := by
      simp only [Lending.apply]
      split
      · rename_i a b' hb
        rcases admit?_cases hb with ⟨-, -, rfl⟩ | ⟨-, -, -, -, rfl⟩
        · rfl
        · rfl
      · rfl
    intro t ht
    rw [hlast]
    exact h t (by simpa [failureAt?] using ht)
  | succeeded n =>
    have hlast : (l.apply (.succeeded n)).breaker.lastFailure = l.breaker.lastFailure := by
      simp only [Lending.apply]
      split
      · simp only [Breaker.succeeded]
        split
        · rfl
        · split <;> rfl
      · rfl
    intro t ht
    rw [hlast]
    exact h t (by simpa [failureAt?] using ht)
  | failed n now =>
    simp only [Lending.apply, failureAt?]
    split
    · rename_i e hf
      intro t ht
      refine ⟨now, (failed_counts _ _ _).2.1, ?_⟩
      rcases List.mem_append.mp ht with ht | ht
      · exact hnow now rfl t ht
      · simp only [hf, Option.isSome_some, if_true, Option.toList_some, List.mem_singleton] at ht
        exact Nat.le_of_eq ht
    · rename_i hf
      intro t ht
      exact h t (by simpa [hf] using ht)

theorem Latest.run (h : l.Latest ts) (horder : InOrder ops)
    (hnow : ∀ t ∈ ts, ∀ t' ∈ times ops, t ≤ t') :
    (l.run ops).Latest (ts ++ l.failureTimes ops) := by
  induction ops generalizing l ts with
  | nil => simpa [failureTimes, Lending.run] using h
  | cons op ops ih =>
    obtain ⟨hrest, hhead⟩ := horder.cons
    rw [times_cons] at hnow
    have hstep : (l.apply op).Latest (ts ++ (l.failureAt? op).toList) :=
      h.apply fun now he t ht => hnow t ht now (List.mem_append_left _ (by simp [he]))
    rw [failureTimes, ← List.append_assoc]
    refine ih hstep hrest ?_
    intro t ht t' ht'
    rcases List.mem_append.mp ht with ht | ht
    · exact hnow t ht t' (List.mem_append_right _ ht')
    · exact hhead t (time?_of_failureAt? (Option.mem_toList.mp ht)) t' ht'

/-- A trial is granted a cooldown after any time that is not after the last failure. -/
theorem cooldown_le_of_admit? (ho : l.breaker.isOpen = true)
    (hgrant : (l.breaker.admit? now).isSome = true) (hle : t ≤ now)
    (hlast : ∃ last, l.breaker.lastFailure = some last ∧ t ≤ last) :
    t + l.breaker.cooldown ≤ now := by
  obtain ⟨⟨a, b'⟩, hb⟩ := Option.isSome_iff_exists.mp hgrant
  rcases admit?_cases hb with ⟨hclosed, -⟩ | ⟨-, -, hcool, -⟩
  · rw [ho] at hclosed
    cases hclosed
  · obtain ⟨last, hl, htl⟩ := hlast
    simp only [cooledDown, hl, decide_eq_true_eq] at hcool
    omega

/-! ## A trial fails before the next one -/

/-- After a trial granted at one of these times there was a failure that is not before it, unless
it is still out. -/
def Answered (l : Lending) (ts : List Nat) : Prop :=
  l.breaker.trialInFlight = true ∨ l.Latest ts

theorem Answered.apply (h : l.Answered ts) (ho : l.breaker.isOpen = true)
    (ho' : (l.apply op).breaker.isOpen = true)
    (hnow : ∀ now, op.time? = some now → ∀ t ∈ ts, t ≤ now) :
    (l.apply op).Answered (ts ++ (l.grantAt? op).toList) := by
  cases op with
  | allow now =>
    simp only [Lending.apply, grantAt?]
    split
    · rename_i a b' hb
      rcases admit?_cases hb with ⟨hclosed, -⟩ | ⟨-, -, -, -, rfl⟩
      · rw [ho] at hclosed
        cases hclosed
      · exact .inl rfl
    · rename_i hb
      simpa [hb] using h
  | succeeded n =>
    simp only [Lending.apply, grantAt?] at ho' ⊢
    simp only [Option.toList_none, List.append_nil]
    split at ho'
    · rename_i e hf
      cases ha : e.2.trial with
      | true =>
        rw [succeeded_trial ho ha] at ho'
        cases ho'
      | false =>
        simp only [succeeded_late ho ha]
        exact h
    · exact h
  | failed n now =>
    simp only [Lending.apply, grantAt?, Option.toList_none, List.append_nil]
    split
    · refine .inr ?_
      intro t ht
      exact ⟨now, (failed_counts _ _ _).2.1, hnow now rfl t ht⟩
    · exact h

/-- In a period of being open, every grant is a cooldown after each of the earlier ones. -/
theorem Answered.spaced (h : l.Answered ts) (hopen : l.OpenThroughout ops) (horder : InOrder ops)
    (hnow : ∀ t ∈ ts, ∀ t' ∈ times ops, t ≤ t') :
    (∀ t ∈ ts, ∀ t' ∈ l.grantTimes ops, t + l.breaker.cooldown ≤ t') ∧
    (l.grantTimes ops).Pairwise fun t t' => t + l.breaker.cooldown ≤ t' := by
  induction ops generalizing l ts with
  | nil => exact ⟨fun _ _ _ h => (by cases h), .nil⟩
  | cons op ops ih =>
    obtain ⟨ho, hrest⟩ := hopen
    obtain ⟨horder', hhead⟩ := horder.cons
    rw [times_cons] at hnow
    have hop : ∀ now, op.time? = some now → ∀ t ∈ ts, t ≤ now := fun now he t ht =>
      hnow t ht now (List.mem_append_left _ (by simp [he]))
    have hgrant : ∀ t ∈ ts, ∀ t' ∈ (l.grantAt? op).toList, t + l.breaker.cooldown ≤ t' := by
      intro t ht t' ht'
      cases op with
      | allow now =>
        simp only [grantAt?] at ht'
        split at ht'
        · rename_i hgrant
          obtain rfl : t' = now := by simpa using ht'
          refine cooldown_le_of_admit? ho hgrant (hop t' rfl t ht) ?_
          refine (h.resolve_left ?_) t ht
          intro hflight
          simp [admit?, ho, hflight] at hgrant
        · cases ht'
      | succeeded n => cases ht'
      | failed n now => cases ht'
    obtain ⟨hcross, hpair⟩ := ih (h.apply ho hrest.isOpen hop) hrest horder' <| by
      intro t ht t' ht'
      rcases List.mem_append.mp ht with ht | ht
      · exact hnow t ht t' (List.mem_append_right _ ht')
      · exact hhead t (time?_of_grantAt? (Option.mem_toList.mp ht)) t' ht'
    rw [apply_cooldown] at hcross hpair
    refine ⟨?_, ?_⟩
    · intro t ht t' ht'
      rcases List.mem_append.mp ht' with ht' | ht'
      · exact hgrant t ht t' ht'
      · exact hcross t (List.mem_append_left _ ht) t' ht'
    · refine List.pairwise_append.mpr ⟨?_, hpair, ?_⟩
      · cases l.grantAt? op <;> simp
      · intro t ht t' ht'
        exact hcross t (List.mem_append_right _ ht) t' ht'

end Lending

/-- So many times fit into a span, when each is `gap` after the one before. -/
theorem length_le_of_spaced {gap since til : Nat} (hgap : 0 < gap) {ts : List Nat}
    (hpair : ts.Pairwise fun t t' => t + gap ≤ t') (hts : ∀ t ∈ ts, since ≤ t ∧ t ≤ til) :
    ts.length ≤ (til - since) / gap + 1 := by
  induction ts generalizing since with
  | nil => exact Nat.zero_le _
  | cons t rest ih =>
    obtain ⟨hfirst, hrest⟩ := List.pairwise_cons.mp hpair
    obtain ⟨hsince, htil⟩ := hts t List.mem_cons_self
    cases rest with
    | nil => simp
    | cons t' rest =>
      have hlater : ∀ u ∈ t' :: rest, since + gap ≤ u ∧ u ≤ til := by
        intro u hu
        have hu' := hfirst u hu
        exact ⟨by omega, (hts u (List.mem_cons_of_mem _ hu)).2⟩
      have hcount := ih hrest hlater
      have hroom : since + gap ≤ til := by
        obtain ⟨h, h'⟩ := hlater t' List.mem_cons_self
        omega
      have hdiv : (til - since) / gap = (til - (since + gap)) / gap + 1 := by
        have hsplit : til - since = til - (since + gap) + gap := by omega
        rw [hsplit, Nat.add_div_right _ hgap]
      rw [List.length_cons, hdiv]
      exact Nat.succ_le_succ hcount

namespace Lending

/-- **Cooldown and spacing of trials.** Whatever operations come before, in order of time: an open
breaker grants an admission only a cooldown after every failure so far, and none while a trial is
out. While it stays open the admissions it grants are a cooldown apart, so there is at most one for
each cooldown that fits into the period, and one more. -/
theorem run_spaced (threshold cooldown : Nat) (before period : List Operation)
    (horder : InOrder (before ++ period)) :
    let l := (new threshold cooldown).run before
    (∀ now rest, period = .allow now :: rest → l.breaker.isOpen = true →
      (l.breaker.admit? now).isSome = true →
      ∀ t ∈ (new threshold cooldown).failureTimes before, t + cooldown ≤ now) ∧
    (∀ now, l.trials ≠ [] → l.breaker.admit? now = none) ∧
    (l.OpenThroughout period →
      (l.grantTimes period).Pairwise (fun t t' => t + cooldown ≤ t') ∧
      ∀ since til, 0 < cooldown → (∀ t ∈ times period, since ≤ t ∧ t ≤ til) →
        (l.run period).granted ≤ l.granted + ((til - since) / cooldown + 1)) := by
  intro l
  obtain ⟨hbefore, hperiod, hacross⟩ := horder.append
  have hcooldown : l.breaker.cooldown = cooldown := run_cooldown _ before
  refine ⟨?_, ?_, ?_⟩
  · intro now rest hp ho hgrant t ht
    have hlatest : l.Latest ((new threshold cooldown).failureTimes before) := by
      have hnone : (new threshold cooldown).Latest [] := by intro t ht; cases ht
      exact hnone.run hbefore (by intro t ht; cases ht)
    have hle : t ≤ now :=
      hacross t (mem_times_of_failureTimes ht) now (by rw [hp]; exact List.mem_cons_self)
    rw [← hcooldown]
    exact cooldown_le_of_admit? ho hgrant hle (hlatest t ht)
  · intro now hout
    have hsound : l.Sound threshold := (sound_new threshold cooldown).run before
    have hflight : l.breaker.trialInFlight = true := by
      obtain ⟨e, he⟩ := List.exists_mem_of_ne_nil _ hout
      obtain ⟨hmem, htrial⟩ := List.mem_filter.mp he
      exact (hsound.trials_eq hmem htrial).1
    simp [admit?, hsound.open_of_trial hflight, hflight]
  · intro hopen
    have hnone : l.Answered [] := .inr (by intro t ht; cases ht)
    obtain ⟨-, hpair⟩ := hnone.spaced hopen hperiod (by intro t ht; cases ht)
    rw [hcooldown] at hpair
    refine ⟨hpair, ?_⟩
    intro since til hpos hspan
    rw [granted_run]
    have := length_le_of_spaced hpos hpair fun t ht => hspan t (mem_times_of_grantTimes ht)
    omega

/-- One failure at 0 opens a breaker with a cooldown of 60. A failure at 90 of a call from before
the opening puts the first trial off to 150; it fails, and the next one goes at 211. -/
theorem late_failure_spaced :
    let before : List Operation := [.allow 0, .allow 0, .failed 0 0, .failed 1 90]
    let period : List Operation := [.allow 150, .failed 2 151, .allow 210, .allow 211]
    let l := (new 1 60).run before
    InOrder (before ++ period) ∧ l.OpenThroughout period ∧
    (new 1 60).failureTimes before = [0, 90] ∧ l.grantTimes period = [150, 211] ∧
    (∀ t ∈ (new 1 60).failureTimes before, t + 60 ≤ 150) ∧
    (l.grantTimes period).Pairwise (fun t t' => t + 60 ≤ t') ∧
    (l.run period).granted ≤ l.granted + ((211 - 150) / 60 + 1) := by
  intro before period l
  have horder : InOrder (before ++ period) := by decide
  have hopen : l.OpenThroughout period := ⟨rfl, rfl, rfl, rfl, rfl⟩
  obtain ⟨hfirst, -, hperiod⟩ := run_spaced 1 60 before period horder
  obtain ⟨hpair, hbound⟩ := hperiod hopen
  exact ⟨horder, hopen, rfl, rfl, hfirst 150 _ rfl rfl rfl, hpair,
    hbound 150 211 (by decide) (by decide)⟩

end Lending
end AfterAction.Breaker
