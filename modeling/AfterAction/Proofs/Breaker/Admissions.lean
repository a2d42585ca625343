import AfterAction.Breaker

/-!
# Admissions out on loan

A breaker grants admissions and takes each back with a result, late and in any order. `Lending`
is a breaker together with the admissions that are out and the failures that count. `Sound` ties
the breaker's own fields to these, and no operation breaks it: so the flag of an open breaker stands
for the one trial that is out, and only that trial's success closes it.
-/

namespace AfterAction.Breaker

/-- One operation on a breaker. An admission is known by its place among those granted. -/
inductive Operation
  | allow (now : Nat)
  | succeeded (n : Nat)
  | failed (n now : Nat)
  deriving DecidableEq, Repr

/-- A breaker, and what its operations so far have come to. -/
structure Lending where
  breaker : Breaker
  /-- Admissions granted so far. -/
  granted : Nat
  /-- Granted and not handed back, with their places. -/
  out : List (Nat × Admission)
  /-- Failures since the last reset: the breaker's making, a success reported to it while it was
  closed, or the trial's success. -/
  recent : Nat
  deriving DecidableEq, Repr

namespace Lending

def new (threshold cooldown : Nat) : Lending := ⟨Breaker.new threshold cooldown, 0, [], 0⟩

def find? (l : Lending) (n : Nat) : Option (Nat × Admission) := l.out.find? (·.1 = n)

/-- An admission that is not out cannot be handed back: nothing happens. -/
def apply (l : Lending) : Operation → Lending
  | .allow now =>
    match l.breaker.admit? now with
    | some (a, breaker) => ⟨breaker, l.granted + 1, (l.granted, a) :: l.out, l.recent⟩
    | none => l
  | .succeeded n =>
    match l.find? n with
    | some e =>
      { l with
        breaker := l.breaker.succeeded e.2
        out := l.out.erase e
        recent := if l.breaker.isOpen && !e.2.trial then l.recent else 0 }
    | none => l
  | .failed n now =>
    match l.find? n with
    | some e =>
      { l with
        breaker := l.breaker.failed e.2 now
        out := l.out.erase e
        recent := l.recent + 1 }
    | none => l

def run (l : Lending) (ops : List Operation) : Lending := ops.foldl apply l

/-- The trial admissions that are out. -/
def trials (l : Lending) : List (Nat × Admission) := l.out.filter (·.2.trial)

/-- What the fields of the breaker say about its past. -/
structure Sound (threshold : Nat) (l : Lending) : Prop where
  threshold_eq : l.breaker.threshold = max threshold 1
  closed_iff : l.breaker.isOpen = false ↔ l.breaker.failures < max threshold 1
  failures_eq : l.breaker.failures = min l.recent failureCap
  trials_length : l.trials.length = if l.breaker.trialInFlight then 1 else 0
  open_of_trial : l.breaker.trialInFlight = true → l.breaker.isOpen = true
  dated : l.breaker.isOpen = true → l.breaker.lastFailure.isSome = true

variable {threshold : Nat} {l : Lending} {n : Nat} {e : Nat × Admission}

theorem find?_some (h : l.find? n = some e) : e ∈ l.out ∧ e.1 = n :=
  ⟨List.mem_of_find?_eq_some h, by simpa using List.find?_some h⟩

/-- Handing an admission back takes a trial from those out exactly if it is one. -/
theorem length_trials_erase (h : e ∈ l.out) :
    ((l.out.erase e).filter (·.2.trial)).length + (if e.2.trial then 1 else 0) =
      l.trials.length := by
  have hp := (List.perm_cons_erase h).filter (·.2.trial)
  rw [trials, hp.length_eq, List.filter_cons]
  split <;> simp

theorem max_one_pos (threshold : Nat) : 0 < max threshold 1 := by omega

theorem sound_new (threshold cooldown : Nat) : (new threshold cooldown).Sound threshold where
  threshold_eq := rfl
  closed_iff := ⟨fun _ => max_one_pos threshold, fun _ => rfl⟩
  failures_eq := by simp [new, Breaker.new]
  trials_length := by simp [new, Breaker.new, trials]
  open_of_trial := by simp [new, Breaker.new]
  dated := by simp [new, Breaker.new]

/-- A trial that is out is the only one, and the flag stands for it. -/
theorem Sound.trials_eq (h : l.Sound threshold) (he : e ∈ l.out) (ht : e.2.trial = true) :
    l.breaker.trialInFlight = true ∧ l.trials = [e] := by
  have hm : e ∈ l.trials := List.mem_filter.mpr ⟨he, ht⟩
  have hlen := h.trials_length
  split at hlen
  · rename_i hf
    obtain ⟨x, hx⟩ := List.length_eq_one_iff.mp hlen
    rw [hx, List.mem_singleton] at hm
    exact ⟨hf, by rw [hx, hm]⟩
  · rw [List.length_eq_zero_iff.mp hlen] at hm
    cases hm

theorem Sound.allow (h : l.Sound threshold) (now : Nat) :
    (l.apply (.allow now)).Sound threshold := by
  simp only [apply]
  split
  · rename_i a b' hb
    have hlen := h.trials_length
    rcases admit?_cases hb with ⟨_, rfl, rfl⟩ | ⟨ho, ht, _, rfl, rfl⟩
    · exact { h with }
    · rw [ht] at hlen
      exact { h with
        trials_length := by simpa [trials] using hlen
        open_of_trial := fun _ => ho }
  · exact h

theorem Sound.succeeded (h : l.Sound threshold) (n : Nat) :
    (l.apply (.succeeded n)).Sound threshold := by
  simp only [apply]
  split
  · rename_i e hf
    have hm := (find?_some hf).1
    have hlen := length_trials_erase hm
    rw [h.trials_length] at hlen
    cases ho : l.breaker.isOpen with
    | false =>
      have ht : l.breaker.trialInFlight = false := by
        cases ht : l.breaker.trialInFlight with
        | false => rfl
        | true => rw [h.open_of_trial ht] at ho; cases ho
      rw [succeeded_of_closed ho]
      exact {
        threshold_eq := h.threshold_eq
        closed_iff := ⟨fun _ => max_one_pos threshold, fun _ => ho⟩
        failures_eq := by simp
        trials_length := by
          rw [ht] at hlen ⊢
          exact Nat.eq_zero_of_add_eq_zero_right hlen
        open_of_trial := h.open_of_trial
        dated := h.dated }
    | true =>
      cases ha : e.2.trial with
      | true =>
        rw [succeeded_trial ho ha]
        rw [(h.trials_eq hm ha).1, ha] at hlen
        exact {
          threshold_eq := h.threshold_eq
          closed_iff := ⟨fun _ => max_one_pos threshold, fun _ => rfl⟩
          failures_eq := by simp
          trials_length := Nat.add_right_cancel hlen
          open_of_trial := by simp
          dated := by simp }
      | false =>
        rw [succeeded_late ho ha]
        rw [ha] at hlen
        exact { h with trials_length := by simpa [trials] using hlen }
  · exact h

theorem Sound.failed (h : l.Sound threshold) (n now : Nat) :
    (l.apply (.failed n now)).Sound threshold := by
  simp only [apply]
  split
  · rename_i e hf
    have hm := (find?_some hf).1
    have hlen := length_trials_erase hm
    rw [h.trials_length] at hlen
    obtain ⟨hfail, hlast, hthr, _⟩ := failed_counts l.breaker e.2 now
    have hopen := failed_isOpen l.breaker e.2 now
    have htrial := failed_trialInFlight l.breaker e.2 now
    have hclosed := h.closed_iff
    have hcap := h.failures_eq
    refine ⟨hthr.trans h.threshold_eq, ?_, ?_, ?_, ?_, ?_⟩
    · simp only [hfail, hopen, h.threshold_eq, Bool.or_eq_false_iff, decide_eq_false_iff_not,
        hclosed]
      generalize failureCap = cap at *
      omega
    · simp only [hfail]
      generalize failureCap = cap at *
      omega
    · simp only [htrial, trials]
      cases ha : e.2.trial with
      | true =>
        obtain ⟨hf, _⟩ := h.trials_eq hm ha
        rw [ha, hf] at hlen
        simp only [hf, h.open_of_trial hf]
        simpa using hlen
      | false =>
        rw [ha] at hlen
        simpa using hlen
    · simp only [htrial, hopen, Bool.and_eq_true, Bool.or_eq_true]
      exact fun ht => .inl (h.open_of_trial ht.1)
    · simp [hlast]
  · exact h

theorem Sound.run (h : l.Sound threshold) (ops : List Operation) : (l.run ops).Sound threshold := by
  induction ops generalizing l with
  | nil => exact h
  | cons op ops ih =>
    refine ih (l := l.apply op) ?_
    cases op with
    | allow now => exact h.allow now
    | succeeded n => exact h.succeeded n
    | failed n now => exact h.failed n now

/-- An open breaker is closed by the trial that is out, and by nothing else. -/
theorem Sound.closes (h : l.Sound threshold) {op : Operation} (ho : l.breaker.isOpen = true)
    (hc : (l.apply op).breaker.isOpen = false) :
    ∃ n, op = .succeeded n ∧ l.trials = [(n, ⟨true⟩)] := by
  cases op with
  | allow now =>
    simp only [apply] at hc
    split at hc
    · rename_i a b' hb
      rcases admit?_cases hb with ⟨hcl, _⟩ | ⟨_, _, _, _, rfl⟩
      · rw [hcl] at ho; cases ho
      · rw [ho] at hc; cases hc
    · rw [ho] at hc; cases hc
  | succeeded n =>
    simp only [apply] at hc
    split at hc
    · rename_i e hf
      obtain ⟨hm, rfl⟩ := find?_some hf
      cases ha : e.2.trial with
      | true =>
        refine ⟨e.1, rfl, (h.trials_eq hm ha).2.trans ?_⟩
        rw [← ha]
      | false => rw [succeeded_late ho ha, ho] at hc; cases hc
    · rw [ho] at hc; cases hc
  | failed n now =>
    simp only [apply] at hc
    split at hc
    · rw [failed_isOpen, ho] at hc; cases hc
    · rw [ho] at hc; cases hc

/-- **The breaker's fields, after any operations.** It is closed as long as its count is below the
threshold; the count is that of the failures since the last reset, up to its cap; the flag is up
while one trial is out and down while none is; and from open it gets to closed only by the success
of that trial. -/
theorem run_sound (threshold cooldown : Nat) (ops : List Operation) :
    let l := (new threshold cooldown).run ops
    (l.breaker.isOpen = false ↔ l.breaker.failures < max threshold 1) ∧
    l.breaker.failures = min l.recent failureCap ∧
    (l.breaker.trialInFlight = true ↔ l.trials.length = 1) ∧
    (l.breaker.trialInFlight = false ↔ l.trials = []) ∧
    (l.breaker.trialInFlight = true → l.breaker.isOpen = true) ∧
    (l.breaker.isOpen = true → l.breaker.lastFailure.isSome = true) ∧
    ∀ op, l.breaker.isOpen = true → (l.apply op).breaker.isOpen = false →
      ∃ n, op = .succeeded n ∧ l.trials = [(n, ⟨true⟩)] := by
  intro l
  have h : l.Sound threshold := (sound_new threshold cooldown).run ops
  have hlen := h.trials_length
  refine ⟨h.closed_iff, h.failures_eq, ?_, ?_, h.open_of_trial, h.dated, fun op => h.closes⟩
  · rw [hlen]; split <;> simp_all
  · rw [← List.length_eq_zero_iff, hlen]; split <;> simp_all

end Lending
end AfterAction.Breaker
