import AfterAction.Proofs.Breaker.Loans

/-!
# A breaker that hears of no success

Every admission is out or was handed back, so admissions of a kind are counted by their returns and
by what is out. While no success is reported, every return is a failure and the breaker's count is
that of all failures: as long as it is closed, these are fewer than its threshold. Ordinary
admissions are granted by a closed breaker only, which bounds their number for good.
-/

namespace AfterAction.Breaker

/-- Grants an admission of the kind. -/
def Dealing.grants (trial : Bool) : Dealing → Bool
  | .granted a _ => a.trial == trial
  | _ => false

/-- Hands an admission of the kind back. -/
def Dealing.returns (trial : Bool) : Dealing → Bool
  | .succeeded a | .failed a _ => a.trial == trial
  | _ => false

def Dealing.succeeds : Dealing → Bool
  | .succeeded _ => true
  | _ => false

/-- How many failures were reported. -/
def failuresOf (ds : List Dealing) : Nat := ds.countP fun d => d.failure?.isSome

variable {threshold : Nat} {b b' : Breaker} {ds : List Dealing} {out : List Admission}

/-! ## Grants and returns -/

/-- What a call was granted it has, or it has handed it back. -/
theorem Turn.balance {had has : Option Admission} (h : Turn ds had has) (trial : Bool) :
    ds.countP (Dealing.grants trial) + had.toList.countP (·.trial == trial) =
      ds.countP (Dealing.returns trial) + has.toList.countP (·.trial == trial) := by
  cases h <;> simp [List.countP_cons, Dealing.grants, Dealing.returns]

/-- Without a success, what is handed back has failed. -/
theorem returns_le_failuresOf (h : ∀ d ∈ ds, d.succeeds = false) (trial : Bool) :
    ds.countP (Dealing.returns trial) ≤ failuresOf ds := by
  refine List.countP_mono_left fun d hd hret => ?_
  cases d with
  | succeeded a => cases h _ hd
  | failed a now => rfl
  | granted | refused => cases hret

/-- Only a closed breaker grants an ordinary admission, and it stays closed. -/
theorem Turn.closed_of_grants {had has : Option Admission} (h : Turn ds had has)
    (hreplay : b.replay? ds = some b') (hgrants : 0 < ds.countP (Dealing.grants false)) :
    b'.isOpen = false := by
  cases h with
  | granted a now =>
    rw [replay?_singleton] at hreplay
    rcases admit?_cases (admit?_of_deal? hreplay) with ⟨hclosed, -, rfl⟩ | ⟨-, -, -, rfl, -⟩
    · exact hclosed
    · simp [Dealing.grants] at hgrants
  | _ => simp [Dealing.grants] at hgrants

/-! ## The count -/

theorem failures_of_deal? {d : Dealing} (h : b.deal? d = some b') (hd : d.succeeds = false)
    (hcap : b.failures ≤ failureCap) :
    b'.failures = min (b.failures + if d.failure?.isSome then 1 else 0) failureCap := by
  have hsame : b.failures = min (b.failures + 0) failureCap := (Nat.min_eq_left hcap).symm
  cases d with
  | granted a now =>
    rcases admit?_cases (admit?_of_deal? h) with ⟨-, -, rfl⟩ | ⟨-, -, -, -, rfl⟩
    · exact hsame
    · exact hsame
  | refused now =>
    rw [eq_of_deal?_refused h]
    exact hsame
  | succeeded a => cases hd
  | failed a now =>
    cases h
    exact (failed_counts b a now).1

/-- The breaker has counted every failure, up to its cap. -/
theorem failures_of_replay? {failed : Nat} (h : b.replay? ds = some b')
    (hds : ∀ d ∈ ds, d.succeeds = false) (hcount : b.failures = min failed failureCap) :
    b'.failures = min (failed + failuresOf ds) failureCap := by
  induction ds generalizing b failed with
  | nil =>
    cases h
    exact hcount
  | cons d ds ih =>
    rw [replay?, List.foldlM_cons] at h
    obtain ⟨b₁, hd, hrest⟩ := Option.bind_eq_some_iff.mp h
    have hfirst := failures_of_deal? hd (hds d List.mem_cons_self) (by omega)
    rw [failuresOf, List.countP_cons, ← failuresOf, Nat.add_comm (failuresOf ds), ← Nat.add_assoc]
    refine ih hrest (fun d' hd' => hds d' (List.mem_cons_of_mem _ hd')) ?_
    omega

/-! ## What is out -/

theorem Lends.failures_lt (h : Lends threshold b out) (hclosed : b.isOpen = false) :
    b.failures < max threshold 1 := by
  obtain ⟨l, hsound, -, rfl, -⟩ := h
  exact hsound.closed_iff.mp hclosed

/-- Never is more than one trial out. -/
theorem Lends.trials_le_one (h : Lends threshold b out) : (out.filter (·.trial)).length ≤ 1 := by
  obtain ⟨l, hsound, -, -, hout⟩ := h
  have hlen := hsound.trials_length
  rw [← (hout.filter _).length_eq, List.filter_map, List.length_map]
  show l.trials.length ≤ 1
  rw [hlen]
  split <;> omega

end AfterAction.Breaker
