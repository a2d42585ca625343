import AfterAction.Proofs.Report.Lookup
import AfterAction.Proofs.Report.World
import AfterAction.Proofs.Time.Order

/-!
# Retention of partial jobs

Before a partial job is registered, the oldest of those that have ended are forgotten, so many that
with the new one there are as many as may be kept. Jobs that have not ended are never forgotten, and
they do not count: there may be any number of them. The table has no order of its own, and here it
is a list in any order. Which of two jobs of one age goes is up to that order, and nothing is said
about it.
-/

namespace AfterAction.Registry

/-- Every partial job is registered once and has a task. -/
structure Shelved (r : Registry) : Prop where
  nodup : r.partials.Nodup
  lt_length : ∀ i ∈ r.partials, i < r.tasks.length

/-- The first of two jobs was not requested after the second. -/
def NotYounger (r : Registry) (i j : Nat) : Prop :=
  ∀ a b, r.job? i = some a → r.job? j = some b → a.requestedAt.notAfter b.requestedAt = true

/-- The partial jobs that have ended. -/
def finished (r : Registry) : List Nat := r.partials.filter r.hasEnded

/-- The jobs that a new one makes the registry forget. -/
def forgotten (r : Registry) : List Nat :=
  (r.byAge r.finished).take (r.finished.length + 1 - keptPartials)

variable {r r' : Registry} {i j : Nat} {run : Run} {id : JobId} {m : Moment} {job : ReportJob}

/-! ## By age -/

theorem byAge_perm (r : Registry) (is : List Nat) : (r.byAge is).Perm is := List.mergeSort_perm _ _

theorem exists_job_of_hasEnded (h : r.hasEnded i = true) : ∃ job, r.job? i = some job := by
  cases hjob : r.job? i with
  | none =>
    rw [hasEnded, hjob] at h
    cases h
  | some job => exact ⟨job, rfl⟩

/-- When a job was requested; any time where there is no job. -/
def requestedAt (r : Registry) (i : Nat) : Instant :=
  ((r.job? i).map (·.requestedAt)).getD ⟨0, Instant.secondOf 0, Instant.nanoOf 0⟩

/-- Where all of them are jobs, the jobs come by the times of their requests. -/
theorem byAge_eq {is : List Nat} (h : ∀ i ∈ is, ∃ job, r.job? i = some job) :
    r.byAge is = is.mergeSort fun i j => (r.requestedAt i).notAfter (r.requestedAt j) := by
  rw [byAge, ← List.map_id' (is.mergeSort _), List.map_mergeSort, List.map_id']
  intro i hi j hj
  obtain ⟨a, ha⟩ := h i hi
  obtain ⟨b, hb⟩ := h j hj
  simp only [requestedAt, ha, hb]
  rfl

theorem pairwise_byAge {is : List Nat} (h : ∀ i ∈ is, ∃ job, r.job? i = some job) :
    (r.byAge is).Pairwise r.NotYounger := by
  have htrans : ∀ i j k, (r.requestedAt i).notAfter (r.requestedAt j) = true →
      (r.requestedAt j).notAfter (r.requestedAt k) = true →
      (r.requestedAt i).notAfter (r.requestedAt k) = true := fun _ _ _ => Instant.notAfter_trans
  have htotal : ∀ i j, ((r.requestedAt i).notAfter (r.requestedAt j) ||
      (r.requestedAt j).notAfter (r.requestedAt i)) = true := fun _ _ => Instant.notAfter_total _ _
  rw [byAge_eq h]
  refine (List.pairwise_mergeSort htrans htotal is).imp fun hij a b ha hb => ?_
  rw [requestedAt, requestedAt, ha, hb] at hij
  exact hij

/-! ## What is forgotten -/

theorem prune_partials (r : Registry) :
    r.prune.partials = r.partials.filter (· ∉ r.forgotten) := by
  have hlength := (byAge_perm r r.finished).length_eq
  rw [forgotten, ← hlength]
  rfl

theorem mem_finished : i ∈ r.finished ↔ i ∈ r.partials ∧ r.hasEnded i = true := List.mem_filter

theorem mem_finished_of_forgotten (h : i ∈ r.forgotten) : i ∈ r.finished :=
  (byAge_perm r r.finished).mem_iff.mp (List.mem_of_mem_take h)

/-- Of the jobs that have ended, those stay that come last by age. -/
theorem finished_prune_perm (h : r.partials.Nodup) :
    (r.prune.partials.filter r.hasEnded).Perm
      ((r.byAge r.finished).drop (r.finished.length + 1 - keptPartials)) := by
  have hnodup : (r.byAge r.finished).Nodup :=
    (byAge_perm r r.finished).nodup_iff.mpr (h.filter _)
  have hparts := List.take_append_drop (r.finished.length + 1 - keptPartials) (r.byAge r.finished)
  have happart := hnodup
  rw [← hparts, List.nodup_append] at happart
  obtain ⟨-, hdrop, hdisjoint⟩ := happart
  refine (List.perm_ext_iff_of_nodup ((prune_partials r ▸ h.filter _).filter _) hdrop).mpr
    fun i => ?_
  rw [List.mem_filter, prune_partials, List.mem_filter]
  constructor
  · rintro ⟨⟨hi, hstays⟩, hended⟩
    have hmem := (byAge_perm r r.finished).mem_iff.mpr (mem_finished.mpr ⟨hi, hended⟩)
    rw [← hparts] at hmem
    exact (List.mem_append.mp hmem).resolve_left (of_decide_eq_true hstays)
  · intro hi
    obtain ⟨hpartial, hended⟩ := mem_finished.mp
      ((byAge_perm r r.finished).mem_iff.mp (List.mem_of_mem_drop hi))
    exact ⟨⟨hpartial, decide_eq_true fun hgone => hdisjoint i hgone i hi rfl⟩, hended⟩

theorem length_finished_prune (h : r.partials.Nodup) :
    (r.prune.partials.filter r.hasEnded).length = min r.finished.length 15 := by
  rw [(finished_prune_perm h).length_eq, List.length_drop, (byAge_perm r r.finished).length_eq,
    keptPartials]
  omega

/-- What is forgotten was requested no later than what has ended and stays. -/
theorem notYounger_of_forgotten (h : r.partials.Nodup) (hi : i ∈ r.forgotten)
    (hj : j ∈ r.prune.partials) (hended : r.hasEnded j = true) : r.NotYounger i j := by
  have hjobs : ∀ k ∈ r.finished, ∃ job, r.job? k = some job := fun k hk =>
    exists_job_of_hasEnded (mem_finished.mp hk).2
  have hsorted := pairwise_byAge hjobs
  rw [← List.take_append_drop (r.finished.length + 1 - keptPartials) (r.byAge r.finished),
    List.pairwise_append] at hsorted
  have hlast := (finished_prune_perm h).mem_iff.mp (List.mem_filter.mpr ⟨hj, hended⟩)
  exact hsorted.2.2 i hi j hlast

/-! ## The registry after a request -/

/-- What a request leaves that made a partial job. -/
structure Retains (r : Registry) (job : ReportJob) (r' : Registry) : Prop where
  shelved : r'.Shelved
  registered : r.tasks.length ∈ r'.partials
  job_eq : r'.job? r.tasks.length = some job
  nothingElse : ∀ i ∈ r'.partials, i ∈ r.partials ∨ i = r.tasks.length
  live : ∀ i ∈ r.partials, r.hasEnded i = false → i ∈ r'.partials
  /-- At most 15 are left, and 15 if there were more. -/
  remaining : (r.finished.filter (· ∈ r'.partials)).length = min r.finished.length 15
  few : r.finished.length ≤ 15 → r'.partials = r.partials ++ [r.tasks.length]
  oldest : ∀ i ∈ r.partials, i ∉ r'.partials → ∀ j ∈ r.finished, j ∈ r'.partials → r.NotYounger i j
  /-- No other job has changed, registered or not. -/
  tasks : ∀ i < r.tasks.length, r'.tasks[i]? = r.tasks[i]?
  tracked : r'.tracked = r.tracked
  /-- The new job is found if it is the latest of its run and the run has no tracked one. -/
  found : r.trackedTask? job.runId = none →
    (∀ i ∈ r.partials, ∀ other, r.job? i = some other → other.runId = job.runId →
      other.requestedAt.before job.requestedAt = true) →
    r'.lookup job.runId = some job

theorem forgotten_eq_nil (h : r.finished.length ≤ 15) : r.forgotten = [] := by
  have hnone : r.finished.length + 1 - keptPartials = 0 := by
    rw [keptPartials]
    omega
  rw [forgotten, hnone, List.take_zero]

/-- The last of some jobs is the latest if none of the others is later. -/
theorem foldl_latest_append {first : ReportJob} {rest : List ReportJob}
    (h : ∀ other ∈ first :: rest, other.requestedAt.notAfter job.requestedAt = true) :
    (rest ++ [job]).foldl latest first = job := by
  rw [List.foldl_append, List.foldl_cons, List.foldl_nil, latest,
    if_pos (h _ (foldl_latest_mem first rest))]

/-- A lookup finds the last of the partial jobs if it is the latest of a run without a tracked
job. -/
theorem lookup_of_latest {partials : List Nat} (hpartials : r.partials = partials ++ [i])
    (hjob : r.job? i = some job) (htracked : r.trackedTask? job.runId = none)
    (hlatest : ∀ j ∈ partials, ∀ other, r.job? j = some other → other.runId = job.runId →
      other.requestedAt.notAfter job.requestedAt = true) : r.lookup job.runId = some job := by
  have hjobs : (r.partials.filterMap r.job?).filter (·.runId = job.runId) =
      (partials.filterMap r.job?).filter (·.runId = job.runId) ++ [job] := by
    rw [hpartials, List.filterMap_append, List.filter_append]
    simp [hjob]
  have hothers : ∀ other ∈ (partials.filterMap r.job?).filter (·.runId = job.runId),
      other.requestedAt.notAfter job.requestedAt = true := by
    intro other hother
    obtain ⟨hmem, hrun⟩ := List.mem_filter.mp hother
    obtain ⟨j, hj, hfound⟩ := List.mem_filterMap.mp hmem
    exact hlatest j hj other hfound (of_decide_eq_true hrun)
  rw [lookup, htracked, hjobs]
  cases hbefore : (partials.filterMap r.job?).filter (·.runId = job.runId) with
  | nil => rfl
  | cons first rest =>
    rw [hbefore] at hothers
    exact congrArg some (foldl_latest_append hothers)

theorem Shelved.prune (h : r.Shelved) : r.prune.Shelved where
  nodup := prune_partials r ▸ h.nodup.filter _
  lt_length i hi := by
    rw [prune_partials] at hi
    exact h.lt_length i (List.mem_filter.mp hi).1

/-- With one more task, its job may be registered behind those that are left. -/
theorem Shelved.entered (h : r.Shelved) (t : ReportTask) (tracked : List (String × Nat))
    (group : TaskGroup Nat) :
    (r.entered t tracked (r.prune.partials ++ [r.tasks.length]) group).Shelved := by
  have hfresh : r.tasks.length ∉ r.prune.partials := fun hmem =>
    absurd (h.prune.lt_length _ hmem) (Nat.lt_irrefl _)
  refine ⟨List.nodup_append.mpr ⟨h.prune.nodup, List.pairwise_singleton _ _, ?_⟩, fun i hi => ?_⟩
  · rintro i hi j hj rfl
    exact hfresh (List.mem_singleton.mp hj ▸ hi)
  · show i < (r.tasks ++ [t]).length
    rw [List.length_append, List.length_singleton]
    rcases List.mem_append.mp hi with hi | hi
    · exact Nat.lt_succ_of_lt (h.prune.lt_length i hi)
    · rw [List.mem_singleton.mp hi]
      exact Nat.lt_succ_self _

theorem retains_entered (h : r.Shelved) (t : ReportTask) (group : TaskGroup Nat) :
    Retains r t.job
      (r.entered t r.tracked (r.prune.partials ++ [r.tasks.length]) group) := by
  have hstays : ∀ i ∈ r.partials,
      (i ∈ r.prune.partials ++ [r.tasks.length] ↔ i ∉ r.forgotten) := by
    intro i hi
    have hold : i ≠ r.tasks.length := Nat.ne_of_lt (h.lt_length i hi)
    rw [List.mem_append, List.mem_singleton, prune_partials, List.mem_filter]
    simp [hi, hold]
  have hjobs : ∀ i ∈ r.partials,
      (r.entered t r.tracked (r.prune.partials ++ [r.tasks.length]) group).job? i = r.job? i :=
    fun i hi => entered_job_of_lt r t r.tracked _ group (h.lt_length i hi)
  have hpruned : ∀ i ∈ r.prune.partials, i ∈ r.partials := fun i hi => by
    rw [prune_partials] at hi
    exact (List.mem_filter.mp hi).1
  refine {
    shelved := h.entered t r.tracked group
    registered := List.mem_append_right _ (List.mem_singleton_self _)
    job_eq := entered_job_self ..
    nothingElse := fun i hi => ?_
    live := fun i hi hlive => ?_
    remaining := ?_
    few := fun hfew => ?_
    oldest := fun i hi hgone j hj hleft => ?_
    tasks := fun i hi => List.getElem?_append_left hi
    tracked := rfl
    found := fun htracked hlatest => ?_ }
  · exact (List.mem_append.mp hi).imp (hpruned i) List.mem_singleton.mp
  · refine (hstays i hi).mpr fun hgone => ?_
    rw [(mem_finished.mp (mem_finished_of_forgotten hgone)).2] at hlive
    cases hlive
  · have hleft : r.prune.partials.filter r.hasEnded =
        (r.partials.filter (· ∉ r.forgotten)).filter r.hasEnded := by rw [prune_partials]
    rw [← length_finished_prune h.nodup, hleft, finished, List.filter_filter, List.filter_filter]
    refine congrArg List.length (List.filter_congr fun i hi => ?_)
    rw [Bool.and_comm, Bool.eq_iff_iff, Bool.and_eq_true, Bool.and_eq_true, decide_eq_true_iff,
      decide_eq_true_iff]
    exact and_congr_right fun _ => hstays i hi
  · show r.prune.partials ++ [r.tasks.length] = _
    rw [prune_partials, forgotten_eq_nil hfew]
    simp
  · have hforgotten : i ∈ r.forgotten :=
      Decidable.byContradiction fun hkept => hgone ((hstays i hi).mpr hkept)
    obtain ⟨hpartial, hended⟩ := mem_finished.mp hj
    refine notYounger_of_forgotten h.nodup hforgotten ?_ hended
    refine (List.mem_append.mp hleft).resolve_right fun hnew => ?_
    exact Nat.ne_of_lt (h.lt_length j hpartial) (List.mem_singleton.mp hnew)
  · refine lookup_of_latest rfl (entered_job_self ..) htracked fun j hj other hother hrun => ?_
    have hold := hpruned j hj
    rw [hjobs j hold] at hother
    exact Instant.notAfter_of_before (hlatest j hold other hother hrun)

/-- **A request for a partial report forgets the oldest jobs that have ended, and only as many as
are too many**, whichever jobs there are and whenever they were requested, with the coordinator open
or closed: the new job is registered, no live job is lost, of the others 15 stay at most, and what
goes is no younger than what stays. -/
theorem requestPartial_retains (h : r.Shelved) (hvalid : RunId.wellFormed run.id = true)
    (id : JobId) (m : Moment) :
    let queued := ReportJob.queued id run.id (!run.isFinished) m.wall
    (r.requestPartial run id m).1 =
      (if r.group.closed then .error .closed else .ok r.tasks.length) ∧
    Retains r (if r.group.closed then queued.failed "coordinator shutting down" m.wall else queued)
      (r.requestPartial run id m).2 := by
  rcases requestPartial_cases r run id m with ⟨hbad, -⟩ | ⟨-, partials, group, -, hr⟩
  · rw [hvalid] at hbad
    cases hbad
  · have hpartials := partials_of_requestPartial r id m hvalid
    rw [hr] at hpartials ⊢
    obtain rfl : partials = r.prune.partials ++ [r.tasks.length] := hpartials
    refine ⟨rfl, ?_⟩
    rw [← newTask_job]
    exact retains_entered h _ group

/-! ## Reachable registries

Only requests for partial reports change which partial jobs there are, and no task ever goes, so
every registry that a run leads to has its partial jobs in order. -/

theorem Shelved.of_eq (h : r.Shelved) (hpartials : r'.partials = r.partials)
    (hlength : r.tasks.length ≤ r'.tasks.length) : r'.Shelved :=
  ⟨hpartials ▸ h.nodup, fun i hi => Nat.lt_of_lt_of_le (h.lt_length i (hpartials ▸ hi)) hlength⟩

theorem Shelved.requestPartial (h : r.Shelved) (run : Run) (id : JobId) (m : Moment) :
    (r.requestPartial run id m).2.Shelved := by
  rcases requestPartial_cases r run id m with ⟨-, hr⟩ | ⟨hvalid, partials, group, -, hr⟩
  · rwa [hr]
  · have hpartials := partials_of_requestPartial r id m hvalid
    rw [hr] at hpartials ⊢
    obtain rfl : partials = r.prune.partials ++ [r.tasks.length] := hpartials
    exact h.entered _ r.tracked group

namespace World

variable {σ : Type} [FileStore σ] {w : World σ}

theorem shelved_step (h : w.registry.Shelved) (e : Event σ × Moment) :
    (w.step e).registry.Shelved := by
  have hone : w.OneMove e → (w.step e).registry.Shelved := by
    rintro (hs | ⟨i, t, x, t', pool, correlation, files, -, -, hs⟩)
    · rwa [hs]
    · rw [hs]
      exact h.of_eq rfl (Nat.le_of_eq List.length_set.symm)
  obtain ⟨e, m⟩ := e
  cases e with
  | request run id =>
    rcases step_request w run id m with ⟨hs, -⟩ | ⟨group, -, -, -, -, hs⟩
    · rwa [hs]
    · rw [hs]
      exact h.of_eq rfl (by simp [entered, Registry.entered])
  | requestPartial run id => exact h.requestPartial run id m
  | begin i => exact hone (oneMove_begin w i m)
  | answered i answer => exact hone (oneMove_answered w i answer m)
  | queryExpired i => exact hone (oneMove_queryExpired w i m)
  | notice i => exact hone (oneMove_notice w i m)
  | expire i => exact hone (oneMove_expire w i m)
  | discard i => exact hone (oneMove_discard w i m)
  | mark i => exact hone (oneMove_mark w i m)
  | finish i => exact hone (oneMove_finish w i m)
  | work i trouble => exact hone (oneMove_work w i trouble m)
  | close | drain => exact h.of_eq rfl (Nat.le_refl _)
  | elsewhere change => exact h

theorem shelved_play (settings : ReportSettings) (correlation : Option Correlation) (files : σ)
    (es : List (Event σ × Moment)) :
    ((new settings correlation files).play es).registry.Shelved :=
  play_induction (P := fun w => w.registry.Shelved) (fun _ e _ h => shelved_step h e)
    ⟨List.nodup_nil, fun _ hi => absurd hi List.not_mem_nil⟩

end World

/-! ## A crowded registry -/

/-- A run that goes on. -/
def goingOn : Run := ⟨"op-live-0001", "Live", "acme", .running, none, none, []⟩

/-- Every second two jobs are requested. -/
def crowdedAt (i : Nat) : Instant := ⟨18262, Instant.secondOf (i / 2), Instant.nanoOf 0⟩

/-- Of 20 partial jobs, 17 have ended; the first two of these are of one age. -/
def crowded : Registry :=
  { new ⟨3, 30000, "reports", "Acme"⟩ with
    tasks := (List.range 20).map fun i =>
      let state : JobState := if i < 17 then .done else .rendering
      let phase : ReportPhase := if i < 17 then .ended else .fresh
      ⟨goingOn, ⟨⟨BitVec.ofNat 128 i⟩, goingOn.id, state, true, crowdedAt i, none, none, none⟩,
        phase, "", false, none⟩
    partials := (List.range 20).reverse }

theorem crowded_retains : crowded.Shelved ∧ crowded.finished.length = 17 ∧
    RunId.wellFormed goingOn.id = true ∧
    (crowded.requestPartial goingOn ⟨20⟩ ⟨crowdedAt 20, 0, 0⟩).1 = .ok 20 ∧
    Retains crowded (.queued ⟨20⟩ goingOn.id true (crowdedAt 20))
      (crowded.requestPartial goingOn ⟨20⟩ ⟨crowdedAt 20, 0, 0⟩).2 := by
  have hshelved : crowded.Shelved := ⟨by decide +kernel, by decide +kernel⟩
  have hvalid : RunId.wellFormed goingOn.id = true := by decide +kernel
  obtain ⟨hanswer, hretains⟩ :=
    requestPartial_retains hshelved hvalid ⟨20⟩ ⟨crowdedAt 20, 0, 0⟩
  exact ⟨hshelved, by decide +kernel, hvalid, hanswer, hretains⟩

end AfterAction.Registry
