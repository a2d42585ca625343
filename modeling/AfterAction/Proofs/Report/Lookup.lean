import AfterAction.Proofs.Report.Standing

/-!
# Looking a job up

The register is asked by the id of a run, and every job in it stands under the id of its own run
(`Filed`): the entry is made together with the job, and nothing that a job does changes whose it is.
So what a lookup finds is a job of the run, and it finds one if there is an entry for the run or a
partial job of it, as there is for every run that a request was just answered for.
-/

namespace AfterAction.Registry

variable {r : Registry} {runId : String} {i : Nat} {run : Run} {id : JobId} {m : Moment}

/-- Jobs are registered under the ids of their runs. -/
def Filed (r : Registry) : Prop :=
  ∀ entry ∈ r.tracked, ∃ job, r.job? entry.2 = some job ∧ job.runId = entry.1

/-- There is an entry for the run, or a partial job of it. -/
def Known (r : Registry) (runId : String) : Prop :=
  (∃ i, r.trackedTask? runId = some i) ∨
  ∃ i ∈ r.partials, ∃ job, r.job? i = some job ∧ job.runId = runId

/-! ## Lookups -/

theorem Filed.job_of_tracked (h : r.Filed) (hi : r.trackedTask? runId = some i) :
    ∃ job, r.job? i = some job ∧ job.runId = runId := by
  obtain ⟨before, after, htracked, -⟩ := List.lookup_eq_some_iff.mp hi
  exact h (runId, i) (htracked ▸ List.mem_append_right before List.mem_cons_self)

theorem latest_eq (a b : ReportJob) : latest a b = a ∨ latest a b = b := by
  unfold latest
  split
  · exact .inr rfl
  · exact .inl rfl

/-- The latest of some jobs is one of them. -/
theorem foldl_latest_mem (job : ReportJob) (jobs : List ReportJob) :
    jobs.foldl latest job ∈ job :: jobs := by
  induction jobs generalizing job with
  | nil => exact List.mem_singleton_self job
  | cons next jobs ih =>
    rw [List.foldl_cons]
    rcases List.mem_cons.mp (ih (latest job next)) with hlatest | hlater
    · rw [hlatest]
      rcases latest_eq job next with he | he
      · rw [he]
        exact List.mem_cons_self
      · rw [he]
        exact List.mem_cons_of_mem _ List.mem_cons_self
    · exact List.mem_cons_of_mem _ (List.mem_cons_of_mem _ hlater)

/-- A lookup for a known run finds a job, and the job is one of the run. -/
theorem Filed.lookup (h : r.Filed) (hk : r.Known runId) :
    ∃ job, r.lookup runId = some job ∧ job.runId = runId := by
  unfold Registry.lookup
  cases htracked : r.trackedTask? runId with
  | some i =>
    obtain ⟨job, hjob, hid⟩ := h.job_of_tracked htracked
    exact ⟨job, by rw [Option.bind_some, hjob]; rfl, hid⟩
  | none =>
    obtain ⟨job, hmem⟩ :
        ∃ job, job ∈ (r.partials.filterMap r.job?).filter (·.runId = runId) := by
      rcases hk with ⟨i, hi⟩ | ⟨i, hi, job, hjob, hid⟩
      · cases htracked.symm.trans hi
      · have hjobs := List.mem_filterMap.mpr ⟨i, hi, hjob⟩
        exact ⟨job, List.mem_filter.mpr ⟨hjobs, decide_eq_true hid⟩⟩
    have hof : ∀ job ∈ (r.partials.filterMap r.job?).filter (·.runId = runId),
        job.runId = runId := fun job hmem => of_decide_eq_true (List.mem_filter.mp hmem).2
    cases hfound : (r.partials.filterMap r.job?).filter (·.runId = runId) with
    | nil =>
      rw [hfound] at hmem
      cases hmem
    | cons first rest =>
      rw [hfound] at hof
      exact ⟨_, rfl, hof _ (foldl_latest_mem first rest)⟩

/-! ## Steps -/

theorem filed_new (settings : ReportSettings) : (Registry.new settings).Filed :=
  fun _ h => absurd h List.not_mem_nil

/-- A new job is registered under the id of its run, if it is. -/
theorem Filed.entered (h : r.Filed) {t : ReportTask} {tracked : List (String × Nat)}
    (partials : List Nat) (group : TaskGroup Nat)
    (htracked : ∀ entry ∈ tracked, entry ∈ r.tracked ∨ entry = (t.job.runId, r.tasks.length)) :
    (r.entered t tracked partials group).Filed := by
  intro entry hentry
  rcases htracked entry hentry with hold | rfl
  · obtain ⟨job, hjob, hid⟩ := h entry hold
    obtain ⟨t', ht', -⟩ := Option.map_eq_some_iff.mp hjob
    refine ⟨job, ?_, hid⟩
    rw [entered_job_of_lt r t tracked partials group (List.getElem?_eq_some_iff.mp ht').1]
    exact hjob
  · exact ⟨t.job, entered_job_self r t tracked partials group, rfl⟩

theorem Filed.put (h : r.Filed) {t : ReportTask} (ht : t.job.runId = runId)
    (partials : List Nat) (group : TaskGroup Nat) :
    (r.entered t (Table.put runId r.tasks.length r.tracked) partials group).Filed :=
  h.entered partials group fun _ hentry => ht ▸ Table.mem_put hentry

theorem Filed.same (h : r.Filed) (t : ReportTask) (partials : List Nat) (group : TaskGroup Nat) :
    (r.entered t r.tracked partials group).Filed :=
  h.entered partials group fun _ hentry => .inl hentry

/-- Nothing that happens changes whose a job is. -/
theorem World.filed_step {σ : Type} [FileStore σ] {w : World σ} (h : w.registry.Filed)
    (e : Event σ × Moment) : (w.step e).registry.Filed := by
  refine step_induction (P := fun w => w.registry.Filed) e
    (fun w run id group h _ _ _ _ => h.put (newTask_runId ..) _ group)
    (fun w run id partials group h _ _ => h.same _ partials group)
    (fun w i t x t' pool correlation files h hc hm entry hentry => ?_)
    (fun w group h => h) (fun w change _ h => h) h
  obtain ⟨job, hjob, hid⟩ := h entry hentry
  rw [job?, moved_tasks hc]
  by_cases hi : i = entry.2
  · rw [job?, ← hi, hc] at hjob
    cases hjob
    exact ⟨t'.job, by rw [if_pos hi]; rfl, hm.runId_eq.trans hid⟩
  · exact ⟨job, by rw [if_neg hi]; exact hjob, hid⟩

/-! ## Requests -/

/-- What a request leaves that is answered with a job: it is one of the run, which has a valid id
and is known. -/
structure Answered (r : Registry) (run : Run) (i : Nat) : Prop where
  valid : RunId.wellFormed run.id = true
  job : ∃ job, r.job? i = some job ∧ job.runId = run.id
  filed : r.Filed
  known : r.Known run.id

theorem answered_request (h : r.Filed) (hi : (r.request run id m).1 = .ok i) :
    (r.request run id m).2.Answered run i := by
  obtain ⟨result, hr⟩ : ∃ result, r.request run id m = result := ⟨_, rfl⟩
  have hreq := request_requested r run id m
  rw [hr] at hreq hi ⊢
  cases hreq with
  | invalid => cases hi
  | unfinished => cases hi
  | joined j hgood _ htracked _ =>
    cases hi
    exact ⟨hgood, h.job_of_tracked htracked, h, .inl ⟨i, htracked⟩⟩
  | entered group hgood _ _ _ =>
    cases entryAnswer_eq_ok hi
    have hid := newTask_runId r run (.queued id run.id false m.wall) m
    refine ⟨hgood, ⟨_, entered_job_self .., hid⟩, h.put hid _ group, .inl ⟨r.tasks.length, ?_⟩⟩
    show (Table.put _ _ _).lookup run.id = _
    rw [Table.lookup_put, if_pos rfl]

theorem answered_requestPartial (h : r.Filed) (hi : (r.requestPartial run id m).1 = .ok i) :
    (r.requestPartial run id m).2.Answered run i := by
  rcases requestPartial_cases r run id m with ⟨-, hr⟩ | ⟨hgood, partials, group, -, hr⟩
  · rw [hr] at hi
    cases hi
  · have hpartials := partials_of_requestPartial r id m hgood
    rw [hr] at hi hpartials ⊢
    have hmem : r.tasks.length ∈ partials := by
      rw [show partials = r.prune.partials ++ [r.tasks.length] from hpartials]
      exact List.mem_append_right _ (List.mem_singleton_self _)
    cases entryAnswer_eq_ok hi
    have hid := newTask_runId r run (.queued id run.id (!run.isFinished) m.wall) m
    have hjob := entered_job_self r
      (newTask r run (.queued id run.id (!run.isFinished) m.wall) m) r.tracked partials group
    exact ⟨hgood, ⟨_, hjob, hid⟩, h.same _ partials group,
      .inr ⟨r.tasks.length, hmem, _, hjob, hid⟩⟩

end AfterAction.Registry
