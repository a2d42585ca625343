import AfterAction.Proofs.Report.World

/-!
# Where a job stands

The phase of a task settles what its job says, whether its output is decided and its worker flagged,
and whether it has a worker at all. Every task that a run makes keeps to this, so a job that has
ended stays as it is.
-/

namespace AfterAction.Registry

/-- A job that has ended: done by a worker that returned well, failed by one that did not or without
any, or out of time. -/
inductive Closed : ReportTask → Prop
  | done (t : ReportTask) : t.job.state = .done → t.job.output = some t.path → t.path ≠ "" →
      t.abandoned = false → t.worker = some (.returned (.ok ())) → Closed t
  | failed (t : ReportTask) (fault : RenderFault) : t.job.state = .failed → t.abandoned = false →
      t.worker = some (.returned (.error fault)) → Closed t
  | refused (t : ReportTask) : t.job.state = .failed → t.abandoned = false → t.worker = none →
      t.path = "" → Closed t
  | timedOut (t : ReportTask) : t.job.state = .timedOut → t.path ≠ "" → t.abandoned = true →
      Closed t

/-- The task agrees with its phase. -/
def Standing (t : ReportTask) : Prop :=
  match t.phase with
  | .fresh | .asking _ =>
    t.job.state = .queued ∧ t.path = "" ∧ t.abandoned = false ∧ t.worker = none
  | .waiting .. => t.job.state = .queued ∧ t.path ≠ "" ∧ t.abandoned = false ∧ t.worker = none
  | .rendering _ => t.job.state = .rendering ∧ t.path ≠ "" ∧ t.abandoned = false ∧ t.worker ≠ none
  | .discarding | .discarded => t.path ≠ "" ∧ t.abandoned = true ∧
      (t.job.state = .queued ∧ t.worker = none ∨ t.job.state = .rendering ∧ t.worker ≠ none)
  | .ended => Closed t

variable {σ : Type}

/-- Every task agrees with its phase. -/
def World.Stands (w : World σ) : Prop := ∀ (i : Nat) t, w.registry.tasks[i]? = some t → Standing t

theorem World.stands_new (settings : ReportSettings) (correlation : Option Correlation)
    (files : σ) : (World.new settings correlation files).Stands := by
  intro i t h
  simp [World.new, Registry.new] at h

theorem World.Stands.entered {w : World σ} (h : w.Stands) {t : ReportTask} (ht : Standing t)
    (tracked : List (String × Nat)) (partials : List Nat) (group : TaskGroup Nat)
    (x : Option Happening) : (w.entered t tracked partials group x).Stands := by
  intro j u hj
  rw [entered_tasks] at hj
  split at hj
  · cases hj
    exact ht
  · exact h j u hj

variable [FileStore σ] {r : Registry} {m : Moment} {i : Nat} {files files' : σ}
  {t t' : ReportTask} {x : Option Happening} {pool : Slots Nat}

theorem standing_newTask (r : Registry) (run : Run) (job : ReportJob) (m : Moment)
    (h : job.state = .queued) : Standing (newTask r run job m) := by
  unfold newTask
  split
  · exact Closed.refused _ rfl rfl rfl rfl
  · exact ⟨h, rfl, rfl, rfl⟩

theorem Standing.undecided (h : Standing t) (hu : undecided t.phase = true) :
    t.job.state = .queued ∧ t.path = "" ∧ t.abandoned = false ∧ t.worker = none := by
  unfold Standing at h
  cases hp : t.phase with
  | fresh | asking => rwa [hp] at h
  | _ =>
    rw [hp] at hu
    cases hu

/-- A worker's step leaves everything else of the task alone. -/
theorem Standing.worked (h : Standing t) {v v' : Worker} (hv : t.worker = some v)
    (hw : Work r t m files v x v' files') : Standing { t with worker := some v' } := by
  have hne : t.worker ≠ none := hv ▸ Option.some_ne_none v
  unfold Standing at h ⊢
  cases hp : t.phase with
  | fresh | asking | waiting =>
    rw [hp] at h
    exact absurd h.2.2.2 hne
  | rendering deadline =>
    rw [hp] at h
    obtain ⟨hs, hpath, ha, _⟩ := h
    exact ⟨hs, hpath, ha, Option.some_ne_none v'⟩
  | discarding | discarded =>
    rw [hp] at h
    obtain ⟨hpath, ha, ⟨_, hnone⟩ | ⟨hs, _⟩⟩ := h
    · exact absurd hnone hne
    · exact ⟨hpath, ha, .inr ⟨hs, Option.some_ne_none v'⟩⟩
  | ended =>
    rw [hp] at h
    cases h with
    | done hs _ hpath ha hr =>
      cases hv.symm.trans hr
      cases hw
    | failed fault hs ha hr =>
      cases hv.symm.trans hr
      cases hw
    | refused hs ha hnone _ => exact absurd hnone hne
    | timedOut hs hpath ha => exact .timedOut _ hs hpath ha

theorem Standing.move (h : Standing t) (hm : Move r m i files t x t' pool files') :
    Standing t' := by
  cases hm with
  | asking query hp =>
    obtain ⟨hs, hpath, ha, hw⟩ := h.undecided (by rw [hp]; rfl)
    exact ⟨hs, hpath, ha, hw⟩
  | lined path detections deadline hu hpath =>
    obtain ⟨hs, _, ha, hw⟩ := h.undecided hu
    exact ⟨hs, hpath, ha, hw⟩
  | enlisted path detections deadline hu hpath _ =>
    obtain ⟨_, _, ha, _⟩ := h.undecided hu
    exact ⟨rfl, hpath, ha, Option.some_ne_none _⟩
  | noticed detections deadline hp _ =>
    rw [Standing, hp] at h
    obtain ⟨_, hpath, ha, _⟩ := h
    exact ⟨rfl, hpath, ha, Option.some_ne_none _⟩
  | expiredWaiting detections deadline hp _ =>
    rw [Standing, hp] at h
    obtain ⟨hs, hpath, _, hw⟩ := h
    exact ⟨hpath, rfl, .inl ⟨hs, hw⟩⟩
  | expiredRendering deadline hp _ =>
    rw [Standing, hp] at h
    obtain ⟨hs, hpath, _, hw⟩ := h
    exact ⟨hpath, rfl, .inr ⟨hs, hw⟩⟩
  | discarded answer files' hp _ =>
    rw [Standing, hp] at h
    exact h
  | marked error hp =>
    rw [Standing, hp] at h
    exact Closed.timedOut _ rfl h.1 h.2.1
  | done deadline hp hw =>
    rw [Standing, hp] at h
    obtain ⟨_, hpath, ha, _⟩ := h
    exact Closed.done _ rfl rfl hpath ha hw
  | failed deadline fault hp hw =>
    rw [Standing, hp] at h
    obtain ⟨_, _, ha, _⟩ := h
    exact Closed.failed _ fault rfl ha hw
  | worked v v' x files' hv hw => exact h.worked hv hw

/-- A job that has ended is in its last phase. -/
theorem Standing.phase_of_terminal (h : Standing t) (ht : t.job.state.isTerminal = true) :
    t.phase = .ended := by
  unfold Standing at h
  cases hp : t.phase with
  | ended => rfl
  | discarding | discarded =>
    rw [hp] at h
    rcases h.2.2 with ⟨hs, _⟩ | ⟨hs, _⟩
    · rw [hs] at ht
      cases ht
    · rw [hs] at ht
      cases ht
  | _ =>
    rw [hp] at h
    rw [h.1] at ht
    cases ht

theorem Closed.isTerminal (h : Closed t) : t.job.state.isTerminal = true := by
  cases h with
  | done hs | failed _ hs | refused hs | timedOut hs => rw [hs]; rfl

/-- Only a worker still moves after the end, and it does not touch the job. -/
theorem Move.of_ended (hm : Move r m i files t x t' pool files') (hp : t.phase = .ended) :
    t'.job = t.job ∧ t'.phase = .ended := by
  cases hm with
  | worked => exact ⟨rfl, hp⟩
  | lined _ _ _ hu | enlisted _ _ _ hu =>
    rw [hp] at hu
    cases hu
  | asking _ he | noticed _ _ he | expiredWaiting _ _ he | expiredRendering _ he
  | discarded _ _ he | marked _ he | done _ he | failed _ _ he => cases hp.symm.trans he

/-- A worker that still works has its output decided. -/
theorem Standing.path_ne_empty (hs : Standing t) {v v' : Worker} (hv : t.worker = some v)
    (hw : Work r t m files v x v' files') : t.path ≠ "" := by
  have hne : t.worker ≠ none := hv ▸ Option.some_ne_none v
  unfold Standing at hs
  split at hs
  · exact absurd hs.2.2.2 hne
  · exact absurd hs.2.2.2 hne
  · exact hs.2.1
  · exact hs.2.1
  · exact hs.1
  · exact hs.1
  · cases hs with
    | done _ _ hpath _ _ => exact hpath
    | failed fault _ _ hr =>
      cases hv.symm.trans hr
      cases hw
    | refused _ _ hnone _ => exact absurd hnone hne
    | timedOut _ hpath _ => exact hpath

/-- A path that is decided stays. -/
theorem Move.path_eq (hm : Move r m i files t x t' pool files') (hs : Standing t)
    (hne : t.path ≠ "") : t'.path = t.path := by
  cases hm with
  | lined path' detections deadline hu _ => exact absurd (hs.undecided hu).2.1 hne
  | enlisted path' detections deadline hu _ _ => exact absurd (hs.undecided hu).2.1 hne
  | _ => rfl

theorem Move.runId_eq (hm : Move r m i files t x t' pool files') : t'.job.runId = t.job.runId := by
  cases hm with
  | _ => rfl

/-- A job that has given up its run never takes it back. -/
theorem Move.holdsRun (hm : Move r m i files t x t' pool files') (h : Standing t)
    (ht' : t'.job.state.holdsRun = true) : t.job.state.holdsRun = true := by
  cases hs : t.job.state with
  | failed =>
    have hp := h.phase_of_terminal (by rw [hs]; rfl)
    rwa [(hm.of_ended hp).1, hs] at ht'
  | timedOut =>
    have hp := h.phase_of_terminal (by rw [hs]; rfl)
    rwa [(hm.of_ended hp).1, hs] at ht'
  | _ => rfl

namespace World

variable {w : World σ}

theorem Stands.moved (h : w.Stands) (hc : w.registry.tasks[i]? = some t)
    (hm : Move w.registry m i w.files t x t' pool files) (correlation : Option Correlation) :
    (w.moved i x t' pool correlation files).Stands := by
  intro j u hj
  rw [moved_tasks hc] at hj
  split at hj
  · cases hj
    exact (h i t hc).move hm
  · exact h j u hj

theorem Stands.step (h : w.Stands) (e : Event σ × Moment) : (w.step e).Stands :=
  step_induction e
    (fun _ _ _ _ h _ _ _ _ => h.entered (standing_newTask _ _ _ _ rfl) _ _ _ _)
    (fun _ _ _ _ _ h _ _ => h.entered (standing_newTask _ _ _ _ rfl) _ _ _ _)
    (fun _ _ _ _ _ _ correlation _ h hc hm => h.moved hc hm correlation)
    (fun _ _ h => h) (fun _ _ _ h => h) h

theorem Stands.play (h : w.Stands) (es : List (Event σ × Moment)) : (w.play es).Stands :=
  play_induction (fun _ e _ h => h.step e) h

/-- Jobs are never forgotten, and one that has ended never changes. -/
theorem Stands.job_step (h : w.Stands) {i : Nat} {job : ReportJob}
    (hj : w.registry.job? i = some job) (ht : job.state.isTerminal = true)
    (e : Event σ × Moment) : (w.step e).registry.job? i = some job := by
  have hentered : ∀ (w : World σ) t tracked partials group x, w.registry.job? i = some job →
      (w.entered t tracked partials group x).registry.job? i = some job := by
    intro w t tracked partials group x hj
    obtain ⟨u, hu, -⟩ := Option.map_eq_some_iff.mp hj
    have hlt := (List.getElem?_eq_some_iff.mp hu).1
    rw [job?, entered_tasks, if_neg (Nat.ne_of_lt hlt)]
    exact hj
  refine (step_induction (P := fun w => w.Stands ∧ w.registry.job? i = some job) e
    (fun w run id group h _ _ _ _ => ⟨h.1.entered (standing_newTask _ _ _ _ rfl) _ _ _ _, ?_⟩)
    (fun w run id partials group h _ _ =>
      ⟨h.1.entered (standing_newTask _ _ _ _ rfl) _ _ _ _, ?_⟩)
    (fun w k t x t' pool correlation files h hc hm => ⟨h.1.moved hc hm correlation, ?_⟩)
    (fun _ _ h => h) (fun _ _ _ h => h) ⟨h, hj⟩).2
  · exact hentered _ _ _ _ _ _ h.2
  · exact hentered _ _ _ _ _ _ h.2
  · rw [job?, moved_tasks hc]
    split
    · rename_i hk
      subst hk
      have hjob : t.job = job := by
        have := h.2
        rw [job?, hc] at this
        exact Option.some.inj this
      have hp := (h.1 k t hc).phase_of_terminal (hjob ▸ ht)
      rw [Option.map_some, (hm.of_ended hp).1, hjob]
    · exact h.2

theorem Stands.job_play (h : w.Stands) {i : Nat} {job : ReportJob}
    (hj : w.registry.job? i = some job) (ht : job.state.isTerminal = true)
    (es : List (Event σ × Moment)) : (w.play es).registry.job? i = some job :=
  (play_induction (P := fun w => w.Stands ∧ w.registry.job? i = some job)
    (fun _ e _ h => ⟨h.1.step e, h.1.job_step h.2 ht e⟩) ⟨h, hj⟩).2

end World
end AfterAction.Registry
