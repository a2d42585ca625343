import AfterAction.Proofs.Report.Moves

/-!
# What a request can do

A request is refused, or joins the job that holds its run, or makes a new job; then the registry has
one more task, which begins at once or, where no tasks are taken any more, has failed.
-/

namespace AfterAction.Registry

theorem modify_last {α : Type} (l : List α) (a : α) (f : α → α) :
    (l ++ [a]).modify l.length f = l ++ [f a] := by
  rw [modify_eq_set f List.getElem?_concat_length, List.set_append_right _ _ (Nat.le_refl _)]
  simp

def freshTask (run : Run) (job : ReportJob) : ReportTask := ⟨run, job, .fresh, "", false, none⟩

/-- The task of a new job. Where no tasks are taken any more the job fails at once. -/
def newTask (r : Registry) (run : Run) (job : ReportJob) (m : Moment) : ReportTask :=
  if r.group.closed then
    ended (freshTask run job) (job.failed "coordinator shutting down" m.wall)
  else freshTask run job

theorem newTask_job (r : Registry) (run : Run) (job : ReportJob) (m : Moment) :
    (newTask r run job m).job =
      if r.group.closed then job.failed "coordinator shutting down" m.wall else job := by
  unfold newTask
  split <;> rfl

theorem newTask_runId (r : Registry) (run : Run) (job : ReportJob) (m : Moment) :
    (newTask r run job m).job.runId = job.runId := by
  rw [newTask_job]
  split <;> rfl

theorem newTask_state (r : Registry) (run : Run) (id : JobId) (m : Moment) :
    (newTask r run (.queued id run.id false m.wall) m).job.state =
      if r.group.closed then .failed else .queued := by
  rw [newTask_job]
  split <;> rfl

/-- The job is queued, rendering or done. -/
def Holds (r : Registry) (i : Nat) : Prop :=
  ∃ job, r.job? i = some job ∧ job.state.holdsRun = true

/-- No registered job holds the run. -/
def Free (r : Registry) (runId : String) : Prop :=
  ∀ i, r.trackedTask? runId = some i → ¬ r.Holds i

/-- The registry with one more task. -/
def entered (r : Registry) (t : ReportTask) (tracked : List (String × Nat)) (partials : List Nat)
    (group : TaskGroup Nat) : Registry :=
  { r with tasks := r.tasks ++ [t], tracked, partials, group }

theorem entered_job_self (r : Registry) (t : ReportTask) (tracked : List (String × Nat))
    (partials : List Nat) (group : TaskGroup Nat) :
    (r.entered t tracked partials group).job? r.tasks.length = some t.job := by
  rw [job?, entered, List.getElem?_concat_length]
  rfl

theorem entered_job_of_lt (r : Registry) (t : ReportTask) (tracked : List (String × Nat))
    (partials : List Nat) (group : TaskGroup Nat) {i : Nat} (hi : i < r.tasks.length) :
    (r.entered t tracked partials group).job? i = r.job? i := by
  rw [job?, entered, List.getElem?_append_left hi]
  rfl

/-- The answer to a request that made a new job. -/
def entryAnswer (r : Registry) : Except ReportFault Nat :=
  if r.group.closed then .error .closed else .ok r.tasks.length

theorem launch_append (r : Registry) (run : Run) (job : ReportJob) (m : Moment) :
    ∃ group : TaskGroup Nat, group.closed = r.group.closed ∧
      (r.append run job).launch r.tasks.length m =
        (entryAnswer r, r.entered (newTask r run job m) r.tracked r.partials group) := by
  unfold launch
  split
  · rename_i group hg
    have hopen : r.group.closed = false := by
      have hne : (r.append run job).group.spawn? (r.append run job).isEnded r.tasks.length ≠ none :=
        hg ▸ Option.some_ne_none group
      exact Bool.eq_false_iff.mpr fun h => hne ((TaskGroup.spawn?_eq_none_iff ..).mpr h)
    refine ⟨group, ?_, ?_⟩
    · unfold TaskGroup.spawn? at hg
      split at hg
      · cases hg
      · cases hg
        rfl
    · simp [entryAnswer, newTask, hopen, append, entered, freshTask]
  · rename_i hg
    have hclosed : r.group.closed = true := (TaskGroup.spawn?_eq_none_iff ..).mp hg
    refine ⟨r.group, rfl, ?_⟩
    simp [append, setJob, modify_last, entryAnswer, newTask, hclosed, entered, freshTask, ended]

/-- What a request for the report of a finished run comes to. -/
inductive Requested (r : Registry) (run : Run) (id : JobId) (m : Moment) :
    Except ReportFault Nat × Registry → Prop
  | invalid : RunId.wellFormed run.id = false →
      Requested r run id m (.error (.invalid ⟨preview run.id⟩), r)
  | unfinished : RunId.wellFormed run.id = true → run.isFinished = false →
      Requested r run id m (.error (.notFinished run.id run.state), r)
  | joined (i : Nat) : RunId.wellFormed run.id = true → run.isFinished = true →
      r.trackedTask? run.id = some i → r.Holds i → Requested r run id m (.ok i, r)
  | entered (group : TaskGroup Nat) : RunId.wellFormed run.id = true → run.isFinished = true →
      r.Free run.id → group.closed = r.group.closed →
      Requested r run id m (entryAnswer r,
        r.entered (newTask r run (.queued id run.id false m.wall) m)
          (Table.put run.id r.tasks.length r.tracked) r.partials group)

theorem request_requested (r : Registry) (run : Run) (id : JobId) (m : Moment) :
    Requested r run id m (r.request run id m) := by
  unfold request
  split
  · rename_i fault hp
    obtain ⟨hbad, rfl⟩ := RunId.parse_eq_error_iff.mp hp
    exact .invalid hbad
  · rename_i runId hp
    have hid := RunId.text_of_parse hp
    have hgood : RunId.wellFormed run.id = true := hid ▸ runId.valid
    split
    · rename_i hf
      rw [hid]
      exact .unfinished hgood (by simpa using hf)
    · rename_i hf
      have hfin : run.isFinished = true := by simpa using hf
      simp only [hid]
      split
      · rename_i i hi
        obtain ⟨htracked, hholds⟩ := Option.filter_eq_some_iff.mp hi
        cases hj : r.job? i with
        | none => simp [hj] at hholds
        | some job => exact .joined i hgood hfin htracked ⟨job, hj, by simpa [hj] using hholds⟩
      · rename_i hnone
        have hfree : r.Free run.id := by
          rintro i hi ⟨job, hj, hs⟩
          have hno := Option.filter_eq_none_iff.mp hnone i hi
          simp [hj, hs] at hno
        obtain ⟨group, hclosed, hl⟩ := launch_append
          { r with tracked := Table.put run.id r.tasks.length r.tracked } run
          (.queued id run.id false m.wall) m
        exact hl ▸ .entered group hgood hfin hfree hclosed

section
variable {r : Registry} {run : Run} (id : JobId) (m : Moment)

theorem request_of_malformed (hbad : RunId.wellFormed run.id = false) :
    r.request run id m = (.error (.invalid ⟨preview run.id⟩), r) := by
  unfold request
  rw [RunId.parse_eq_error_iff.mpr ⟨hbad, rfl⟩]

theorem request_of_unfinished (hgood : RunId.wellFormed run.id = true)
    (hf : run.isFinished = false) :
    r.request run id m = (.error (.notFinished run.id run.state), r) := by
  unfold request
  rw [show RunId.parse run.id = .ok ⟨run.id, hgood⟩ from RunId.parse_text ⟨run.id, hgood⟩]
  simp [hf]

theorem request_of_holds (hgood : RunId.wellFormed run.id = true) (hfin : run.isFinished = true)
    {i : Nat} (hi : r.trackedTask? run.id = some i) (h : r.Holds i) :
    r.request run id m = (.ok i, r) := by
  obtain ⟨result, hr⟩ : ∃ result, r.request run id m = result := ⟨_, rfl⟩
  have hreq := request_requested r run id m
  rw [hr] at hreq ⊢
  cases hreq with
  | invalid hbad => rw [hbad] at hgood; cases hgood
  | unfinished _ hf => rw [hf] at hfin; cases hfin
  | joined j _ _ hj _ =>
    cases hi.symm.trans hj
    rfl
  | entered group _ _ hfree _ => exact absurd h (hfree i hi)

theorem request_of_free (hgood : RunId.wellFormed run.id = true) (hfin : run.isFinished = true)
    (hfree : r.Free run.id) : ∃ group : TaskGroup Nat, group.closed = r.group.closed ∧
      r.request run id m = (entryAnswer r,
        r.entered (newTask r run (.queued id run.id false m.wall) m)
          (Table.put run.id r.tasks.length r.tracked) r.partials group) := by
  obtain ⟨result, hr⟩ : ∃ result, r.request run id m = result := ⟨_, rfl⟩
  have hreq := request_requested r run id m
  rw [hr] at hreq ⊢
  cases hreq with
  | invalid hbad => rw [hbad] at hgood; cases hgood
  | unfinished _ hf => rw [hf] at hfin; cases hfin
  | joined j _ _ hj hholds => exact absurd hholds (hfree j hj)
  | entered group _ _ _ hclosed => exact ⟨group, hclosed, rfl⟩

variable {id m}

theorem entryAnswer_eq_ok {i : Nat} (h : entryAnswer r = .ok i) : i = r.tasks.length := by
  unfold entryAnswer at h
  split at h
  · cases h
  · cases h
    rfl

/-- Only a request that would need a new job is refused after the closing. -/
theorem request_eq_closed (h : (r.request run id m).1 = .error .closed) :
    RunId.wellFormed run.id = true ∧ run.isFinished = true ∧ r.Free run.id ∧
      r.group.closed = true := by
  obtain ⟨result, hr⟩ : ∃ result, r.request run id m = result := ⟨_, rfl⟩
  have hreq := request_requested r run id m
  rw [hr] at hreq h
  cases hreq with
  | invalid => cases h
  | unfinished => cases h
  | joined => cases h
  | entered group hgood hfin hfree _ =>
    refine ⟨hgood, hfin, hfree, ?_⟩
    cases hc : r.group.closed with
    | true => rfl
    | false =>
      rw [entryAnswer, hc] at h
      cases h

end

/-- A partial report is always a new job. -/
theorem requestPartial_cases (r : Registry) (run : Run) (id : JobId) (m : Moment) :
    (RunId.wellFormed run.id = false ∧
      r.requestPartial run id m = (.error (.invalid ⟨preview run.id⟩), r)) ∨
    (RunId.wellFormed run.id = true ∧ ∃ partials group, group.closed = r.group.closed ∧
      r.requestPartial run id m = (entryAnswer r,
        r.entered (newTask r run (.queued id run.id (!run.isFinished) m.wall) m) r.tracked partials
          group)) := by
  unfold requestPartial
  split
  · rename_i fault hp
    obtain ⟨hbad, rfl⟩ := RunId.parse_eq_error_iff.mp hp
    exact .inl ⟨hbad, rfl⟩
  · rename_i runId hp
    have hid := RunId.text_of_parse hp
    refine .inr ⟨hid ▸ runId.valid, r.prune.partials ++ [r.tasks.length], ?_⟩
    obtain ⟨group, hclosed, hl⟩ := launch_append
      { r with partials := r.prune.partials ++ [r.tasks.length] } run
      (.queued id runId.text (!run.isFinished) m.wall) m
    exact ⟨group, hclosed, hid ▸ hl⟩

/-- The new job comes last, after those that are left. -/
theorem partials_of_requestPartial (r : Registry) {run : Run} (id : JobId) (m : Moment)
    (hgood : RunId.wellFormed run.id = true) :
    (r.requestPartial run id m).2.partials = r.prune.partials ++ [r.tasks.length] := by
  unfold requestPartial
  rw [show RunId.parse run.id = .ok ⟨run.id, hgood⟩ from RunId.parse_text ⟨run.id, hgood⟩]
  obtain ⟨group, -, hl⟩ := launch_append
    { r with partials := r.prune.partials ++ [r.tasks.length] } run
    (.queued id run.id (!run.isFinished) m.wall) m
  exact congrArg (fun p => p.2.partials) hl

end AfterAction.Registry
