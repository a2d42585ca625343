import AfterAction.Proofs.Report.Standing

/-!
# One report job for each run

A job that a request made holds its run until it fails or runs out of time, and while it does it is
the registered one; so two jobs never hold one run, however long the workers of earlier jobs go on.
A request joins the job that holds its run and makes a new one only where none does.
-/

namespace AfterAction.Registry

/-- A move notes nothing of requests. -/
theorem Move.untracked {σ : Type} [FileStore σ] {r : Registry} {m : Moment} {i : Nat}
    {files files' : σ} {t t' : ReportTask} {x : Option Happening} {pool : Slots Nat}
    (hm : Move r m i files t x t' pool files') (runId : String) : x ≠ some (.tracked runId) := by
  intro hx
  cases hm with
  | worked v v' x files' _ hw => cases hw <;> cases hx
  | _ => cases hx

namespace World

variable {σ : Type} {w : World σ} {i : Nat}

/-- A request once made this the job of the run. It may not be the registered one any more. -/
def IsTracked (w : World σ) (runId : String) (i : Nat) : Prop := (i, .tracked runId) ∈ w.log

/-- Registered jobs were made by requests, and of all jobs that requests made for a run only the
registered one can hold it. -/
structure Tracks (w : World σ) : Prop where
  stands : w.Stands
  registered : ∀ runId i, w.registry.trackedTask? runId = some i → w.IsTracked runId i
  holder : ∀ runId i, w.IsTracked runId i → ∃ job, w.registry.job? i = some job ∧
    job.runId = runId ∧
    (job.state.holdsRun = true → w.registry.trackedTask? runId = some i)

theorem Tracks.lt_length (h : w.Tracks) {runId : String} (hi : w.IsTracked runId i) :
    i < w.registry.tasks.length := by
  obtain ⟨job, hj, -⟩ := h.holder runId i hi
  obtain ⟨t, ht, -⟩ := Option.map_eq_some_iff.mp hj
  exact (List.getElem?_eq_some_iff.mp ht).1

theorem tracks_new (settings : ReportSettings) (correlation : Option Correlation) (files : σ) :
    (new settings correlation files).Tracks where
  stands := stands_new settings correlation files
  registered runId i h := by cases h
  holder runId i h := by cases h

/-- Of all jobs ever made for a run, at most one holds it. -/
theorem Tracks.eq_of_holds (h : w.Tracks) {runId : String} {i j : Nat} (hi : w.IsTracked runId i)
    (hj : w.IsTracked runId j) (hih : w.registry.Holds i) (hjh : w.registry.Holds j) : i = j := by
  obtain ⟨job, hjob, -, hholds⟩ := h.holder runId i hi
  obtain ⟨job', hjob', -, hholds'⟩ := h.holder runId j hj
  obtain ⟨_, he, hs⟩ := hih
  obtain ⟨_, he', hs'⟩ := hjh
  cases hjob.symm.trans he
  cases hjob'.symm.trans he'
  exact Option.some.inj ((hholds hs).symm.trans (hholds' hs'))

/-- A registered job that does not hold its run has ended without a report. -/
theorem Tracks.given_up (h : w.Tracks) {runId : String}
    (hi : w.registry.trackedTask? runId = some i) (hno : ¬ w.registry.Holds i) :
    ∃ job, w.registry.job? i = some job ∧ (job.state = .failed ∨ job.state = .timedOut) := by
  obtain ⟨job, hjob, -⟩ := h.holder runId i (h.registered runId i hi)
  refine ⟨job, hjob, ?_⟩
  cases hs : job.state with
  | failed => exact .inl rfl
  | timedOut => exact .inr rfl
  | _ => exact absurd ⟨job, hjob, by rw [hs]; rfl⟩ hno

/-- A partial job is nobody's business. -/
theorem Tracks.enteredPartial (h : w.Tracks) {t : ReportTask} (ht : Standing t)
    (partials : List Nat) (group : TaskGroup Nat) :
    (w.entered t w.registry.tracked partials group none).Tracks := by
  have hlog : ∀ {runId j}, (w.entered t w.registry.tracked partials group none).IsTracked runId j →
      w.IsTracked runId j := by
    intro runId j hj
    simpa [IsTracked, entered] using hj
  refine ⟨h.stands.entered ht _ _ _ _, fun runId j hj => ?_, fun runId j hj => ?_⟩
  · simpa [IsTracked, entered] using h.registered runId j hj
  · rw [entered_job w _ _ _ _ _ (h.lt_length (hlog hj))]
    exact h.holder runId j (hlog hj)

/-- The new job takes the place of one that has given up the run. -/
theorem Tracks.enteredTracked (h : w.Tracks) {t : ReportTask} (ht : Standing t)
    (hfree : w.registry.Free t.job.runId) (partials : List Nat) (group : TaskGroup Nat) :
    (w.entered t (Table.put t.job.runId w.registry.tasks.length w.registry.tracked) partials group
      (some (.tracked t.job.runId))).Tracks := by
  have hlook : ∀ other, (w.entered t (Table.put t.job.runId w.registry.tasks.length
      w.registry.tracked) partials group
        (some (.tracked t.job.runId))).registry.trackedTask? other =
      if other = t.job.runId then some w.registry.tasks.length
      else w.registry.trackedTask? other := fun other => Table.lookup_put _ _ _ _
  have hlog : ∀ {runId j}, (w.entered t (Table.put t.job.runId w.registry.tasks.length
      w.registry.tracked) partials group (some (.tracked t.job.runId))).IsTracked runId j ↔
      w.IsTracked runId j ∨ j = w.registry.tasks.length ∧ runId = t.job.runId := by
    intro runId j
    simp [IsTracked, entered]
  refine ⟨h.stands.entered ht _ _ _ _, fun runId j hj => ?_, fun runId j hj => ?_⟩
  · rw [hlook] at hj
    rw [hlog]
    split at hj
    · rename_i he
      cases hj
      exact .inr ⟨rfl, he⟩
    · exact .inl (h.registered runId j hj)
  · rcases hlog.mp hj with hold | ⟨rfl, rfl⟩
    · obtain ⟨job, hjob, hid, hholds⟩ := h.holder runId j hold
      rw [entered_job w _ _ _ _ _ (h.lt_length hold), hlook]
      refine ⟨job, hjob, hid, fun hs => ?_⟩
      have htracked := hholds hs
      have hne : runId ≠ t.job.runId := by
        rintro rfl
        exact hfree j htracked ⟨job, hjob, hs⟩
      rw [if_neg hne]
      exact htracked
    · refine ⟨t.job, ?_, rfl, fun _ => ?_⟩
      · rw [job?, entered_tasks, if_pos rfl]
        rfl
      · rw [hlook, if_pos rfl]

variable [FileStore σ]

theorem Tracks.moved (h : w.Tracks) {m : Moment} {t t' : ReportTask} {x : Option Happening}
    {pool : Slots Nat} {files : σ} (hc : w.registry.tasks[i]? = some t)
    (hm : Move w.registry m i w.files t x t' pool files) (correlation : Option Correlation) :
    (w.moved i x t' pool correlation files).Tracks := by
  have hlog : ∀ {runId j}, (w.moved i x t' pool correlation files).IsTracked runId j ↔
      w.IsTracked runId j := by
    intro runId j
    have hx := hm.untracked runId
    cases x with
    | none => simp [IsTracked, World.moved]
    | some y =>
      have hne : Happening.tracked runId ≠ y := fun he => hx (congrArg some he.symm)
      simp [IsTracked, World.moved, hne]
  refine ⟨h.stands.moved hc hm correlation, fun runId j hj => ?_, fun runId j hj => ?_⟩
  · exact hlog.mpr (h.registered runId j hj)
  · obtain ⟨job, hjob, hid, hholds⟩ := h.holder runId j (hlog.mp hj)
    rw [job?, moved_tasks hc]
    split
    · rename_i he
      subst he
      have hsame : t.job = job := by
        rw [job?, hc] at hjob
        exact Option.some.inj hjob
      refine ⟨t'.job, rfl, hm.runId_eq.trans (hsame ▸ hid), fun hs => ?_⟩
      exact hholds (hsame ▸ hm.holdsRun (h.stands i t hc) hs)
    · exact ⟨job, hjob, hid, hholds⟩

theorem Tracks.step (h : w.Tracks) (e : Event σ × Moment) : (w.step e).Tracks := by
  refine step_induction e (fun w run id group h _ _ hfree _ => ?_)
    (fun w run id partials group h _ _ =>
      h.enteredPartial (standing_newTask _ _ _ _ rfl) partials group)
    (fun _ _ _ _ _ _ correlation _ h hc hm => h.moved hc hm correlation)
    (fun _ _ h => ⟨h.stands, h.registered, h.holder⟩)
    (fun _ _ _ h => ⟨h.stands, h.registered, h.holder⟩) h
  have hid := newTask_runId w.registry run (.queued id run.id false e.2.wall) e.2
  have := h.enteredTracked (standing_newTask w.registry run (.queued id run.id false e.2.wall) e.2
    rfl) (by rwa [hid]) w.registry.partials group
  rwa [hid] at this

theorem Tracks.play (h : w.Tracks) (es : List (Event σ × Moment)) : (w.play es).Tracks :=
  play_induction (fun _ e _ h => h.step e) h

/-! ## What requests do -/

/-- What a request for a run's report, partial or not, does to a world. -/
structure Deduplicates (w : World σ) (run : Run) (id : JobId) (m : Moment) : Prop where
  /-- A malformed id changes nothing, -/
  invalid : RunId.wellFormed run.id = false →
    w.registry.request run id m = (.error (.invalid ⟨preview run.id⟩), w.registry) ∧
    w.registry.requestPartial run id m = (.error (.invalid ⟨preview run.id⟩), w.registry)
  /-- nor does a run that goes on. -/
  unfinished : RunId.wellFormed run.id = true → run.isFinished = false →
    w.registry.request run id m = (.error (.notFinished run.id run.state), w.registry)
  /-- The registered job is the answer exactly while it holds the run, and then nothing changes. -/
  joins : RunId.wellFormed run.id = true → run.isFinished = true →
    ∀ i, w.registry.trackedTask? run.id = some i →
      ((w.registry.request run id m).1 = .ok i ↔ w.registry.Holds i) ∧
      (w.registry.Holds i → (w.registry.request run id m).2 = w.registry)
  /-- Otherwise a new job is registered. Where no tasks are taken any more it has failed, -/
  makes : RunId.wellFormed run.id = true → run.isFinished = true → w.registry.Free run.id →
    (w.registry.request run id m).1 = entryAnswer w.registry ∧
    (w.registry.request run id m).2.trackedTask? run.id = some w.registry.tasks.length ∧
    (w.registry.request run id m).2.job? w.registry.tasks.length =
      some (if w.registry.group.closed then
        (ReportJob.queued id run.id false m.wall).failed "coordinator shutting down" m.wall
      else .queued id run.id false m.wall)
  /-- and the job whose place it takes has failed or run out of time, and stays so for ever. -/
  replaces : RunId.wellFormed run.id = true → run.isFinished = true → w.registry.Free run.id →
    ∀ i, w.registry.trackedTask? run.id = some i →
      ∃ job, w.registry.job? i = some job ∧ (job.state = .failed ∨ job.state = .timedOut) ∧
        ∀ es, ((w.step (.request run id, m)).play es).registry.job? i = some job
  /-- A request that comes after the closing leaves a job that does not hold the run. -/
  closed : (w.registry.request run id m).1 = .error .closed →
    ∃ i job, (w.registry.request run id m).2.trackedTask? run.id = some i ∧
      (w.registry.request run id m).2.job? i = some job ∧ job.runId = run.id ∧
      job.state = .failed ∧ ¬ (w.registry.request run id m).2.Holds i
  /-- The entries of other runs and all earlier jobs are as before. -/
  others : (∀ other, other ≠ run.id →
      (w.registry.request run id m).2.trackedTask? other = w.registry.trackedTask? other) ∧
    ∀ i, i < w.registry.tasks.length →
      (w.registry.request run id m).2.job? i = w.registry.job? i
  /-- A partial request leaves the registered jobs alone. -/
  partials : (w.registry.requestPartial run id m).2.tracked = w.registry.tracked ∧
    ∀ i, i < w.registry.tasks.length →
      (w.registry.requestPartial run id m).2.job? i = w.registry.job? i

theorem Tracks.deduplicates (h : w.Tracks) (run : Run) (id : JobId) (m : Moment) :
    w.Deduplicates run id m where
  invalid hbad := by
    refine ⟨request_of_malformed id m hbad, ?_⟩
    rcases requestPartial_cases w.registry run id m with ⟨_, hr⟩ | ⟨hgood, _⟩
    · exact hr
    · rw [hbad] at hgood
      cases hgood
  unfinished hgood hf := request_of_unfinished id m hgood hf
  joins hgood hfin i hi := by
    have hlt := h.lt_length (h.registered run.id i hi)
    refine ⟨⟨fun he => ?_, fun hh => ?_⟩, fun hh => ?_⟩
    · refine Classical.byContradiction fun hno => ?_
      have hfree : w.registry.Free run.id := by
        intro j hj
        cases hi.symm.trans hj
        exact hno
      obtain ⟨group, -, hr⟩ := request_of_free id m hgood hfin hfree
      rw [hr] at he
      exact Nat.lt_irrefl _ (entryAnswer_eq_ok he ▸ hlt)
    · rw [request_of_holds id m hgood hfin hi hh]
    · rw [request_of_holds id m hgood hfin hi hh]
  makes hgood hfin hfree := by
    obtain ⟨group, -, hr⟩ := request_of_free id m hgood hfin hfree
    rw [hr]
    refine ⟨rfl, ?_, ?_⟩
    · show (Table.put _ _ _).lookup run.id = _
      rw [Table.lookup_put, if_pos rfl]
    · rw [entered_job_self, newTask_job]
  replaces hgood hfin hfree i hi := by
    obtain ⟨job, hjob, hs⟩ := h.given_up hi (hfree i hi)
    have hterminal : job.state.isTerminal = true := by
      rcases hs with hs | hs
      · rw [hs]; rfl
      · rw [hs]; rfl
    have hnow := h.stands.job_step hjob hterminal (.request run id, m)
    exact ⟨job, hjob, hs, fun es => (h.stands.step _).job_play hnow hterminal es⟩
  closed he := by
    obtain ⟨hgood, hfin, hfree, hclosed⟩ := request_eq_closed he
    obtain ⟨group, -, hr⟩ := request_of_free id m hgood hfin hfree
    have hjob := entered_job_self w.registry
      (newTask w.registry run (.queued id run.id false m.wall) m)
      (Table.put run.id w.registry.tasks.length w.registry.tracked) w.registry.partials group
    rw [hr]
    refine ⟨w.registry.tasks.length, _, ?_, hjob, newTask_runId _ _ _ _, ?_, ?_⟩
    · show (Table.put _ _ _).lookup run.id = _
      rw [Table.lookup_put, if_pos rfl]
    · rw [newTask_state, if_pos hclosed]
    · rintro ⟨job', hj', hs⟩
      cases hjob.symm.trans hj'
      rw [newTask_state, if_pos hclosed] at hs
      cases hs
  others := by
    obtain ⟨result, hr⟩ : ∃ result, w.registry.request run id m = result := ⟨_, rfl⟩
    have hreq := request_requested w.registry run id m
    rw [hr] at hreq ⊢
    cases hreq with
    | invalid => exact ⟨fun _ _ => rfl, fun _ _ => rfl⟩
    | unfinished => exact ⟨fun _ _ => rfl, fun _ _ => rfl⟩
    | joined => exact ⟨fun _ _ => rfl, fun _ _ => rfl⟩
    | entered group _ _ _ _ =>
      refine ⟨fun other hne => ?_, fun i hi => entered_job_of_lt _ _ _ _ _ hi⟩
      show (Table.put _ _ _).lookup other = _
      rw [Table.lookup_put, if_neg hne]
      rfl
  partials := by
    rcases requestPartial_cases w.registry run id m with ⟨_, hr⟩ | ⟨_, partials, group, _, hr⟩
    · rw [hr]
      exact ⟨rfl, fun _ _ => rfl⟩
    · rw [hr]
      exact ⟨rfl, fun i hi => entered_job_of_lt _ _ _ _ _ hi⟩

/-- **A run has at most one report job that is queued, rendering or done.** That holds of every
world that any events have led to, for all jobs ever made and not only the registered ones; and
every request there joins or replaces the registered job as this demands. -/
theorem play_tracks (settings : ReportSettings) (correlation : Option Correlation) (files : σ)
    (es : List (Event σ × Moment)) :
    let w := (new settings correlation files).play es
    (∀ runId i j, w.IsTracked runId i → w.IsTracked runId j → w.registry.Holds i →
      w.registry.Holds j → i = j) ∧
    (∀ runId i, w.registry.trackedTask? runId = some i → w.IsTracked runId i) ∧
    ∀ run id m, w.Deduplicates run id m := by
  intro w
  have h : w.Tracks := (tracks_new settings correlation files).play es
  exact ⟨fun runId i j hi hj hih hjh => h.eq_of_holds hi hj hih hjh, h.registered,
    fun run id m => h.deduplicates run id m⟩

end World
end AfterAction.Registry
