import AfterAction.Proofs.Report.Course
import AfterAction.Proofs.Report.Pool
import AfterAction.Proofs.Report.Sharing

/-!
# Reports when nothing goes wrong

Where the renderer and the file system do what they are asked to and no deadline passes, no job fails
or is given up. So the registry has one job for each run that a report was asked for, however often
that was, and once the tasks have ended each job is done, was drawn once and has the one file that is
there for its run.

A step is one of these if it `favours` the jobs, and `Thrives` is what such steps keep.
-/

namespace AfterAction.Registry

/-- No deadline has passed. -/
def onTime (r : Registry) (m : Moment) : Bool :=
  r.tasks.all fun t => match t.phase with
    | .waiting _ deadline | .rendering deadline => m.timer < deadline
    | _ => true

/-- The call to the file system that a worker makes next, if it makes one, goes well. -/
def obliges {σ : Type} [FileStore σ] (r : Registry) (i : Nat) (files : σ) : Bool :=
  match r.tasks[i]? with
  | some ⟨_, _, _, _, _, some (.preparing _)⟩ =>
    (FileStore.createDirectories r.settings.directory files).1 = .ok
  | some ⟨_, _, _, path, _, some (.writing pdf)⟩ =>
    (FileStore.write path (.document pdf) files).1 = .ok
  | _ => true

/-- No worker has come back with a fault. -/
def Faultless (r : Registry) : Prop :=
  ∀ (i : Nat) t, r.tasks[i]? = some t → ∀ fault, t.worker ≠ some (.returned (.error fault))

/-! ## Workers that come back with a fault -/

section
variable {r r' : Registry} {i : Nat}

/-- A change to one task that leaves its worker alone, or gives it one without a fault. -/
theorem Faultless.modify (h : r.Faultless) {change : ReportTask → ReportTask}
    (hr : r'.tasks = r.tasks.modify i change)
    (hc : ∀ t, (change t).worker = t.worker ∨
      ∀ fault, (change t).worker ≠ some (.returned (.error fault))) : r'.Faultless := by
  intro j t' ht' fault hw
  rw [hr, List.getElem?_modify] at ht'
  obtain ⟨t, ht, rfl⟩ := Option.map_eq_some_iff.mp ht'
  split at hw
  · rcases hc t with hsame | hno
    · exact h j t ht fault (hsame ▸ hw)
    · exact hno fault hw
  · exact h j t ht fault hw

theorem Faultless.setWorker (h : r.Faultless) (i : Nat) {v : Worker}
    (hv : ∀ fault, v ≠ .returned (.error fault)) : (r.setWorker i v).Faultless := by
  refine h.modify rfl ?_
  exact fun _ => .inr fun fault hw => hv fault (Option.some.inj hw)

theorem Faultless.setPhase (h : r.Faultless) (i : Nat) (phase : ReportPhase) :
    (r.setPhase i phase).Faultless := by
  refine h.modify rfl ?_
  exact fun _ => .inl rfl

theorem Faultless.setJob (h : r.Faultless) (i : Nat) (change : ReportJob → ReportJob) :
    (r.setJob i change).Faultless := by
  refine h.modify rfl ?_
  exact fun _ => .inl rfl

theorem Faultless.employ (h : r.Faultless) (i : Nat) (detections : Detections) (deadline : Nat) :
    (r.employ i detections deadline).Faultless := by
  refine ((h.setJob i _).setPhase i _).setWorker i ?_
  exact fun _ hv => by cases hv

theorem Faultless.enlist (h : r.Faultless) (i : Nat) (detections : Detections) (m : Moment) :
    (r.enlist i detections m).Faultless := by
  have hnamed : ∀ pool path, Faultless { r with
      pool, tasks := r.tasks.modify i fun task => { task with path } } := by
    intro pool path
    refine h.modify rfl ?_
    exact fun _ => .inl rfl
  unfold Registry.enlist
  split
  · exact h
  · dsimp only
    split
    · exact (hnamed _ _).employ i _ _
    · exact (hnamed _ _).setPhase i _

theorem Faultless.begin (h : r.Faultless) (c : Option Correlation) (i : Nat) (m : Moment) :
    (r.begin c i m).1.Faultless := by
  unfold Registry.begin
  split
  · exact h.enlist i _ m
  · split
    · exact h.setPhase i _
    · exact h.enlist i _ m
  · exact h

theorem Faultless.answered (h : r.Faultless) (c : Option Correlation) (i : Nat)
    (answer : Except RemoteFault (List Evidence)) (m : Moment) :
    (r.answered c i answer m).1.Faultless := by
  unfold Registry.answered
  split
  · exact h.enlist i _ m
  · exact h

theorem Faultless.queryExpired (h : r.Faultless) (c : Option Correlation) (i : Nat) (m : Moment) :
    (r.queryExpired c i m).1.Faultless := by
  unfold Registry.queryExpired
  split
  · split
    · exact h.enlist i _ m
    · exact h
  · exact h

theorem Faultless.notice (h : r.Faultless) (i : Nat) : (r.notice i).Faultless := by
  unfold Registry.notice
  split
  · split
    · exact h.employ i _ _
    · exact h
  · exact h

theorem Faultless.expire (h : r.Faultless) (i : Nat) (m : Moment) : (r.expire i m).Faultless := by
  have hgive : ∀ pool, Faultless { r with
      pool, tasks := r.tasks.modify i fun t => { t with abandoned := true, phase := .discarding } } := by
    intro pool
    refine h.modify rfl ?_
    exact fun _ => .inl rfl
  unfold Registry.expire
  dsimp only
  split
  · split
    · exact hgive _
    · exact h
  · split
    · exact hgive _
    · exact h
  · exact h

theorem Faultless.mark (h : r.Faultless) (i : Nat) (m : Moment) : (r.mark i m).Faultless := by
  unfold Registry.mark
  split
  · exact (h.setJob i _).setPhase i _
  · exact h

theorem Faultless.finish (h : r.Faultless) (i : Nat) (m : Moment) : (r.finish i m).Faultless := by
  unfold Registry.finish
  split
  · split
    · exact (h.setPhase i _).setJob i _
    · exact (h.setPhase i _).setJob i _
  · exact h

variable {σ : Type} [FileStore σ]

theorem Faultless.discard (h : r.Faultless) (i : Nat) (files : σ) :
    (r.discard i files).1.Faultless := by
  unfold Registry.discard
  split
  · exact h.setPhase i _
  · exact h

/-- A worker that is not flagged and whose calls go well comes back with its report. -/
theorem Faultless.work (h : r.Faultless) {t : ReportTask} (hc : r.tasks[i]? = some t)
    (ha : t.abandoned = false) (hrem : t.worker ≠ some .removing) {files : σ}
    (hf : r.obliges i files = true) (m : Moment) : (r.work i none m files).1.Faultless := by
  obtain ⟨run, job, phase, path, abandoned, worker⟩ := t
  cases ha
  unfold obliges at hf
  rw [hc] at hf
  unfold Registry.work
  rw [hc]
  cases worker with
  | none => exact h
  | some v =>
    cases v with
    | drawing detections => exact h.setWorker i nofun
    | checking pdf => exact h.setWorker i nofun
    | preparing pdf =>
      dsimp only at hf ⊢
      rw [of_decide_eq_true hf]
      exact h.setWorker i nofun
    | writing pdf =>
      dsimp only at hf ⊢
      rw [of_decide_eq_true hf]
      exact h.setWorker i nofun
    | rechecking =>
      exact Faultless.setWorker (r := { r with pool := r.pool.release i }) h i nofun
    | removing => exact absurd rfl hrem
    | returned result => exact h

end

/-! ## Tasks that nothing has gone wrong for -/

/-- The task has not been given up, its worker has not come back with a fault, and it does not end
without a worker. -/
structure Unhurt (t : ReportTask) : Prop where
  kept : t.abandoned = false
  faultless : ∀ fault, t.worker ≠ some (.returned (.error fault))
  stays : t.worker ≠ some .removing
  carried : t.worker = none → t.phase ≠ .ended

section
variable {σ : Type} [FileStore σ] {r : Registry} {m : Moment} {i : Nat} {files files' : σ}
  {t t' : ReportTask} {x : Option Happening} {pool : Slots Nat}

theorem unhurt_freshTask (run : Run) (job : ReportJob) : Unhurt (freshTask run job) :=
  ⟨rfl, nofun, nofun, nofun⟩

/-- A job whose task is over is done. -/
theorem Unhurt.done (h : Unhurt t) (hs : Standing t) (hp : t.phase = .ended) :
    t.job.state = .done := by
  rw [Standing, hp] at hs
  cases hs with
  | done hstate => exact hstate
  | failed fault _ _ hw => exact absurd hw (h.faultless fault)
  | refused _ _ hw => exact absurd hp (h.carried hw)
  | timedOut _ _ ha => cases h.kept.symm.trans ha

theorem Unhurt.holdsRun (h : Unhurt t) (hs : Standing t) : t.job.state.holdsRun = true := by
  cases hp : t.phase with
  | ended =>
    rw [h.done hs hp]
    rfl
  | discarding | discarded =>
    rw [Standing, hp] at hs
    cases h.kept.symm.trans hs.2.1
  | fresh | asking | waiting | rendering =>
    rw [Standing, hp] at hs
    rw [hs.1]
    rfl

omit [FileStore σ] in
theorem not_late (hin : r.onTime m = true) (hc : r.tasks[i]? = some t) :
    (∀ detections deadline, t.phase = .waiting detections deadline → ¬ deadline ≤ m.timer) ∧
    ∀ deadline, t.phase = .rendering deadline → ¬ deadline ≤ m.timer := by
  have ht := List.all_eq_true.mp hin t (List.mem_of_getElem? hc)
  refine ⟨fun detections deadline hp => ?_, fun deadline hp => ?_⟩
  · rw [hp] at ht
    exact Nat.not_le.mpr (of_decide_eq_true ht)
  · rw [hp] at ht
    exact Nat.not_le.mpr (of_decide_eq_true ht)

/-- A step before the deadline that brings no fault. -/
theorem Unhurt.move (h : Unhurt t) (hs : Standing t) (hm : Move r m i files t x t' pool files')
    (hc : r.tasks[i]? = some t) (hin : r.onTime m = true)
    (hf : ∀ fault, t'.worker ≠ some (.returned (.error fault))) : Unhurt t' := by
  obtain ⟨hwaiting, hrendering⟩ := not_late hin hc
  cases hm with
  | asking | lined =>
    refine ⟨h.kept, h.faultless, h.stays, fun _ hp => ?_⟩
    cases hp
  | enlisted | noticed =>
    refine ⟨h.kept, hf, fun hw => ?_, fun hw => ?_⟩
    · cases hw
    · cases hw
  | expiredWaiting detections deadline hp hd => exact absurd hd (hwaiting _ _ hp)
  | expiredRendering deadline hp hd => exact absurd hd (hrendering _ hp)
  | discarded answer files' hp _ =>
    rw [Standing, hp] at hs
    cases h.kept.symm.trans hs.2.1
  | marked error hp =>
    rw [Standing, hp] at hs
    cases h.kept.symm.trans hs.2.1
  | done deadline hp hw => exact ⟨h.kept, hf, h.stays, fun hnone => by cases hw.symm.trans hnone⟩
  | failed deadline fault hp hw => exact absurd hw (h.faultless fault)
  | worked v v' x files' hv hw =>
    refine ⟨h.kept, hf, fun hrem => ?_, fun hnone => ?_⟩
    · cases hrem
      cases hw with
      | late ha => cases h.kept.symm.trans ha
    · cases hnone

/-- Nothing is removed of what such a task has written. -/
theorem Unhurt.not_removed (h : Unhurt t) (hs : Standing t)
    (hm : Move r m i files t x t' pool files') (answer : FileAnswer) :
    x ≠ some (.removed answer) := by
  intro hx
  cases hm with
  | discarded answer files' hp _ =>
    rw [Standing, hp] at hs
    cases h.kept.symm.trans hs.2.1
  | worked v v' x files' hv hw =>
    cases hw with
    | removed => exact h.stays hv
    | _ => cases hx
  | _ => cases hx

theorem Move.run_eq (hm : Move r m i files t x t' pool files') : t'.run = t.run := by
  cases hm with
  | _ => rfl

end

/-- The name of some report of this run. -/
def IsReportOf (runId name : String) : Prop := ∃ now isPartial, name = fileName runId now isPartial

namespace World

variable {σ : Type} [FileStore σ] {w : World σ}

/-- Nothing goes wrong in the step, and the registry takes what it is asked for. -/
def favours (w : World σ) (e : Event σ × Moment) : Bool :=
  w.registry.onTime e.2 && match e.1 with
    | .request .. => !w.registry.group.closed
    | .work i trouble => trouble.isNone && w.registry.obliges i w.files
    | .requestPartial .. | .elsewhere _ => false
    | _ => true

theorem faultless_step (h : ∀ (i : Nat) t, w.registry.tasks[i]? = some t → Unhurt t)
    {e : Event σ × Moment} (hf : w.favours e = true) : (w.step e).registry.Faultless := by
  have hnow : w.registry.Faultless := fun i t ht => (h i t ht).faultless
  obtain ⟨e, m⟩ := e
  obtain ⟨-, hf⟩ := Bool.and_eq_true_iff.mp hf
  cases e with
  | request run id =>
    rcases step_request w run id m with ⟨hs, -⟩ | ⟨group, -, -, -, -, hs⟩
    · rw [hs]
      exact hnow
    · intro i t ht fault hw
      rw [hs, entered_tasks] at ht
      split at ht
      · cases ht
        cases (newTask_worker ..).symm.trans hw
      · exact hnow i t ht fault hw
  | requestPartial run id => cases hf
  | begin i => exact hnow.begin w.correlation i m
  | answered i answer => exact hnow.answered w.correlation i answer m
  | queryExpired i => exact hnow.queryExpired w.correlation i m
  | notice i => exact hnow.notice i
  | expire i => exact hnow.expire i m
  | discard i => exact hnow.discard i w.files
  | mark i => exact hnow.mark i m
  | finish i => exact hnow.finish i m
  | work i trouble =>
    obtain ⟨htrouble, hobliges⟩ := Bool.and_eq_true_iff.mp hf
    cases Option.isNone_iff_eq_none.mp htrouble
    cases hc : w.registry.tasks[i]? with
    | none =>
      have hs : (w.registry.work i none m w.files).1 = w.registry := by
        rw [work, hc]
      intro j t ht
      exact hnow j t (hs ▸ ht)
    | some t =>
      exact hnow.work hc (h i t hc).kept (h i t hc).stays hobliges m
  | close | drain => exact hnow
  | elsewhere change => cases hf

theorem oneMove_of_favours {e : Event σ × Moment} (hf : w.favours e = true)
    (hr : ∀ run id, e.1 ≠ .request run id) : w.OneMove e ∨ e.1 = .close ∨ e.1 = .drain := by
  obtain ⟨e, m⟩ := e
  obtain ⟨-, hf⟩ := Bool.and_eq_true_iff.mp hf
  cases e with
  | request run id => exact absurd rfl (hr run id)
  | requestPartial run id => cases hf
  | begin i => exact .inl (oneMove_begin w i m)
  | answered i answer => exact .inl (oneMove_answered w i answer m)
  | queryExpired i => exact .inl (oneMove_queryExpired w i m)
  | notice i => exact .inl (oneMove_notice w i m)
  | expire i => exact .inl (oneMove_expire w i m)
  | discard i => exact .inl (oneMove_discard w i m)
  | mark i => exact .inl (oneMove_mark w i m)
  | finish i => exact .inl (oneMove_finish w i m)
  | work i trouble => exact .inl (oneMove_work w i trouble m)
  | close => exact .inr (.inl rfl)
  | drain => exact .inr (.inr rfl)
  | elsewhere change => cases hf

/-- Every job is the registered one of its run, which had finished, and nothing has gone wrong for
it. -/
structure Thrives (w : World σ) (asked : Run → Prop) : Prop where
  stands : w.Stands
  unhurt : ∀ (i : Nat) t, w.registry.tasks[i]? = some t → Unhurt t
  runs : ∀ (i : Nat) t, w.registry.tasks[i]? = some t →
    asked t.run ∧ t.run.isFinished = true ∧ t.job.runId = t.run.id
  registered : ∀ id i, w.registry.trackedTask? id = some i ↔
    ∃ t, w.registry.tasks[i]? = some t ∧ t.job.runId = id
  tracked : w.registry.tracked.map (·.2) = List.range w.registry.tasks.length
  partials : w.registry.partials = []
  unremoved : ∀ i answer, (i, Happening.removed answer) ∉ w.log

variable {asked : Run → Prop}

omit [FileStore σ] in
theorem thrives_new (settings : ReportSettings) (correlation : Option Correlation) (files : σ)
    (asked : Run → Prop) : (new settings correlation files).Thrives asked where
  stands := stands_new settings correlation files
  unhurt i t ht := by simp [new, Registry.new] at ht
  runs i t ht := by simp [new, Registry.new] at ht
  registered id i := by simp [new, Registry.new, trackedTask?]
  tracked := rfl
  partials := rfl
  unremoved i answer := List.not_mem_nil

omit [FileStore σ] in
theorem Thrives.holds (h : w.Thrives asked) {i : Nat} {t : ReportTask}
    (ht : w.registry.tasks[i]? = some t) : w.registry.Holds i :=
  ⟨t.job, by rw [job?, ht]; rfl, (h.unhurt i t ht).holdsRun (h.stands i t ht)⟩

omit [FileStore σ] in
/-- A run that no job holds has never had one. -/
theorem Thrives.untracked (h : w.Thrives asked) {id : String} (hfree : w.registry.Free id) :
    w.registry.trackedTask? id = none := by
  refine Option.eq_none_iff_forall_ne_some.mpr fun i hi => ?_
  obtain ⟨t, ht, -⟩ := (h.registered id i).mp hi
  exact hfree i hi (h.holds ht)

omit [FileStore σ] in
/-- A run without a job of its own gets one. -/
theorem Thrives.entered (h : w.Thrives asked) {run : Run} (hrun : asked run)
    (hfin : run.isFinished = true) (hfree : w.registry.Free run.id) (id : JobId)
    (group : TaskGroup Nat) (now : Instant) :
    (w.entered (freshTask run (.queued id run.id false now))
      (Table.put run.id w.registry.tasks.length w.registry.tracked) w.registry.partials group
      (some (.tracked run.id))).Thrives asked := by
  let t := freshTask run (.queued id run.id false now)
  have hstanding : Standing t := ⟨rfl, rfl, rfl, rfl⟩
  have huntracked := h.untracked hfree
  have htasks := w.entered_tasks t (Table.put run.id w.registry.tasks.length w.registry.tracked)
    w.registry.partials group (some (.tracked run.id))
  refine ⟨h.stands.entered hstanding _ _ _ _, fun i u hu => ?_, fun i u hu => ?_,
    fun other i => ?_, ?_, h.partials, fun i answer hin => ?_⟩
  · rw [htasks] at hu
    split at hu
    · cases hu
      exact unhurt_freshTask run _
    · exact h.unhurt i u hu
  · rw [htasks] at hu
    split at hu
    · cases hu
      exact ⟨hrun, hfin, rfl⟩
    · exact h.runs i u hu
  · have hlookup : (w.entered t (Table.put run.id w.registry.tasks.length w.registry.tracked)
        w.registry.partials group (some (.tracked run.id))).registry.trackedTask? other =
        if other = run.id then some w.registry.tasks.length else w.registry.trackedTask? other :=
      Table.lookup_put _ _ _ _
    rw [hlookup, htasks]
    by_cases hi : i = w.registry.tasks.length
    · subst hi
      have hout : w.registry.trackedTask? other ≠ some w.registry.tasks.length := fun hold => by
        obtain ⟨u, hu, -⟩ := (h.registered other _).mp hold
        exact Nat.lt_irrefl _ (List.getElem?_eq_some_iff.mp hu).1
      by_cases ho : other = run.id
      · subst ho
        simp [t, freshTask, ReportJob.queued]
      · simp [ho, hout, t, freshTask, ReportJob.queued, Ne.symm ho]
    · rw [if_neg hi, ← h.registered other i]
      by_cases ho : other = run.id
      · subst ho
        simp [huntracked, Ne.symm hi]
      · rw [if_neg ho]
  · show (Table.put run.id w.registry.tasks.length w.registry.tracked).map (·.2) =
      List.range (w.registry.tasks ++ [t]).length
    rw [Table.put_of_lookup_eq_none _ huntracked, List.map_append, h.tracked, List.length_append]
    exact List.range_succ.symm
  · rcases List.mem_append.mp hin with hold | hnew
    · exact h.unremoved i answer hold
    · cases List.mem_singleton.mp hnew

theorem Thrives.moved (h : w.Thrives asked) {m : Moment} {i : Nat} {t t' : ReportTask}
    {x : Option Happening} {pool : Slots Nat} {files : σ} (hc : w.registry.tasks[i]? = some t)
    (hm : Move w.registry m i w.files t x t' pool files) (hin : w.registry.onTime m = true)
    (hf : ∀ fault, t'.worker ≠ some (.returned (.error fault)))
    (correlation : Option Correlation) :
    (w.moved i x t' pool correlation files).Thrives asked := by
  have hs := h.stands i t hc
  have htasks := moved_tasks hc x t' pool correlation files
  refine ⟨h.stands.moved hc hm correlation, fun j u hu => ?_, fun j u hu => ?_,
    fun id j => ?_, ?_, h.partials, fun j answer hin => ?_⟩
  · rw [htasks] at hu
    split at hu
    · cases hu
      exact (h.unhurt i t hc).move hs hm hc hin hf
    · exact h.unhurt j u hu
  · rw [htasks] at hu
    split at hu
    · cases hu
      rw [hm.run_eq, hm.runId_eq]
      exact h.runs i t hc
    · exact h.runs j u hu
  · rw [htasks]
    refine (h.registered id j).trans ?_
    split
    · rename_i hij
      subst hij
      simp [hc, hm.runId_eq]
    · exact Iff.rfl
  · show w.registry.tracked.map (·.2) = List.range (w.registry.tasks.set i t').length
    rw [List.length_set]
    exact h.tracked
  · rcases List.mem_append.mp hin with hold | hnew
    · exact h.unremoved j answer hold
    · obtain ⟨y, hy, he⟩ := Option.map_eq_some_iff.mp (Option.mem_toList.mp hnew)
      cases he
      exact (h.unhurt i t hc).not_removed hs hm answer hy

theorem Thrives.step (h : w.Thrives asked) {e : Event σ × Moment} (hf : w.favours e = true)
    (hrun : ∀ run id, e.1 = .request run id → asked run) : (w.step e).Thrives asked := by
  have hin : w.registry.onTime e.2 = true := (Bool.and_eq_true_iff.mp hf).1
  by_cases hr : ∃ run id, e.1 = .request run id
  · obtain ⟨run, id, hr⟩ := hr
    obtain ⟨e, m⟩ := e
    cases hr
    have hopen : w.registry.group.closed = false := by
      simpa using (Bool.and_eq_true_iff.mp hf).2
    rcases step_request w run id m with ⟨hs, -⟩ | ⟨group, -, hfin, hfree, -, hs⟩
    · rwa [hs]
    · have hnew : newTask w.registry run (.queued id run.id false m.wall) m =
          freshTask run (.queued id run.id false m.wall) := by
        rw [newTask, if_neg (ne_true_of_eq_false hopen)]
      rw [hs, hnew]
      exact h.entered (hrun run id rfl) hfin hfree id group m.wall
  · have hfaultless := faultless_step h.unhurt hf
    rcases oneMove_of_favours hf (fun run id he => hr ⟨run, id, he⟩) with hone | hclose | hdrain
    · rcases hone with hs | ⟨i, t, x, t', pool, correlation, files, hc, hm, hs⟩
      · rwa [hs]
      · rw [hs] at hfaultless ⊢
        exact h.moved hc hm hin
          (hfaultless i t' (by rw [moved_tasks hc, if_pos rfl])) correlation
    · obtain ⟨e, m⟩ := e
      cases hclose
      exact ⟨h.stands, h.unhurt, h.runs, h.registered, h.tracked, h.partials, fun i answer hin =>
        h.unremoved i answer (by simpa [World.step, happening?] using hin)⟩
    · obtain ⟨e, m⟩ := e
      cases hdrain
      exact ⟨h.stands, h.unhurt, h.runs, h.registered, h.tracked, h.partials, fun i answer hin =>
        h.unremoved i answer (by simpa [World.step, happening?] using hin)⟩

omit [FileStore σ] in
theorem Thrives.mono {asked' : Run → Prop} (h : w.Thrives asked)
    (hmore : ∀ run, asked run → asked' run) : w.Thrives asked' :=
  ⟨h.stands, h.unhurt, fun i t ht => ⟨hmore _ (h.runs i t ht).1, (h.runs i t ht).2⟩, h.registered,
    h.tracked, h.partials, h.unremoved⟩

/-- A task stays with its run. -/
theorem runId_step (e : Event σ × Moment) {i : Nat} {t : ReportTask}
    (ht : w.registry.tasks[i]? = some t) :
    ∃ t', (w.step e).registry.tasks[i]? = some t' ∧ t'.job.runId = t.job.runId := by
  have hlt := (List.getElem?_eq_some_iff.mp ht).1
  cases w.stepped e with
  | kept _ hs => exact ⟨t, hs ▸ ht, rfl⟩
  | entered _ _ _ _ _ _ hs => exact ⟨t, by rw [hs, List.getElem?_append_left hlt, ht], rfl⟩
  | moved j u x u' pool files _ hc hm hs =>
    rcases Decidable.em (j = i) with rfl | hne
    · cases hc.symm.trans ht
      exact ⟨u', by rw [hs, List.getElem?_set_self hlt], hm.runId_eq⟩
    · exact ⟨t, by rw [hs, List.getElem?_set_ne hne, ht], rfl⟩

/-- A run keeps its job. -/
theorem Thrives.trackedTask?_step {asked' : Run → Prop} (h : w.Thrives asked)
    {e : Event σ × Moment} (h' : (w.step e).Thrives asked') {id : String} {i : Nat}
    (hi : w.registry.trackedTask? id = some i) : (w.step e).registry.trackedTask? id = some i := by
  obtain ⟨t, ht, hid⟩ := (h.registered id i).mp hi
  obtain ⟨t', ht', hid'⟩ := runId_step e ht
  exact (h'.registered id i).mpr ⟨t', ht', hid'.trans hid⟩

omit [FileStore σ] in
/-- After a request for the report of a finished run, the run has a job. -/
theorem Thrives.request_tracked (h : w.Thrives asked) {run : Run}
    (hgood : RunId.wellFormed run.id = true) (hfin : run.isFinished = true) (id : JobId)
    (m : Moment) : ∃ i, (w.registry.request run id m).2.trackedTask? run.id = some i := by
  cases hi : w.registry.trackedTask? run.id with
  | some i =>
    obtain ⟨t, ht, -⟩ := (h.registered run.id i).mp hi
    rw [request_of_holds id m hgood hfin hi (h.holds ht)]
    exact ⟨i, hi⟩
  | none =>
    obtain ⟨group, -, hr⟩ := request_of_free id m hgood hfin fun i hsome => by
      cases hi.symm.trans hsome
    rw [hr]
    exact ⟨w.registry.tasks.length, (Table.lookup_put _ _ _ _).trans (if_pos rfl)⟩

/-! ## What there is for a run -/

omit [FileStore σ] in
/-- The one job of a run, if it has one, is the registered one. -/
theorem Thrives.jobsWhere_run (h : w.Thrives asked) (id : String) :
    w.registry.jobsWhere (fun t => t.job.runId = id) = (w.registry.trackedTask? id).toList := by
  have hmem : ∀ i, i ∈ w.registry.jobsWhere (fun t => t.job.runId = id) ↔
      w.registry.trackedTask? id = some i := fun i => by
    rw [mem_jobsWhere, h.registered]
    simp
  cases ht : w.registry.trackedTask? id with
  | none =>
    refine List.eq_nil_iff_forall_not_mem.mpr fun i hi => ?_
    cases ht.symm.trans ((hmem i).mp hi)
  | some i =>
    refine List.perm_singleton.mp ?_
    refine (List.perm_ext_iff_of_nodup (nodup_jobsWhere _ _) (by simp)).mpr ?_
    intro j
    rw [hmem, ht, List.mem_singleton]
    exact ⟨fun he => (Option.some.inj he).symm, fun he => congrArg some he.symm⟩

omit [FileStore σ] in
/-- The registry lists one job for a run that has one, and none for any other. -/
theorem Thrives.jobs_filter (h : w.Thrives asked) (id : String) :
    w.registry.jobs.filter (·.runId = id) =
      ((w.registry.trackedTask? id).bind w.registry.job?).toList := by
  have hlisted : w.registry.jobs.Perm
      ((List.range w.registry.tasks.length).filterMap w.registry.job?) := by
    rw [jobs, h.tracked, h.partials, List.append_nil]
    exact List.mergeSort_perm _ _
  have hrun : ((List.range w.registry.tasks.length).filterMap w.registry.job?).filter
      (·.runId = id) =
      (w.registry.jobsWhere fun t => t.job.runId = id).filterMap w.registry.job? := by
    rw [jobsWhere, List.filterMap_filter, List.filter_filterMap]
    refine List.filterMap_congr fun i _ => ?_
    rw [job?]
    cases w.registry.tasks[i]? with
    | none => rfl
    | some t => simp [Option.filter]
  have hperm := hlisted.filter (·.runId = id)
  rw [hrun, h.jobsWhere_run] at hperm
  cases ht : w.registry.trackedTask? id with
  | none =>
    rw [ht] at hperm
    exact hperm.eq_nil
  | some i =>
    obtain ⟨t, hc, -⟩ := (h.registered id i).mp ht
    have hjob : w.registry.job? i = some t.job := by rw [job?, hc]; rfl
    rw [ht] at hperm
    simp only [Option.toList_some, List.filterMap_cons, hjob, List.filterMap_nil] at hperm
    rw [Option.bind_some, hjob]
    exact List.perm_singleton.mp hperm

/-! ## Outputs -/

/-- Outputs are those of reports in the directory. -/
def Named (w : World σ) (directory : String) : Prop :=
  w.registry.settings.directory = directory ∧
  ∀ i l, w.label? i = some l → RunId.wellFormed l.runId = true ∧
    (l.path ≠ "" → ∃ now, l.path = Path.join directory (fileName l.runId now l.isPartial))

theorem Named.step {directory : String} (h : w.Named directory) (hs : w.Stands)
    (e : Event σ × Moment) : (w.step e).Named directory := by
  obtain ⟨hdirectory, hlabels⟩ := h
  refine ⟨(step_settings w e).symm ▸ hdirectory, fun i l hl => ?_⟩
  rcases step_label hs e hl with hold | ⟨-, hgood, hempty⟩ | ⟨l₀, hl₀, -, rfl⟩
  · exact hlabels i l hold
  · exact ⟨hgood, fun hne => absurd hempty hne⟩
  · rw [hdirectory]
    exact ⟨(hlabels i l₀ hl₀).1, fun _ => ⟨e.2.wall, rfl⟩⟩

section
variable [FileView σ]

/-- Jobs that nothing goes wrong for, with outputs that nobody else uses. -/
structure Prospers (w : World σ) (directory : String) (asked : Run → Prop) : Prop where
  thrives : w.Thrives asked
  named : w.Named directory
  tended : ∀ i name, IsReportName name → w.Tended i (Path.join directory name)

variable {directory : String}

theorem Prospers.step (h : w.Prospers directory asked) {e : Event σ × Moment}
    (hf : w.favours e = true) (hrun : ∀ run id, e.1 = .request run id → asked run) :
    (w.step e).Prospers directory asked where
  thrives := h.thrives.step hf hrun
  named := h.named.step h.thrives.stands e
  tended i name hname := by
    refine (h.tended i name hname).step e fun change he => ?_
    rw [favours, he] at hf
    cases (Bool.and_eq_true_iff.mp hf).2

theorem prospers_new (settings : ReportSettings) (correlation : Option Correlation) {files : σ}
    (hfiles : ∀ name, IsReportName name →
      FileView.Shows (Path.join settings.directory name) none files) (asked : Run → Prop) :
    (new settings correlation files).Prospers settings.directory asked where
  thrives := thrives_new settings correlation files asked
  named := ⟨rfl, fun i l hl => by simp [label?, labels, new, Registry.new] at hl⟩
  tended i name hname := tended_new settings correlation (hfiles name hname) i

theorem Prospers.mono {asked' : Run → Prop} (h : w.Prospers directory asked)
    (hmore : ∀ run, asked run → asked' run) : w.Prospers directory asked' :=
  ⟨h.thrives.mono hmore, h.named, h.tended⟩

theorem Prospers.wellFormed (h : w.Prospers directory asked) {i : Nat} {t : ReportTask}
    (ht : w.registry.tasks[i]? = some t) : RunId.wellFormed t.job.runId = true :=
  (h.named.2 i t.label (label?_of_task ht)).1

/-- A decided output is that of a report for the job's run. -/
theorem Prospers.path_eq (h : w.Prospers directory asked) {i : Nat} {t : ReportTask}
    (ht : w.registry.tasks[i]? = some t) (hne : t.path ≠ "") : ∃ now, t.path =
      Path.join directory (fileName t.job.runId now t.job.isPartial) :=
  (h.named.2 i t.label (label?_of_task ht)).2 hne

/-- What jobs write shows under no report's name but their own. -/
theorem Prospers.apart (h : w.Prospers directory asked) (hapart : NamesApart σ) {i : Nat}
    {t : ReportTask} (ht : w.registry.tasks[i]? = some t) (hne : t.path ≠ "") {name : String}
    (hname : IsReportName name) (hother : t.path ≠ Path.join directory name) :
    ¬ FileView.touches σ t.path (Path.join directory name) := by
  obtain ⟨now, hpath⟩ := h.path_eq ht hne
  rw [hpath] at hother ⊢
  exact hapart _ _ _ ⟨_, _, _, h.wellFormed ht, rfl⟩ hname fun he => hother (Path.join_inj.mpr he)

/-- A job whose task is over is done, was drawn once, and has its report at its output. -/
theorem Prospers.done (h : w.Prospers directory asked) (hapart : NamesApart σ) {i : Nat}
    {t : ReportTask} (ht : w.registry.tasks[i]? = some t) (hp : t.phase = .ended) :
    t.job.state = .done ∧ t.job.output = some t.path ∧
      (∃ name, IsReportOf t.job.runId name ∧ t.path = Path.join directory name) ∧
      ∃ pdf, w.drawn i = [pdf] ∧ FileView.Shows t.path (some (.document pdf)) w.files := by
  have hs := h.thrives.stands i t ht
  have hdone : t.job.state = .done := (h.thrives.unhurt i t ht).done hs hp
  obtain ⟨hout, hne, -, hw⟩ := hs.of_done hdone
  obtain ⟨now, hpath⟩ := h.path_eq ht hne
  have hgood := h.wellFormed ht
  have hname : IsReportName (fileName t.job.runId now t.job.isPartial) := ⟨_, _, _, hgood, rfl⟩
  have halone : w.Alone i t.path := by
    refine ⟨fun u hu _ => ?_, fun j u hj hu hneu => ?_, fun answer hin => ?_⟩
    · cases ht.symm.trans hu
      rfl
    · rw [hpath]
      refine h.apart hapart hu hneu hname fun hsame => ?_
      obtain ⟨nowu, hpathu⟩ := h.path_eq hu hneu
      rw [hpathu, Path.join_inj, fileName_inj (h.wellFormed hu) hgood] at hsame
      have hi := (h.thrives.registered t.job.runId i).mpr ⟨t, ht, rfl⟩
      have hj' := (h.thrives.registered t.job.runId j).mpr ⟨u, hu, hsame.1⟩
      exact hj (Option.some.inj (hj'.symm.trans hi))
    · exact absurd hin (h.thrives.unremoved i answer)
  have htended : w.Tended i t.path := by
    rw [hpath]
    exact h.tended i _ hname
  obtain ⟨shown, hshown, htidy⟩ := htended.present halone t ht
  rcases htidy.finished hs ⟨hp, .inr ⟨_, hw⟩⟩ with ⟨-, -, pdf, hdrawn, rfl⟩ | ⟨hno, -⟩
  · exact ⟨hdone, hout, ⟨_, ⟨now, t.job.isPartial, rfl⟩, hpath⟩, pdf, hdrawn, hshown⟩
  · rw [hdone] at hno
    rcases hno with hno | hno
    · cases hno
    · cases hno

/-- No other report's file is there. -/
theorem Prospers.bare (h : w.Prospers directory asked) (hapart : NamesApart σ) {name : String}
    (hname : IsReportName name)
    (hother : ∀ (i : Nat) t, w.registry.tasks[i]? = some t → t.path ≠ Path.join directory name) :
    FileView.Shows (Path.join directory name) none w.files := by
  have hnone : w.registry.tasks[w.registry.tasks.length]? = none :=
    List.getElem?_eq_none (Nat.le_refl _)
  refine ((h.tended w.registry.tasks.length name hname).absent ⟨?_, ?_, ?_⟩ hnone).2
  · intro t ht
    cases hnone.symm.trans ht
  · exact fun j t _ ht hne => h.apart hapart ht hne hname (hother j t ht)
  · exact fun answer hin => absurd hin (h.thrives.unremoved _ answer)

end
end World

end AfterAction.Registry
