import AfterAction.Proofs.Report.Requests

/-!
# A registry in its world

`World` is a registry with the correlation its tasks ask, the files its workers write and a log of
what cannot be read off the tasks any more: whose job each request made, what was drawn, and how
removals ended. `step` lets one thing happen to any of them; a run is any list of these.
-/

namespace AfterAction.Registry

variable {σ : Type}

/-- What can happen. Jobs are known by the places of their tasks. -/
inductive Event (σ : Type)
  | request (run : Run) (id : JobId)
  | requestPartial (run : Run) (id : JobId)
  | begin (i : Nat)
  | answered (i : Nat) (answer : Except RemoteFault (List Evidence))
  | queryExpired (i : Nat)
  | notice (i : Nat)
  | expire (i : Nat)
  | discard (i : Nat)
  | mark (i : Nat)
  | finish (i : Nat)
  | work (i : Nat) (trouble : Option DrawingTrouble)
  | close
  | drain
  /-- Somebody else uses the file system. -/
  | elsewhere (change : σ → σ)

structure World (σ : Type) where
  registry : Registry
  correlation : Option Correlation
  files : σ
  /-- In order, with the places of the jobs. -/
  log : List (Nat × Happening)

namespace World

def new (settings : ReportSettings) (correlation : Option Correlation) (files : σ) : World σ :=
  ⟨Registry.new settings, correlation, files, []⟩

/-- The world after a move of one task. -/
def moved (w : World σ) (i : Nat) (x : Option Happening) (t' : ReportTask) (pool : Slots Nat)
    (correlation : Option Correlation) (files : σ) : World σ where
  registry := { w.registry with pool, tasks := w.registry.tasks.set i t' }
  correlation
  files
  log := w.log ++ (x.map (Prod.mk i)).toList

theorem moved_tasks {w : World σ} {i : Nat} {t : ReportTask} (hc : w.registry.tasks[i]? = some t)
    (x : Option Happening) (t' : ReportTask) (pool : Slots Nat) (correlation : Option Correlation)
    (files : σ) (j : Nat) :
    (w.moved i x t' pool correlation files).registry.tasks[j]? =
      if i = j then some t' else w.registry.tasks[j]? := by
  show (w.registry.tasks.set i t')[j]? = _
  rw [List.getElem?_set, if_pos (List.getElem?_eq_some_iff.mp hc).1]

/-- The world with one more task. -/
def entered (w : World σ) (t : ReportTask) (tracked : List (String × Nat)) (partials : List Nat)
    (group : TaskGroup Nat) (x : Option Happening) : World σ :=
  { w with
    registry := w.registry.entered t tracked partials group
    log := w.log ++ (x.map (Prod.mk w.registry.tasks.length)).toList }

theorem entered_tasks (w : World σ) (t : ReportTask) (tracked : List (String × Nat))
    (partials : List Nat) (group : TaskGroup Nat) (x : Option Happening) (j : Nat) :
    (w.entered t tracked partials group x).registry.tasks[j]? =
      if j = w.registry.tasks.length then some t else w.registry.tasks[j]? := by
  show (w.registry.tasks ++ [t])[j]? = _
  rcases Nat.lt_trichotomy j w.registry.tasks.length with h | rfl | h
  · rw [if_neg (Nat.ne_of_lt h), List.getElem?_append_left h]
  · rw [if_pos rfl, List.getElem?_concat_length]
  · rw [if_neg (Nat.ne_of_gt h), List.getElem?_eq_none (by simp; omega),
      List.getElem?_eq_none (Nat.le_of_lt h)]

theorem entered_job (w : World σ) (t : ReportTask) (tracked : List (String × Nat))
    (partials : List Nat) (group : TaskGroup Nat) (x : Option Happening) {j : Nat}
    (hj : j < w.registry.tasks.length) :
    (w.entered t tracked partials group x).registry.job? j = w.registry.job? j :=
  entered_job_of_lt w.registry t tracked partials group hj

/-! ## Steps -/

variable [FileStore σ]

/-- What an event notes of a job. -/
def happening? (w : World σ) (m : Moment) : Event σ → Option (Nat × Happening)
  | .request run id =>
    let i := w.registry.tasks.length
    if (w.registry.request run id m).2.tasks.length = i then none else some (i, .tracked run.id)
  | .discard i =>
    match w.registry.tasks[i]? with
    | some ⟨_, _, .discarding, path, _, _⟩ =>
      some (i, .removed (FileStore.remove path w.files).1)
    | _ => none
  | .work i trouble =>
    match w.registry.tasks[i]?, trouble with
    | some ⟨run, _, _, _, _, some (.drawing detections)⟩, none =>
      some (i, .drawn (Pdf.render w.registry.settings.company run detections m.wall))
    | some ⟨_, _, _, path, _, some .removing⟩, _ =>
      some (i, .removed (FileStore.remove path w.files).1)
    | _, _ => none
  | _ => none

/-- What an event does to the registry, the correlation and the files. -/
def happen (w : World σ) (m : Moment) : Event σ → Registry × Option Correlation × σ
  | .request run id => ((w.registry.request run id m).2, w.correlation, w.files)
  | .requestPartial run id => ((w.registry.requestPartial run id m).2, w.correlation, w.files)
  | .begin i =>
    let (registry, correlation) := w.registry.begin w.correlation i m
    (registry, correlation, w.files)
  | .answered i answer =>
    let (registry, correlation) := w.registry.answered w.correlation i answer m
    (registry, correlation, w.files)
  | .queryExpired i =>
    let (registry, correlation) := w.registry.queryExpired w.correlation i m
    (registry, correlation, w.files)
  | .notice i => (w.registry.notice i, w.correlation, w.files)
  | .expire i => (w.registry.expire i m, w.correlation, w.files)
  | .discard i =>
    let (registry, files) := w.registry.discard i w.files
    (registry, w.correlation, files)
  | .mark i => (w.registry.mark i m, w.correlation, w.files)
  | .finish i => (w.registry.finish i m, w.correlation, w.files)
  | .work i trouble =>
    let (registry, files) := w.registry.work i trouble m w.files
    (registry, w.correlation, files)
  | .close => (w.registry.close, w.correlation, w.files)
  | .drain => (w.registry.drain, w.correlation, w.files)
  | .elsewhere change => (w.registry, w.correlation, change w.files)

def step (w : World σ) (e : Event σ × Moment) : World σ :=
  let (registry, correlation, files) := w.happen e.2 e.1
  ⟨registry, correlation, files, w.log ++ (w.happening? e.2 e.1).toList⟩

def play (w : World σ) (es : List (Event σ × Moment)) : World σ := es.foldl step w

/-- Nothing happens, or one task moves on. -/
def OneMove (w : World σ) (e : Event σ × Moment) : Prop :=
  w.step e = w ∨
  ∃ i t x t' pool correlation files, w.registry.tasks[i]? = some t ∧
    Move w.registry e.2 i w.files t x t' pool files ∧
    w.step e = w.moved i x t' pool correlation files

variable {w : World σ} {i : Nat} {t t' : ReportTask} {m : Moment}

attribute [local simp] step happen happening?

theorem oneMove_notice (w : World σ) (i : Nat) (m : Moment) : w.OneMove (.notice i, m) := by
  cases hc : w.registry.tasks[i]? with
  | none => exact .inl (by simp [notice, phase?, hc])
  | some t =>
    cases hp : t.phase with
    | waiting detections deadline =>
      cases hs : w.registry.pool.holds i with
      | false => exact .inl (by simp [notice, phase?, hc, hp, hs])
      | true =>
        refine .inr ⟨i, t, _, _, _, w.correlation, _, hc, .noticed t _ _ hp hs, ?_⟩
        simp [notice, phase?, hc, hp, hs, employ, setJob, setPhase,
          setWorker, modify_eq_set _ hc, modify_set, moved, employed]
    | _ => exact .inl (by simp [notice, phase?, hc, hp])

/-- With its detections known, a task gets in line for a worker. -/
theorem enlist_move (hc : w.registry.tasks[i]? = some t) (hu : undecided t.phase = true)
    (detections : Detections) :
    ∃ t' pool, Move w.registry m i w.files t none t' pool w.files ∧
      w.registry.enlist i detections m =
        { w.registry with pool, tasks := w.registry.tasks.set i t' } := by
  have hpath := Path.join_ne_empty w.registry.settings.directory
    (fileName_ne_empty t.job.runId m.wall t.job.isPartial)
  cases hs : (w.registry.pool.ask i).holds i with
  | true =>
    refine ⟨_, _, .enlisted t _ detections (m.timer + w.registry.settings.deadline) hu hpath hs, ?_⟩
    simp [enlist, hc, hs, employ, setJob, setPhase, setWorker, modify_eq_set _ hc, modify_set,
      employed]
  | false =>
    refine ⟨_, _, .lined t _ detections (m.timer + w.registry.settings.deadline) hu hpath, ?_⟩
    simp [enlist, hc, hs, setPhase, modify_eq_set _ hc, modify_set]

theorem oneMove_begin (w : World σ) (i : Nat) (m : Moment) : w.OneMove (.begin i, m) := by
  cases hc : w.registry.tasks[i]? with
  | none => exact .inl (by simp [begin, hc])
  | some t =>
    obtain ⟨run, job, phase, path, abandoned, worker⟩ := t
    cases phase with
    | fresh =>
      cases hcorr : w.correlation with
      | none =>
        obtain ⟨t', pool, hm, he⟩ := enlist_move hc rfl detectionDisabled
        refine .inr ⟨i, _, none, t', pool, none, w.files, hc, hm, ?_⟩
        simp [begin, hc, hcorr, he, moved]
      | some c =>
        obtain ⟨⟨answer, c'⟩, hask⟩ : ∃ r, c.ask run m = r := ⟨_, rfl⟩
        cases answer with
        | ok query =>
          refine .inr ⟨i, _, none, _, _, some c', w.files, hc, .asking _ query rfl, ?_⟩
          simp [begin, hc, hcorr, hask, setPhase, modify_eq_set _ hc, moved]
        | error detections =>
          obtain ⟨t', pool, hm, he⟩ := enlist_move hc rfl detections
          refine .inr ⟨i, _, none, t', pool, some c', w.files, hc, hm, ?_⟩
          simp [begin, hc, hcorr, hask, he, moved]
    | _ => exact .inl (by simp [begin, hc])

theorem oneMove_answered (w : World σ) (i : Nat) (answer : Except RemoteFault (List Evidence))
    (m : Moment) : w.OneMove (.answered i answer, m) := by
  cases hc : w.registry.tasks[i]? with
  | none => exact .inl (by simp [answered, hc])
  | some t =>
    obtain ⟨run, job, phase, path, abandoned, worker⟩ := t
    cases phase with
    | asking query =>
      cases hcorr : w.correlation with
      | none =>
        refine .inl ?_
        simp [answered, hc, hcorr]
        rw [← hcorr]
      | some c =>
        obtain ⟨⟨detections, c'⟩, hans⟩ : ∃ r, c.answered run query answer m = r := ⟨_, rfl⟩
        obtain ⟨t', pool, hm, he⟩ := enlist_move hc rfl detections
        refine .inr ⟨i, _, none, t', pool, some c', w.files, hc, hm, ?_⟩
        simp [answered, hc, hcorr, hans, he, moved]
    | _ => exact .inl (by simp [answered, hc])

theorem oneMove_queryExpired (w : World σ) (i : Nat) (m : Moment) :
    w.OneMove (.queryExpired i, m) := by
  cases hc : w.registry.tasks[i]? with
  | none => exact .inl (by simp [queryExpired, phase?, hc])
  | some t =>
    obtain ⟨run, job, phase, path, abandoned, worker⟩ := t
    cases phase with
    | asking query =>
      cases hcorr : w.correlation with
      | none =>
        refine .inl ?_
        simp [queryExpired, phase?, hc, hcorr]
        rw [← hcorr]
      | some c =>
        by_cases hd : query.deadline ≤ m.timer
        · obtain ⟨⟨detections, c'⟩, hans⟩ : ∃ r, c.expired query m = r := ⟨_, rfl⟩
          obtain ⟨t', pool, hm, he⟩ := enlist_move hc rfl detections
          refine .inr ⟨i, _, none, t', pool, some c', w.files, hc, hm, ?_⟩
          simp [queryExpired, phase?, hc, hcorr, hd, hans, he, moved]
        · refine .inl ?_
          simp [queryExpired, phase?, hc, hcorr, hd]
          rw [← hcorr]
    | _ => exact .inl (by simp [queryExpired, phase?, hc])

theorem oneMove_expire (w : World σ) (i : Nat) (m : Moment) : w.OneMove (.expire i, m) := by
  cases hc : w.registry.tasks[i]? with
  | none => exact .inl (by simp [expire, phase?, hc])
  | some t =>
    cases hp : t.phase with
    | waiting detections deadline =>
      by_cases hd : deadline ≤ m.timer
      · refine .inr ⟨i, t, _, _, _, w.correlation, _, hc, .expiredWaiting t _ _ hp hd, ?_⟩
        simp [expire, phase?, hc, hp, hd, modify_eq_set _ hc, moved, givenUp]
      · exact .inl (by simp [expire, phase?, hc, hp, hd])
    | rendering deadline =>
      by_cases hd : deadline ≤ m.timer
      · refine .inr ⟨i, t, _, _, _, w.correlation, _, hc, .expiredRendering t _ hp hd, ?_⟩
        simp [expire, phase?, hc, hp, hd, modify_eq_set _ hc, moved, givenUp]
      · exact .inl (by simp [expire, phase?, hc, hp, hd])
    | _ => exact .inl (by simp [expire, phase?, hc, hp])

theorem oneMove_discard (w : World σ) (i : Nat) (m : Moment) : w.OneMove (.discard i, m) := by
  cases hc : w.registry.tasks[i]? with
  | none => exact .inl (by simp [discard, hc])
  | some t =>
    obtain ⟨run, job, phase, path, abandoned, worker⟩ := t
    cases phase with
    | discarding =>
      obtain ⟨⟨answer, files'⟩, hr⟩ : ∃ r, FileStore.remove path w.files = r := ⟨_, rfl⟩
      refine .inr ⟨i, _, _, _, _, w.correlation, _, hc, .discarded _ answer files' rfl hr, ?_⟩
      simp [discard, hc, hr, setPhase, modify_eq_set _ hc, moved]
    | _ => exact .inl (by simp [discard, hc])

theorem oneMove_mark (w : World σ) (i : Nat) (m : Moment) : w.OneMove (.mark i, m) := by
  cases hc : w.registry.tasks[i]? with
  | none => exact .inl (by simp [mark, phase?, hc])
  | some t =>
    cases hp : t.phase with
    | discarded =>
      let error := "rendering exceeded " ++ toString (w.registry.settings.deadline / 1000) ++ "s"
      refine .inr ⟨i, t, none, _, _, w.correlation, _, hc, .marked t error hp, ?_⟩
      simp [mark, phase?, hc, hp, setJob, setPhase, modify_eq_set _ hc,
        modify_set, moved, ended, error]
    | _ => exact .inl (by simp [mark, phase?, hc, hp])

theorem oneMove_finish (w : World σ) (i : Nat) (m : Moment) : w.OneMove (.finish i, m) := by
  cases hc : w.registry.tasks[i]? with
  | none => exact .inl (by simp [finish, hc])
  | some t =>
    obtain ⟨run, job, phase, path, abandoned, worker⟩ := t
    cases phase with
    | rendering deadline =>
      cases worker with
      | none => exact .inl (by simp [finish, hc])
      | some v =>
        cases v with
        | returned result =>
          cases result with
          | ok _ =>
            refine .inr ⟨i, _, _, _, _, w.correlation, _, hc, .done _ deadline rfl rfl, ?_⟩
            simp [finish, hc, setJob, setPhase, modify_eq_set _ hc, modify_set, moved, ended]
          | error fault =>
            refine .inr ⟨i, _, _, _, _, w.correlation, _, hc, .failed _ deadline fault rfl rfl, ?_⟩
            simp [finish, hc, setJob, setPhase, modify_eq_set _ hc, modify_set, moved, ended]
        | _ => exact .inl (by simp [finish, hc])
    | _ => exact .inl (by simp [finish, hc])

theorem oneMove_of_work {v v' : Worker} {x : Option Happening} {files' : σ} {e : Event σ × Moment}
    (hc : w.registry.tasks[i]? = some t) (hv : t.worker = some v)
    (h : Work w.registry t e.2 w.files v x v' files')
    (hs : w.step e = w.moved i x { t with worker := some v' } (poolAfter w.registry.pool i v')
      w.correlation files') : w.OneMove e :=
  .inr ⟨i, t, x, _, _, w.correlation, files', hc, .worked t v v' x files' hv h, hs⟩

theorem oneMove_work (w : World σ) (i : Nat) (trouble : Option DrawingTrouble) (m : Moment) :
    w.OneMove (.work i trouble, m) := by
  cases hc : w.registry.tasks[i]? with
  | none => exact .inl (by simp [work, hc])
  | some t =>
    obtain ⟨run, job, phase, path, abandoned, worker⟩ := t
    cases worker with
    | none => exact .inl (by simp [work, hc])
    | some v =>
      cases v with
      | drawing detections =>
        cases trouble with
        | none =>
          refine oneMove_of_work hc rfl (.drew detections _ rfl) ?_
          simp [work, hc, setWorker_eq hc, moved, poolAfter]
        | some trouble =>
          cases trouble with
          | failing detail =>
            refine oneMove_of_work hc rfl (.undrawn detections (.drawing detail)) ?_
            simp [work, hc, returns_eq hc, moved, poolAfter]
          | crashing message =>
            refine oneMove_of_work hc rfl
              (.undrawn detections (.crashed (crashReport i message))) ?_
            simp [work, hc, returns_eq hc, moved, poolAfter]
      | checking pdf =>
        cases ha : abandoned with
        | true =>
          subst ha
          refine oneMove_of_work hc rfl (.stopped pdf rfl) ?_
          simp [work, hc, returns_eq hc, moved, poolAfter]
        | false =>
          subst ha
          refine oneMove_of_work hc rfl (.goesAhead pdf rfl) ?_
          simp [work, hc, setWorker_eq hc, moved, poolAfter]
      | preparing pdf =>
        obtain ⟨⟨answer, files'⟩, hf⟩ : ∃ r,
          FileStore.createDirectories w.registry.settings.directory w.files = r := ⟨_, rfl⟩
        rcases afterFile_cases w.registry i answer (·.setWorker i (.writing pdf)) with
          ⟨rfl, he⟩ | ⟨hne, fault, he⟩
        · refine oneMove_of_work hc rfl (.prepared pdf files' hf) ?_
          simp [work, hc, hf, he, setWorker_eq hc, moved, poolAfter]
        · refine oneMove_of_work hc rfl (.unprepared pdf answer files' fault hf hne) ?_
          simp [work, hc, hf, he, returns_eq hc, moved, poolAfter]
      | writing pdf =>
        obtain ⟨⟨answer, files'⟩, hf⟩ : ∃ r,
          FileStore.write path (.document pdf) w.files = r := ⟨_, rfl⟩
        rcases afterFile_cases w.registry i answer (·.setWorker i .rechecking) with
          ⟨rfl, he⟩ | ⟨hne, fault, he⟩
        · refine oneMove_of_work hc rfl (.wrote pdf files' hf) ?_
          simp [work, hc, hf, he, setWorker_eq hc, moved, poolAfter]
        · refine oneMove_of_work hc rfl (.unwritten pdf answer files' fault hf hne) ?_
          simp [work, hc, hf, he, returns_eq hc, moved, poolAfter]
      | rechecking =>
        cases ha : abandoned with
        | true =>
          subst ha
          refine oneMove_of_work hc rfl (.late rfl) ?_
          simp [work, hc, setWorker_eq hc, moved, poolAfter]
        | false =>
          subst ha
          refine oneMove_of_work hc rfl (.kept rfl) ?_
          simp [work, hc, returns_eq hc, moved, poolAfter]
      | removing =>
        obtain ⟨⟨answer, files'⟩, hf⟩ : ∃ r, FileStore.remove path w.files = r := ⟨_, rfl⟩
        rcases afterFile_cases w.registry i answer (·.returns i (.error .abandoned)) with
          ⟨rfl, he⟩ | ⟨hne, fault, he⟩
        · refine oneMove_of_work hc rfl (.removed .ok files' .abandoned hf) ?_
          simp [work, hc, hf, he, returns_eq hc, moved, poolAfter]
        · refine oneMove_of_work hc rfl (.removed answer files' fault hf) ?_
          simp [work, hc, hf, he, returns_eq hc, moved, poolAfter]
      | returned result => exact .inl (by simp [work, hc])

theorem step_request (w : World σ) (run : Run) (id : JobId) (m : Moment) :
    (w.step (.request run id, m) = w ∧
      (w.registry.request run id m).2 = w.registry) ∨
    ∃ group : TaskGroup Nat, RunId.wellFormed run.id = true ∧ run.isFinished = true ∧
      w.registry.Free run.id ∧ group.closed = w.registry.group.closed ∧
      w.step (.request run id, m) =
        w.entered (newTask w.registry run (.queued id run.id false m.wall) m)
          (Table.put run.id w.registry.tasks.length w.registry.tracked) w.registry.partials group
          (some (.tracked run.id)) := by
  have hsame : (w.registry.request run id m).2 = w.registry →
      w.step (.request run id, m) = w := by
    intro h
    simp [h]
  obtain ⟨result, hr⟩ : ∃ r, w.registry.request run id m = r := ⟨_, rfl⟩
  have hreq := request_requested w.registry run id m
  rw [hr] at hreq
  cases hreq with
  | invalid => exact .inl ⟨hsame (congrArg Prod.snd hr), congrArg Prod.snd hr⟩
  | unfinished => exact .inl ⟨hsame (congrArg Prod.snd hr), congrArg Prod.snd hr⟩
  | joined => exact .inl ⟨hsame (congrArg Prod.snd hr), congrArg Prod.snd hr⟩
  | entered group hgood hfin hfree hclosed =>
    refine .inr ⟨group, hgood, hfin, hfree, hclosed, ?_⟩
    simp [hr, entered, Registry.entered]

theorem step_requestPartial (w : World σ) (run : Run) (id : JobId) (m : Moment) :
    w.step (.requestPartial run id, m) = w ∨
    ∃ partials group, RunId.wellFormed run.id = true ∧ group.closed = w.registry.group.closed ∧
      w.step (.requestPartial run id, m) =
        w.entered (newTask w.registry run (.queued id run.id (!run.isFinished) m.wall) m)
          w.registry.tracked partials group none := by
  rcases requestPartial_cases w.registry run id m with ⟨_, h⟩ | ⟨hgood, partials, group, hc, h⟩
  · exact .inl (by simp [h])
  · exact .inr ⟨partials, group, hgood, hc, by simp [h, entered]⟩

/-- What new tasks, moves and the rest keep, a step keeps. -/
theorem step_induction {P : World σ → Prop} (e : Event σ × Moment)
    (hrequest : ∀ w run id group, P w → RunId.wellFormed run.id = true → run.isFinished = true →
      w.registry.Free run.id → group.closed = w.registry.group.closed →
      P (w.entered (newTask w.registry run (.queued id run.id false e.2.wall) e.2)
        (Table.put run.id w.registry.tasks.length w.registry.tracked) w.registry.partials group
        (some (.tracked run.id))))
    (hpartial : ∀ w run id partials group, P w → RunId.wellFormed run.id = true →
      group.closed = w.registry.group.closed →
      P (w.entered (newTask w.registry run (.queued id run.id (!run.isFinished) e.2.wall) e.2)
        w.registry.tracked partials group none))
    (hmove : ∀ w i t x t' pool correlation files, P w → w.registry.tasks[i]? = some t →
      Move w.registry e.2 i w.files t x t' pool files → P (w.moved i x t' pool correlation files))
    (hgroup : ∀ w group, P w → P { w with registry := { w.registry with group } })
    (helse : ∀ w change, e.1 = .elsewhere change → P w → P { w with files := change w.files })
    {w : World σ} (h : P w) : P (w.step e) := by
  have hone : w.OneMove e → P (w.step e) := by
    rintro (hs | ⟨i, t, x, t', pool, correlation, files, hc, hm, hs⟩)
    · rwa [hs]
    · rw [hs]
      exact hmove w i t x t' pool correlation files h hc hm
  obtain ⟨e, m⟩ := e
  cases e with
  | request run id =>
    rcases step_request w run id m with ⟨hs, _⟩ | ⟨group, hgood, hfin, hfree, hc, hs⟩
    · rwa [hs]
    · rw [hs]
      exact hrequest w run id group h hgood hfin hfree hc
  | requestPartial run id =>
    rcases step_requestPartial w run id m with hs | ⟨partials, group, hgood, hc, hs⟩
    · rwa [hs]
    · rw [hs]
      exact hpartial w run id partials group h hgood hc
  | begin i => exact hone (oneMove_begin w i m)
  | answered i answer => exact hone (oneMove_answered w i answer m)
  | queryExpired i => exact hone (oneMove_queryExpired w i m)
  | notice i => exact hone (oneMove_notice w i m)
  | expire i => exact hone (oneMove_expire w i m)
  | discard i => exact hone (oneMove_discard w i m)
  | mark i => exact hone (oneMove_mark w i m)
  | finish i => exact hone (oneMove_finish w i m)
  | work i trouble => exact hone (oneMove_work w i trouble m)
  | close =>
    have hs : w.step (.close, m) =
        { w with registry := { w.registry with group := w.registry.group.close } } := by
      simp [close]
    rw [hs]
    exact hgroup w _ h
  | drain =>
    have hs : w.step (.drain, m) =
        { w with registry := { w.registry with group := w.registry.group.drain } } := by
      simp [drain]
    rw [hs]
    exact hgroup w _ h
  | elsewhere change =>
    have hs : w.step (.elsewhere change, m) = { w with files := change w.files } := by
      simp
    rw [hs]
    exact helse w change rfl h

/-- What every step of a run keeps, the run keeps. -/
theorem play_induction {P : World σ → Prop} {es : List (Event σ × Moment)}
    (hstep : ∀ w, ∀ e ∈ es, P w → P (w.step e)) {w : World σ} (h : P w) : P (w.play es) := by
  induction es generalizing w with
  | nil => exact h
  | cons e es ih =>
    refine ih (fun w e' he' => hstep w e' (List.mem_cons_of_mem _ he')) ?_
    exact hstep w e List.mem_cons_self h

end World
end AfterAction.Registry
