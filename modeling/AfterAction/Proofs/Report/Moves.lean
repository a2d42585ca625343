import AfterAction.Report.Registry

/-!
# What a step can do to a report task

`Work` lists the steps of a worker and `Move` those of a task and its worker, with all that a step
depends on and all that it changes. Whatever is proved of tasks goes by cases on these.
-/

namespace AfterAction.Registry

/-- What is noted of a job beside its task. -/
inductive Happening
  /-- A request made it the job of this run. -/
  | tracked (runId : String)
  /-- The renderer returned this. -/
  | drawn (pdf : Pdf)
  /-- A removal of its output ended. -/
  | removed (answer : FileAnswer)

/-- The task has its place in the pool and puts a worker to work. -/
def employed (t : ReportTask) (detections : Detections) (deadline : Nat) : ReportTask :=
  { t with
    job := t.job.rendering
    phase := .rendering deadline
    worker := some (.drawing detections) }

/-- The deadline has passed: the worker's flag is set. -/
def givenUp (t : ReportTask) : ReportTask := { t with abandoned := true, phase := .discarding }

def ended (t : ReportTask) (job : ReportJob) : ReportTask := { t with job, phase := .ended }

/-- The task has not decided on its output yet. -/
def undecided : ReportPhase → Bool
  | .fresh | .asking _ => true
  | _ => false

/-- A worker that returns leaves the pool. -/
def poolAfter (pool : Slots Nat) (i : Nat) : Worker → Slots Nat
  | .returned _ => pool.release i
  | _ => pool

section
variable {α : Type} {i : Nat}

theorem modify_eq_set {l : List α} {a : α} (f : α → α) (h : l[i]? = some a) :
    l.modify i f = l.set i (f a) := by
  induction l generalizing i with
  | nil => cases h
  | cons b rest ih =>
    cases i with
    | zero => cases h; rfl
    | succ i => exact congrArg (b :: ·) (ih h)

theorem modify_set (l : List α) (i : Nat) (a : α) (f : α → α) :
    (l.set i a).modify i f = l.set i (f a) := by
  induction l generalizing i with
  | nil => simp
  | cons b rest ih =>
    cases i with
    | zero => rfl
    | succ i => exact congrArg (b :: ·) (ih i)

end

variable {r : Registry} {i : Nat} {t : ReportTask}

theorem setWorker_eq (hc : r.tasks[i]? = some t) (v : Worker) :
    r.setWorker i v = { r with tasks := r.tasks.set i { t with worker := some v } } := by
  rw [setWorker, modify_eq_set _ hc]

theorem returns_eq (hc : r.tasks[i]? = some t) (result : Except RenderFault Unit) :
    r.returns i result =
      { r with
        pool := r.pool.release i
        tasks := r.tasks.set i { t with worker := some (.returned result) } } := by
  rw [returns, setWorker_eq (by exact hc)]

/-- A call to the file system sends the worker on or back. -/
theorem afterFile_cases (r : Registry) (i : Nat) (answer : FileAnswer)
    (next : Registry → Registry) :
    (answer = .ok ∧ r.afterFile i answer next = next r) ∨
    (answer ≠ .ok ∧ ∃ fault, r.afterFile i answer next = r.returns i (.error fault)) := by
  cases answer with
  | ok => exact .inl ⟨rfl, rfl⟩
  | fault fault => exact .inr ⟨nofun, .file fault, rfl⟩
  | crashed message => exact .inr ⟨nofun, .crashed (crashReport i message), rfl⟩

theorem fileName_ne_empty (runId : String) (now : Instant) (isPartial : Bool) :
    fileName runId now isPartial ≠ "" := by
  simp [fileName]

variable {σ : Type} [FileStore σ]

/-- One step of the worker of job `i`: what it did, what is noted, what it does next and the files
afterwards. The flag is read twice, before anything is written and after. -/
inductive Work (r : Registry) (t : ReportTask) (m : Moment) (files : σ) :
    Worker → Option Happening → Worker → σ → Prop
  | drew (detections : Detections) (pdf : Pdf) :
      pdf = Pdf.render r.settings.company t.run detections m.wall →
      Work r t m files (.drawing detections) (some (.drawn pdf)) (.checking pdf) files
  | undrawn (detections : Detections) (fault : RenderFault) :
      Work r t m files (.drawing detections) none (.returned (.error fault)) files
  | stopped (pdf : Pdf) : t.abandoned = true →
      Work r t m files (.checking pdf) none (.returned (.error .abandoned)) files
  | goesAhead (pdf : Pdf) : t.abandoned = false →
      Work r t m files (.checking pdf) none (.preparing pdf) files
  | prepared (pdf : Pdf) (files' : σ) :
      FileStore.createDirectories r.settings.directory files = (.ok, files') →
      Work r t m files (.preparing pdf) none (.writing pdf) files'
  | unprepared (pdf : Pdf) (answer : FileAnswer) (files' : σ) (fault : RenderFault) :
      FileStore.createDirectories r.settings.directory files = (answer, files') → answer ≠ .ok →
      Work r t m files (.preparing pdf) none (.returned (.error fault)) files'
  | wrote (pdf : Pdf) (files' : σ) :
      FileStore.write t.path (.document pdf) files = (.ok, files') →
      Work r t m files (.writing pdf) none .rechecking files'
  | unwritten (pdf : Pdf) (answer : FileAnswer) (files' : σ) (fault : RenderFault) :
      FileStore.write t.path (.document pdf) files = (answer, files') → answer ≠ .ok →
      Work r t m files (.writing pdf) none (.returned (.error fault)) files'
  | kept : t.abandoned = false →
      Work r t m files .rechecking none (.returned (.ok ())) files
  | late : t.abandoned = true → Work r t m files .rechecking none .removing files
  | removed (answer : FileAnswer) (files' : σ) (fault : RenderFault) :
      FileStore.remove t.path files = (answer, files') →
      Work r t m files .removing (some (.removed answer)) (.returned (.error fault)) files'

/-- One step of a task or its worker: the task, what is noted, the task afterwards, and the pool and
the files afterwards. -/
inductive Move (r : Registry) (m : Moment) (i : Nat) (files : σ) :
    ReportTask → Option Happening → ReportTask → Slots Nat → σ → Prop
  | asking (t : ReportTask) (query : DetectionQuery) : t.phase = .fresh →
      Move r m i files t none { t with phase := .asking query } r.pool files
  | lined (t : ReportTask) (path : String) (detections : Detections) (deadline : Nat) :
      undecided t.phase = true → path ≠ "" →
      Move r m i files t none { t with path, phase := .waiting detections deadline } (r.pool.ask i)
        files
  | enlisted (t : ReportTask) (path : String) (detections : Detections) (deadline : Nat) :
      undecided t.phase = true → path ≠ "" → (r.pool.ask i).holds i = true →
      Move r m i files t none (employed { t with path } detections deadline) (r.pool.ask i) files
  | noticed (t : ReportTask) (detections : Detections) (deadline : Nat) :
      t.phase = .waiting detections deadline → r.pool.holds i = true →
      Move r m i files t none (employed t detections deadline) r.pool files
  | expiredWaiting (t : ReportTask) (detections : Detections) (deadline : Nat) :
      t.phase = .waiting detections deadline → deadline ≤ m.timer →
      Move r m i files t none (givenUp t) (r.pool.leave i) files
  | expiredRendering (t : ReportTask) (deadline : Nat) :
      t.phase = .rendering deadline → deadline ≤ m.timer →
      Move r m i files t none (givenUp t) r.pool files
  | discarded (t : ReportTask) (answer : FileAnswer) (files' : σ) : t.phase = .discarding →
      FileStore.remove t.path files = (answer, files') →
      Move r m i files t (some (.removed answer)) { t with phase := .discarded } r.pool files'
  | marked (t : ReportTask) (error : String) : t.phase = .discarded →
      Move r m i files t none (ended t (t.job.timedOut error m.wall)) r.pool files
  | done (t : ReportTask) (deadline : Nat) : t.phase = .rendering deadline →
      t.worker = some (.returned (.ok ())) →
      Move r m i files t none (ended t (t.job.done t.path m.wall)) r.pool files
  | failed (t : ReportTask) (deadline : Nat) (fault : RenderFault) :
      t.phase = .rendering deadline → t.worker = some (.returned (.error fault)) →
      Move r m i files t none (ended t (t.job.failed fault.message m.wall)) r.pool files
  | worked (t : ReportTask) (v v' : Worker) (x : Option Happening) (files' : σ) :
      t.worker = some v → Work r t m files v x v' files' →
      Move r m i files t x { t with worker := some v' } (poolAfter r.pool i v') files'

end AfterAction.Registry
