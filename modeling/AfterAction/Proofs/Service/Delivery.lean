import AfterAction.Proofs.Report.Smooth
import AfterAction.Proofs.Service.Guards
import AfterAction.Proofs.Service.Shutdown
import AfterAction.Proofs.Tagging.Smooth

/-!
# Events that come again

Events are delivered at least once and in any order. Where the engine always gives the same run and
nothing goes wrong (`favoured`), each of them has done its part once its task has ended, and none has
done more than its part: `Delivers` says for each task that it has not been answered yet, or that its
run is unknown, or that the run has a tag call, and a job if its report is wanted.
-/

namespace AfterAction

/-- The task that an event gets: its run, and whether its report is wanted. -/
def LifecycleEvent.task? : LifecycleEvent → Option (String × Bool)
  | .stateChanged id _ _ => some (id, false)
  | .started _ => none
  | .finished id => some (id, true)

namespace Service

variable {σ : Type}

def taskOf (task : EventTask) : String × Bool := (task.runId.text, task.wantsReport)

/-- An event that is taken in gets its task. -/
theorem dispatch_accepting {s : Service σ} (hopen : s.eventGroup.closed = false)
    {event : LifecycleEvent} (hgood : RunId.wellFormed event.runId = true) :
    ∃ tasks : List EventTask, (s.dispatch event).2.events = s.events ++ tasks ∧
      tasks.map taskOf = event.task?.toList ∧ ∀ task ∈ tasks, task.phase = .fetching := by
  have hspawn : ∀ runId wantsReport, (s.spawn runId wantsReport).2.events =
      s.events ++ [⟨runId, wantsReport, .fetching⟩] := by
    intro runId wantsReport
    simp [spawn, TaskGroup.spawn?, hopen]
  have hparse : RunId.parse event.runId = .ok ⟨event.runId, hgood⟩ :=
    RunId.parse_text ⟨event.runId, hgood⟩
  cases event with
  | started id =>
    refine ⟨[], ?_, rfl, fun _ h => absurd h List.not_mem_nil⟩
    rw [dispatch, hparse]
    exact (List.append_nil _).symm
  | stateChanged id before after =>
    refine ⟨[⟨⟨id, hgood⟩, false, .fetching⟩], ?_, rfl, by simp⟩
    rw [dispatch, hparse]
    exact hspawn _ false
  | finished id =>
    refine ⟨[⟨⟨id, hgood⟩, true, .fetching⟩], ?_, rfl, by simp⟩
    rw [dispatch, hparse]
    exact hspawn _ true

/-- A task goes on, with its run. -/
theorem setEvent_taskOf (s : Service σ) (i : Nat) (phase : EventPhase) :
    (s.setEvent i phase).events.map taskOf = s.events.map taskOf := by
  refine List.ext_getElem? fun j => ?_
  rw [setEvent, List.getElem?_map, List.getElem?_map, List.getElem?_modify]
  cases s.events[j]? with
  | none => rfl
  | some task =>
    by_cases hij : i = j
    · simp [hij, taskOf]
    · simp [hij]

theorem setEvent_cases {s : Service σ} {i j : Nat} {phase : EventPhase} {task : EventTask}
    (h : (s.setEvent i phase).events[j]? = some task) : s.events[j]? = some task ∨
      (i = j ∧ ∃ before, s.events[i]? = some before ∧ task = { before with phase }) := by
  rw [setEvent, List.getElem?_modify] at h
  obtain ⟨before, hbefore, rfl⟩ := Option.map_eq_some_iff.mp h
  by_cases hij : i = j
  · subst hij
    exact .inr ⟨rfl, before, hbefore, by simp⟩
  · exact .inl (by simpa [hij] using hbefore)

namespace Host

/-- The store acknowledges the documents of calls. -/
theorem receipt?_mem {s : Service σ} {e : Event σ} {document : TagDocument}
    (h : receipt? s e = some document) : document ∈ s.tagging.documents := by
  unfold receipt? at h
  split at h
  · split at h
    · rename_i hc
      cases h
      exact List.mem_map_of_mem (List.mem_of_getElem? hc)
    · cases h
  · cases h

/-! ## Runs in which nothing goes wrong -/

def dispatched? : Event σ → Option LifecycleEvent
  | .dispatch event => some event
  | _ => none

/-- The events that are delivered in a run. -/
def delivered (es : List (Event σ × Moment)) : List LifecycleEvent :=
  es.filterMap fun e => dispatched? e.1

/-- The answer is what the engine has for the run. -/
def supplies (engine : String → Option Run) (id : String) : Except RemoteFault Run → Bool
  | .ok run => engine id = some run
  | .error _ => (engine id).isNone

variable [FileStore σ]

/-- What is asked for in the step is granted: events come before the shutdown and name their runs
well, the engine and the store answer, and the worker and its files do what they are asked to. Nobody
else uses the service. -/
def grants (engine : String → Option Run) (w : Host σ) : Event σ → Bool
  | .dispatch event => w.stage = .serving && RunId.wellFormed event.runId
  | .fetched i answer _ => (w.service.events[i]?).all fun task =>
    supplies engine task.runId.text answer
  | .call _ (.answered (.error _)) => false
  | .job i (.work trouble) => trouble.isNone && w.service.registry.obliges i w.service.files
  | .tag _ | .requestReport .. | .requestPartial .. | .elsewhere _ => false
  | _ => true

/-- Nothing goes wrong in the step, and no deadline has passed. -/
def favours (engine : String → Option Run) (w : Host σ) (e : Event σ × Moment) : Bool :=
  w.grants engine e.1 && (w.service.tagging.onTime e.2 && w.service.registry.onTime e.2)

/-- Nothing goes wrong in the run. -/
def favoured (engine : String → Option Run) : Host σ → List (Event σ × Moment) → Bool
  | _, [] => true
  | w, e :: es => w.favours engine e && (w.step e).favoured engine es

variable {engine : String → Option Run} {w : Host σ} {e : Event σ × Moment}

theorem favours_onTime (hf : w.favours engine e = true) :
    w.service.tagging.onTime e.2 = true ∧ w.service.registry.onTime e.2 = true :=
  Bool.and_eq_true_iff.mp (Bool.and_eq_true_iff.mp hf).2

/-- The engine's answer is that of the task's run. -/
theorem supplies_of_grants {i : Nat} {answer : Except RemoteFault Run} {id : JobId}
    (hg : w.grants engine (.fetched i answer id) = true) {task : EventTask}
    (hi : w.service.events[i]? = some task) :
    supplies engine task.runId.text answer = true := by
  rw [grants, hi] at hg
  exact hg

theorem engine_of_supplies {id : String} {run : Run}
    (h : supplies engine id (.ok run) = true) : engine id = some run := of_decide_eq_true h

/-- The store takes what the tag calls send it. -/
theorem favours_calls (hf : w.favours engine e = true) {e' : Tagging.Event σ}
    (he : w.callEvent? e.1 = some e') : w.service.tags.favours (e', e.2) = true := by
  obtain ⟨hin, -⟩ := favours_onTime hf
  have hg := (Bool.and_eq_true_iff.mp hf).1
  refine Bool.and_eq_true_iff.mpr ⟨hin, ?_⟩
  obtain ⟨e, m⟩ := e
  cases e with
  | fetched i answer id =>
    obtain ⟨run, -, rfl⟩ := Option.map_eq_some_iff.mp he
    rfl
  | call i step =>
    cases he
    cases step with
    | answered answer =>
      cases answer with
      | ok id => rfl
      | error fault => cases hg
    | _ => rfl
  | tag run => cases hg
  | _ => cases he

/-- The report jobs find nothing wrong either: as long as a task of an event has not been answered,
their group is open. -/
theorem favours_reports {places : Nat} (ho : w.Orderly places) (hf : w.favours engine e = true)
    {e' : Registry.Event σ} (he : w.jobEvent? e.1 = some e') :
    w.reports.favours (e', e.2) = true := by
  obtain ⟨-, hin⟩ := favours_onTime hf
  have hg := (Bool.and_eq_true_iff.mp hf).1
  refine Bool.and_eq_true_iff.mpr ⟨hin, ?_⟩
  obtain ⟨e, m⟩ := e
  cases e with
  | fetched i answer id =>
    obtain ⟨run, hasked, rfl⟩ := Option.map_eq_some_iff.mp he
    obtain ⟨runId, hi, -⟩ := asked?_eq_some hasked
    have hopen : w.service.registry.group.closed = false := ho.open_of_fetching hi
    show (!w.service.registry.group.closed) = true
    rw [hopen]
    rfl
  | job i step =>
    cases he
    cases step with
    | work trouble => exact hg
    | _ => rfl
  | shutDown =>
    rw [jobEvent?] at he
    split at he
    · cases he
      rfl
    · cases he
      rfl
    · cases he
  | requestReport | requestPartial => cases hg
  | _ => cases he

/-- A step without a part for the report jobs leaves them and the files as they are. -/
theorem reports_same (hs : w.service.tagging.Smooth) (hg : w.grants engine e.1 = true)
    (he : w.jobEvent? e.1 = none) : (w.step e).reports = w.reports := by
  obtain ⟨e, m⟩ := e
  have hsame : (w.serve m e).registry = w.service.registry →
      (w.serve m e).correlation = w.service.correlation →
      (w.serve m e).files = w.service.files → (w.step (e, m)).reports = w.reports := by
    intro hr hc hf
    simp [reports, Host.step, hr, hc, hf, show w.jobEvent? e = none from he]
  cases e with
  | dispatch event =>
    obtain ⟨events, eventGroup, hd⟩ := w.service.dispatch_same event
    exact hsame (by rw [serve, hd]) (by rw [serve, hd]) (by rw [serve, hd])
  | fetched i answer id =>
    obtain ⟨hr, hc, hf⟩ := w.service.fetched_reports i answer id m
    have hnone : w.service.asked? i answer = none := Option.map_eq_none_iff.mp he
    exact hsame (hr.trans (by rw [registryAfter, hnone])) hc hf
  | call i step =>
    cases step with
    | keep suffix =>
      have hkeep : w.service.tagging.keep i suffix m w.service.files =
          (w.service.tagging, w.service.files) := by
        unfold Tagging.keep
        split
        · rename_i document reason hc
          exact (hs.calls i document _ hc).elim
        · rfl
      refine hsame rfl rfl ?_
      show (w.service.tagging.keep i suffix m w.service.files).2 = _
      rw [hkeep]
    | _ => exact hsame rfl rfl rfl
  | shutDown =>
    cases hw : w.stage with
    | eventsDrained | reportsClosed =>
      rw [jobEvent?, hw] at he
      cases he
    | _ =>
      refine hsame ?_ ?_ ?_ <;> simp [serve, hw, shutDown, closeEvents, drainEvents]
  | tag | requestReport | requestPartial | elsewhere => cases hg
  | job i step => cases he

/-! ## What is known on the way -/

/-- The document was built from a run that the engine has and an event asked for. -/
def Sourced (engine : String → Option Run) (limits : TagLimits) (events : List LifecycleEvent)
    (document : TagDocument) : Prop :=
  ∃ run now wantsReport, engine run.id = some run ∧
    (run.id, wantsReport) ∈ events.filterMap (·.task?) ∧
    TagDocument.ofRun limits now run = .ok document

/-- The engine has the run, and an event asked for its report. -/
def Wanted (engine : String → Option Run) (events : List LifecycleEvent) (run : Run) : Prop :=
  engine run.id = some run ∧ (run.id, true) ∈ events.filterMap (·.task?)

/-- Where the task of an event has got to: it has not been answered yet, or its run is unknown, or
the run has a tag call, and a job if its report is wanted and it has finished. -/
def TaskDelivers (engine : String → Option Run) (limits : TagLimits) (s : Service σ)
    (task : EventTask) : Prop :=
  match task.phase with
  | .fetching => True
  | .tagging call => ∃ run now document, engine task.runId.text = some run ∧
      TagDocument.ofRun limits now run = .ok document ∧
      s.tagging.documents[call]? = some document ∧
      (task.wantsReport = true → run.isFinished = true →
        ∃ i, s.registry.trackedTask? run.id = some i)
  | .ended => engine task.runId.text = none

structure Delivers (engine : String → Option Run) (limits : TagLimits) (events : List LifecycleEvent)
    (places : Nat) (directory : String) [FileView σ] (w : Host σ) : Prop where
  orderly : w.Orderly places
  /-- Each event that asked for a task has its own, in order. -/
  asked : w.service.events.map taskOf = events.filterMap (·.task?)
  limits_eq : w.service.tagging.settings.limits = limits
  smooth : w.service.tagging.Smooth
  sourced : ∀ document ∈ w.service.tagging.documents, Sourced engine limits events document
  /-- The store has acknowledged the documents of the calls that have ended, and no others. -/
  stored : ∀ (i : Nat) document result,
    w.service.tagging.calls[i]? = some ⟨document, .ended result⟩ → document ∈ w.acknowledged
  acknowledged : ∀ document ∈ w.acknowledged, document ∈ w.service.tagging.documents
  reports : w.reports.Prospers directory (Wanted engine events)
  tasks : ∀ (i : Nat) task, w.service.events[i]? = some task →
    TaskDelivers engine limits w.service task

variable {limits : TagLimits} {events events' : List LifecycleEvent} {places : Nat}
  {directory : String}

omit [FileStore σ] in
theorem Sourced.mono {document : TagDocument} (h : Sourced engine limits events document)
    (hmore : events.filterMap (·.task?) ⊆ events'.filterMap (·.task?)) :
    Sourced engine limits events' document := by
  obtain ⟨run, now, wantsReport, hrun, hin, hd⟩ := h
  exact ⟨run, now, wantsReport, hrun, hmore hin, hd⟩

omit [FileStore σ] in
theorem TaskDelivers.mono {s s' : Service σ} {task : EventTask} {begun : List TagDocument}
    (h : TaskDelivers engine limits s task) (hg : s.tagging.Grows s'.tagging begun)
    (hr : ∀ id i, s.registry.trackedTask? id = some i → s'.registry.trackedTask? id = some i) :
    TaskDelivers engine limits s' task := by
  unfold TaskDelivers at h ⊢
  cases hp : task.phase with
  | fetching => trivial
  | ended =>
    rw [hp] at h
    exact h
  | tagging call =>
    rw [hp] at h
    obtain ⟨run, now, document, hrun, hd, hcall, hjob⟩ := h
    refine ⟨run, now, document, hrun, hd, hg.document hcall, fun hw hfin => ?_⟩
    obtain ⟨i, hi⟩ := hjob hw hfin
    exact ⟨i, hr run.id i hi⟩

section
variable [FileView σ]

theorem delivers_new (engine : String → Option Run) (tagging : TagSettings) {breaker : Breaker}
    (hclosed : breaker.isOpen = false) (correlation : Option Correlation)
    (reports : ReportSettings) {files : σ}
    (hfiles : ∀ name, Registry.IsReportName name →
      FileView.Shows (Path.join reports.directory name) none files) :
    (new tagging breaker correlation reports files).Delivers engine tagging.limits []
      (max reports.workers 1) reports.directory where
  orderly := orderly_new tagging breaker correlation reports files
  asked := rfl
  limits_eq := rfl
  smooth := Tagging.smooth_new tagging hclosed
  sourced _ hd := absurd hd List.not_mem_nil
  stored i document result hc := by simp [new, Service.new, Tagging.new] at hc
  acknowledged _ hd := absurd hd List.not_mem_nil
  reports := Registry.World.prospers_new reports correlation hfiles _
  tasks i task hi := by simp [new, Service.new] at hi

/-- The run that a task is given is the engine's, and an event asked for it. -/
theorem Delivers.given (h : w.Delivers engine limits events places directory)
    (hengine : ∀ id run, engine id = some run → run.id = id) {i : Nat}
    {answer : Except RemoteFault Run} {id : JobId}
    (hg : w.grants engine (.fetched i answer id) = true) {run : Run} {runId : RunId}
    {wantsReport : Bool} (hi : w.service.events[i]? = some ⟨runId, wantsReport, .fetching⟩)
    (hanswer : answer = .ok run) :
    engine runId.text = some run ∧ run.id = runId.text ∧
      (run.id, wantsReport) ∈ events.filterMap (·.task?) := by
  subst hanswer
  have hrun : engine runId.text = some run := engine_of_supplies (supplies_of_grants hg hi)
  have hid := hengine _ _ hrun
  refine ⟨hrun, hid, ?_⟩
  rw [← h.asked, hid]
  exact List.mem_map_of_mem (List.mem_of_getElem? hi)

/-- The calls that begin in a step have documents of runs that were asked for. -/
theorem Delivers.grows_step (h : w.Delivers engine limits events places directory)
    (hengine : ∀ id run, engine id = some run → run.id = id) (hg : w.grants engine e.1 = true) :
    ∃ begun, w.service.tagging.Grows (w.step e).service.tagging begun ∧
      ∀ document ∈ begun, Sourced engine limits events document := by
  have hnone : ∀ document ∈ ([] : List TagDocument), Sourced engine limits events document :=
    fun _ hd => absurd hd List.not_mem_nil
  rcases w.tagging_step e with ⟨e', he, ht⟩ | ⟨-, ht⟩
  · obtain ⟨e, m⟩ := e
    rw [ht]
    cases e with
    | fetched i answer id =>
      obtain ⟨run, hgiven, rfl⟩ := Option.map_eq_some_iff.mp he
      obtain ⟨runId, wantsReport, hi, hanswer⟩ := given?_eq_some hgiven
      obtain ⟨hrun, hid, hin⟩ := h.given hengine hg hi hanswer
      cases hd : TagDocument.ofRun w.service.tagging.settings.limits m.wall run with
      | error fault =>
        refine ⟨[], ?_, hnone⟩
        rw [Tagging.World.step_start, show w.service.tags.client = w.service.tagging from rfl, hd]
        exact .refl _
      | ok document =>
        refine ⟨[document], Tagging.World.grows_start (w := w.service.tags) hd, fun d hmem => ?_⟩
        rw [List.mem_singleton.mp hmem]
        exact ⟨run, m.wall, wantsReport, hid.symm ▸ hrun, hin, h.limits_eq ▸ hd⟩
    | call i step =>
      cases he
      exact ⟨[], (step.oneMove w.service.tags i m).grows, hnone⟩
    | tag run => cases hg
    | _ => cases he
  · rw [ht]
    exact ⟨[], .refl _, hnone⟩

/-- No report job fails or is given up, and each is for a run whose report was asked for. -/
theorem Delivers.reports_step (h : w.Delivers engine limits events places directory)
    (hengine : ∀ id run, engine id = some run → run.id = id)
    (hf : w.favours engine e = true) :
    (w.step e).reports.Prospers directory (Wanted engine events) := by
  have hg := (Bool.and_eq_true_iff.mp hf).1
  rcases Host.reports_step w e with ⟨e', he, hr⟩ | ⟨he, -⟩
  · rw [hr]
    refine h.reports.step (favours_reports h.orderly hf he) fun run id he' => ?_
    obtain ⟨e, m⟩ := e
    cases e with
    | fetched i answer id' =>
      obtain ⟨run', hasked, hrun'⟩ := Option.map_eq_some_iff.mp he
      cases hrun'.trans he'
      obtain ⟨runId, hi, hanswer⟩ := asked?_eq_some hasked
      obtain ⟨hrun, hid, hin⟩ := h.given hengine hg hi hanswer
      exact ⟨hid.symm ▸ hrun, hin⟩
    | requestReport run' id' => cases hg
    | job i step =>
      cases he
      cases step <;> cases he'
    | shutDown =>
      rw [jobEvent?] at he
      split at he
      · cases he
        cases he'
      · cases he
        cases he'
      · cases he
    | requestPartial run' id' => cases hg
    | _ => cases he
  · rw [reports_same h.smooth hg he]
    exact h.reports

/-- A run keeps its job. -/
theorem Delivers.tracked_step (h : w.Delivers engine limits events places directory)
    (hengine : ∀ id run, engine id = some run → run.id = id)
    (hf : w.favours engine e = true) {id : String} {i : Nat}
    (hi : w.service.registry.trackedTask? id = some i) :
    (w.step e).service.registry.trackedTask? id = some i := by
  have h' := (h.reports_step hengine hf).thrives
  rcases Host.reports_step w e with ⟨e', he, hr⟩ | ⟨he, -⟩
  · rw [hr] at h'
    show (w.step e).reports.registry.trackedTask? id = some i
    rw [hr]
    exact h.reports.thrives.trackedTask?_step h' hi
  · show (w.step e).reports.registry.trackedTask? id = some i
    rw [reports_same h.smooth (Bool.and_eq_true_iff.mp hf).1 he]
    exact hi

/-- The calls stay smooth, and the store acknowledges the documents of those that end. -/
theorem Delivers.stored_step (h : w.Delivers engine limits events places directory)
    (hf : w.favours engine e = true) :
    (w.step e).service.tagging.Smooth ∧
    (∀ (i : Nat) document result,
      (w.step e).service.tagging.calls[i]? = some ⟨document, .ended result⟩ →
      document ∈ (w.step e).acknowledged) ∧
    ∀ document ∈ (w.step e).acknowledged, document ∈ w.service.tagging.documents := by
  have hacknowledged : (w.step e).acknowledged =
      (receipt? w.service e.1).toList ++ w.acknowledged := rfl
  have hreceipts : ∀ document ∈ (w.step e).acknowledged,
      document ∈ w.service.tagging.documents := by
    intro document hd
    rw [hacknowledged] at hd
    rcases List.mem_append.mp hd with hnew | hold
    · exact receipt?_mem (Option.mem_toList.mp hnew)
    · exact h.acknowledged document hold
  rcases w.tagging_step e with ⟨e', he, ht⟩ | ⟨-, ht⟩
  · have hs : w.service.tags.Stored (e', e.2) :=
      Tagging.World.stored_step h.smooth (favours_calls hf he)
    refine ⟨ht ▸ hs.smooth, fun i document result hc => ?_, hreceipts⟩
    rw [hacknowledged]
    rw [ht] at hc
    rcases hs.ended i document result hc with hold | ⟨id, a, hanswered, hwriting⟩
    · exact List.mem_append_right _ (h.stored i document result hold)
    · refine List.mem_append_left _ (Option.mem_toList.mpr ?_)
      obtain ⟨e, m⟩ := e
      cases hanswered
      cases e with
      | fetched j answer id' =>
        obtain ⟨run, -, hrun⟩ := Option.map_eq_some_iff.mp he
        cases hrun
      | call j step =>
        cases step with
        | answered answer =>
          cases he
          have hcall : w.service.tagging.calls[i]? = some ⟨document, .writing a⟩ := hwriting
          simp [receipt?, hcall]
        | _ => cases he
      | _ => cases he
  · refine ⟨ht ▸ h.smooth, fun i document result hc => ?_, hreceipts⟩
    rw [ht] at hc
    rw [hacknowledged]
    exact List.mem_append_right _ (h.stored i document result hc)

/-- A task that is answered goes on with the call, and the job, that it asked for. -/
theorem Delivers.fetched (h : w.Delivers engine limits events places directory)
    (hengine : ∀ id run, engine id = some run → run.id = id) {i : Nat}
    {answer : Except RemoteFault Run} {id : JobId} {m : Moment}
    (hf : w.favours engine (.fetched i answer id, m) = true) {j : Nat} {task : EventTask}
    (hj : (w.step (.fetched i answer id, m)).service.events[j]? = some task) :
    TaskDelivers engine limits (w.step (.fetched i answer id, m)).service task := by
  have hg : w.grants engine (.fetched i answer id) = true := (Bool.and_eq_true_iff.mp hf).1
  obtain ⟨begun, hgrows, -⟩ := h.grows_step (e := (.fetched i answer id, m)) hengine hg
  have hsame : ∀ {task : EventTask}, w.service.events[j]? = some task →
      TaskDelivers engine limits (w.step (.fetched i answer id, m)).service task := fun hold =>
    (h.tasks j _ hold).mono hgrows fun _ _ ht => h.tracked_step hengine hf ht
  have hanswered := w.service.fetched_answered i answer id m
  have hservice : (w.step (.fetched i answer id, m)).service = w.service.fetched i answer id m := rfl
  rw [hservice] at hj hsame ⊢
  generalize w.service.fetched i answer id m = s' at hj hsame hanswered ⊢
  cases hanswered with
  | ignored _ => exact hsame hj
  | dropped runId wantsReport fault hi herror =>
    rcases setEvent_cases hj with hold | ⟨rfl, before, hbefore, rfl⟩
    · exact hsame hold
    · cases hi.symm.trans hbefore
      subst herror
      have hsupplies := supplies_of_grants hg hi
      exact Option.isNone_iff_eq_none.mp hsupplies
  | misnamed runId wantsReport run fault hi hok hstart =>
    obtain ⟨-, hid, -⟩ := h.given hengine hg hi hok
    rcases TagDocument.ofRun_cases w.service.tagging.settings.limits m.wall run with
      ⟨hbad, -⟩ | ⟨-, document, hd⟩
    · rw [hid, runId.valid] at hbad
      cases hbad
    · rw [Tagging.start, hd] at hstart
      cases hstart
  | tagged runId wantsReport run call tagging hi hok hstart =>
    rcases setEvent_cases hj with hold | ⟨rfl, before, hbefore, rfl⟩
    · exact hsame hold
    · cases hi.symm.trans hbefore
      obtain ⟨hrun, hid, -⟩ := h.given hengine hg hi hok
      obtain ⟨document, hd, hcall⟩ := Tagging.start_eq_ok hstart
      have hbegun : (w.service.tags.step (.start run, m)).client = tagging := by
        simp [Tagging.World.step, Tagging.World.happen, tags, hstart]
      have hdocuments : tagging.documents = w.service.tagging.documents ++ [document] := by
        rw [← hbegun]
        exact (Tagging.World.grows_start (w := w.service.tags) hd).documents
      refine ⟨run, m.wall, document, hrun, h.limits_eq ▸ hd, ?_, fun hw hfin => ?_⟩
      · show tagging.documents[call]? = some document
        rw [hdocuments, hcall, List.getElem?_concat_length]
      · cases hw
        have hasked : w.service.asked? i answer = some run := by
          simp [asked?, hi, hok]
        show ∃ k, (w.service.registryAfter i answer id m).trackedTask? run.id = some k
        rw [registryAfter, hasked]
        exact h.reports.thrives.request_tracked (hid ▸ runId.valid) hfin id m

/-- Only an event that is delivered brings a task. -/
theorem Delivers.events_step (h : w.Delivers engine limits events places directory)
    (hengine : ∀ id run, engine id = some run → run.id = id) (hf : w.favours engine e = true) :
    (w.step e).service.events.map taskOf =
      (events ++ (dispatched? e.1).toList).filterMap (·.task?) ∧
    ∀ (i : Nat) task, (w.step e).service.events[i]? = some task →
      TaskDelivers engine limits (w.step e).service task := by
  have hg := (Bool.and_eq_true_iff.mp hf).1
  obtain ⟨begun, hgrows, -⟩ := h.grows_step hengine hg
  have hmono : ∀ {task : EventTask}, TaskDelivers engine limits w.service task →
      TaskDelivers engine limits (w.step e).service task := fun ht =>
    ht.mono hgrows fun _ _ hi => h.tracked_step hengine hf hi
  have hnone : ∀ {s : Service σ}, s.events.map taskOf = w.service.events.map taskOf →
      dispatched? e.1 = none → s.events.map taskOf =
        (events ++ (dispatched? e.1).toList).filterMap (·.task?) := by
    intro s hs he
    rw [hs, h.asked, he, Option.toList_none, List.append_nil]
  have hsame : (w.step e).service.events = w.service.events → dispatched? e.1 = none →
      (w.step e).service.events.map taskOf =
        (events ++ (dispatched? e.1).toList).filterMap (·.task?) ∧
      ∀ (i : Nat) task, (w.step e).service.events[i]? = some task →
        TaskDelivers engine limits (w.step e).service task := fun hs he =>
    ⟨hnone (by rw [hs]) he, fun i task hi => hmono (h.tasks i task (hs ▸ hi))⟩
  obtain ⟨e, m⟩ := e
  cases e with
  | dispatch event =>
    obtain ⟨hstage, hgood⟩ := Bool.and_eq_true_iff.mp hg
    have hopen : w.service.eventGroup.closed = false := by
      have hevents := h.orderly.events
      rw [of_decide_eq_true hstage] at hevents
      exact hevents.closed_eq_false
    obtain ⟨tasks, hevents, htasks, hfetching⟩ := dispatch_accepting hopen hgood
    have hstep : (w.step (.dispatch event, m)).service.events = w.service.events ++ tasks := hevents
    refine ⟨?_, fun i task hi => ?_⟩
    · rw [hstep, List.map_append, h.asked, htasks, List.filterMap_append]
      show _ = _ ++ List.filterMap _ [event]
      cases event <;> rfl
    · rw [hstep] at hi
      rcases List.mem_append.mp (List.mem_of_getElem? hi) with hold | hnew
      · obtain ⟨j, hj⟩ := List.mem_iff_getElem?.mp hold
        exact hmono (h.tasks j task hj)
      · rw [TaskDelivers, hfetching task hnew]
        trivial
  | fetched i answer id =>
    refine ⟨hnone ?_ rfl, fun j task hj => h.fetched hengine hf hj⟩
    have hanswered := w.service.fetched_answered i answer id m
    show (w.service.fetched i answer id m).events.map taskOf = _
    generalize w.service.fetched i answer id m = s' at hanswered ⊢
    cases hanswered with
    | ignored _ => rfl
    | dropped | misnamed | tagged => exact setEvent_taskOf _ _ _
  | call i step =>
    refine hsame ?_ rfl
    cases step <;> rfl
  | job i step =>
    refine hsame ?_ rfl
    cases step <;> rfl
  | shutDown =>
    obtain ⟨eventGroup, group, hs⟩ := w.service.shutDown_same w.stage
    exact hsame (congrArg Service.events hs :) rfl
  | tag | requestReport | requestPartial | elsewhere => cases hg

theorem Delivers.step (h : w.Delivers engine limits events places directory)
    (hengine : ∀ id run, engine id = some run → run.id = id) (hf : w.favours engine e = true) :
    (w.step e).Delivers engine limits (events ++ (dispatched? e.1).toList) places directory := by
  have hmore : events.filterMap (·.task?) ⊆
      (events ++ (dispatched? e.1).toList).filterMap (·.task?) := by
    rw [List.filterMap_append]
    exact List.subset_append_left _ _
  obtain ⟨begun, hgrows, hbegun⟩ := h.grows_step hengine (Bool.and_eq_true_iff.mp hf).1
  obtain ⟨hsmooth, hstored, hacknowledged⟩ := h.stored_step hf
  obtain ⟨hasked, htasks⟩ := h.events_step hengine hf
  refine ⟨h.orderly.step e, hasked, ?_, hsmooth, fun document hd => ?_, hstored,
    fun document hd => ?_, ?_, htasks⟩
  · rcases w.tagging_step e with ⟨e', -, ht⟩ | ⟨-, ht⟩
    · rw [ht, Tagging.World.step_settings]
      exact h.limits_eq
    · rw [ht]
      exact h.limits_eq
  · rw [hgrows.documents] at hd
    rcases List.mem_append.mp hd with hold | hnew
    · exact (h.sourced document hold).mono hmore
    · exact (hbegun document hnew).mono hmore
  · rw [hgrows.documents]
    exact List.mem_append_left _ (hacknowledged document hd)
  · exact (h.reports_step hengine hf).mono fun run ⟨hrun, hin⟩ => ⟨hrun, hmore hin⟩

/-- What is known after a run in which nothing goes wrong. -/
theorem Delivers.play (hengine : ∀ id run, engine id = some run → run.id = id)
    {es : List (Event σ × Moment)} (h : w.Delivers engine limits events places directory)
    (hf : w.favoured engine es = true) :
    (w.play es).Delivers engine limits (events ++ delivered es) places directory := by
  induction es generalizing w events with
  | nil =>
    rw [show delivered ([] : List (Event σ × Moment)) = [] from rfl, List.append_nil]
    exact h
  | cons e es ih =>
    obtain ⟨hnow, hlater⟩ := Bool.and_eq_true_iff.mp hf
    have hplayed := ih (h.step hengine hnow) hlater
    rw [List.append_assoc] at hplayed
    have hdelivered : (dispatched? e.1).toList ++ delivered es = delivered (e :: es) := by
      rw [delivered, delivered, List.filterMap_cons]
      cases dispatched? e.1 <;> rfl
    rw [hdelivered] at hplayed
    exact hplayed

end

end Host
end Service
end AfterAction
