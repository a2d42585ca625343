import AfterAction.Proofs.Service.Delivery
import AfterAction.Remote.Store

/-!
# What is left of events that come again

The store keeps documents by their runs, so a document takes the place of the one before it (`held`),
and the registry has one job for a run. So what is left at the end depends only on which events there
were, not on how often or in which order they came (`due`).
-/

namespace AfterAction

/-- The document without its time. -/
def TagDocument.undated (d : TagDocument) : TagDocument :=
  { d with timestamp := .ofNanoCount 0 }

/-- The document of a run, without its time; none if the run's id is malformed. -/
def TagDocument.undatedOf (limits : TagLimits) (run : Run) : List TagDocument :=
  (ofRun limits (.ofNanoCount 0) run).toOption.toList

theorem TagDocument.undated_of_ofRun {limits : TagLimits} {now : Instant} {run : Run}
    {document : TagDocument} (h : ofRun limits now run = .ok document) :
    undatedOf limits run = [document.undated] := by
  unfold ofRun at h
  unfold undatedOf ofRun
  cases hid : RunId.parse run.id with
  | error fault =>
    rw [hid] at h
    cases h
  | ok id =>
    rw [hid] at h
    cases h
    rfl

namespace StoreAccess

/-- What the store holds once it has taken these documents, the latest first: each takes the place
of the one at its location. -/
def held (access : StoreAccess) : List TagDocument → List TagDocument
  | [] => []
  | d :: before => d :: (access.held before).filter fun other =>
    (access.putRequest other).url ≠ (access.putRequest d).url

theorem putRequest_url_inj {access : StoreAccess} {d d' : TagDocument} :
    (access.putRequest d).url = (access.putRequest d').url ↔
      d.fields.operationId = d'.fields.operationId := by
  constructor
  · intro h
    have hlist := congrArg String.toList h
    simp only [putRequest, Request.withJson, String.toList_append] at hlist
    exact String.toList_inj.mp (List.append_cancel_left hlist)
  · intro h
    simp only [putRequest, Request.withJson, h]

/-- Of the documents of a run the store holds the latest. -/
theorem held_filter (access : StoreAccess) (documents : List TagDocument) (id : String) :
    (access.held documents).filter (·.fields.operationId = id) =
      (documents.find? (·.fields.operationId = id)).toList := by
  induction documents with
  | nil => rfl
  | cons d before ih =>
    rw [held, List.find?_cons]
    by_cases hd : d.fields.operationId = id
    · have hothers : ((access.held before).filter fun other =>
          (access.putRequest other).url ≠ (access.putRequest d).url).filter
          (·.fields.operationId = id) = [] := by
        rw [List.filter_filter]
        refine List.filter_eq_nil_iff.mpr fun other _ => ?_
        simp [putRequest_url_inj, hd]
      rw [List.filter_cons_of_pos (by simpa using hd), hothers]
      simp [hd]
    · have hothers : ((access.held before).filter fun other =>
          (access.putRequest other).url ≠ (access.putRequest d).url).filter
          (·.fields.operationId = id) =
          (access.held before).filter (·.fields.operationId = id) := by
        rw [List.filter_filter]
        refine List.filter_congr fun other _ => ?_
        by_cases ho : other.fields.operationId = id
        · simp [putRequest_url_inj, ho, Ne.symm hd]
        · simp [ho]
      rw [List.filter_cons_of_neg (by simpa using hd), hothers, ih]
      simp [hd]

end StoreAccess

namespace Service.Host

variable {σ : Type}

/-- What there is for one run. -/
@[ext]
structure Remains where
  /-- In the store, without their times. -/
  documents : List TagDocument
  /-- The states of the jobs that the registry lists. -/
  jobs : List JobState
  /-- How often the renderer has drawn a report. -/
  drawn : Nat
  deriving DecidableEq

def remains (w : Host σ) (access : StoreAccess) (id : String) : Remains where
  documents := ((access.held w.acknowledged).filter (·.fields.operationId = id)).map (·.undated)
  jobs := (w.service.registry.jobs.filter (·.runId = id)).map (·.state)
  drawn := ((w.service.registry.jobsWhere (·.job.runId = id)).flatMap w.reports.drawn).length

/-- Some event wants the run tagged. -/
def tagDue (events : List LifecycleEvent) (id : String) : Bool :=
  events.any fun event => event.task?.any (·.1 = id)

/-- The run has finished, and some event said so. -/
def reportDue (engine : String → Option Run) (events : List LifecycleEvent) (id : String) : Bool :=
  (engine id).any (·.isFinished) && decide (.finished id ∈ events)

/-- What there should be for a run, given which events there were. -/
def due (engine : String → Option Run) (limits : TagLimits) (events : List LifecycleEvent)
    (id : String) : Remains where
  documents :=
    if tagDue events id then (engine id).toList.flatMap (TagDocument.undatedOf limits) else []
  jobs := if reportDue engine events id then [.done] else []
  drawn := if reportDue engine events id then 1 else 0

variable {engine : String → Option Run} {limits : TagLimits} {events events' : List LifecycleEvent}
  {id : String}

theorem tagDue_iff : tagDue events id = true ↔
    ∃ wantsReport, (id, wantsReport) ∈ events.filterMap (·.task?) := by
  rw [tagDue, List.any_eq_true]
  constructor
  · rintro ⟨event, hin, hany⟩
    obtain ⟨⟨id', wantsReport⟩, htask, hid⟩ := (Option.any_eq_true ..).mp hany
    cases of_decide_eq_true hid
    exact ⟨wantsReport, List.mem_filterMap.mpr ⟨event, hin, htask⟩⟩
  · rintro ⟨wantsReport, hin⟩
    obtain ⟨event, hin, htask⟩ := List.mem_filterMap.mp hin
    exact ⟨event, hin, by rw [htask]; exact decide_eq_true rfl⟩

/-- Only events that say that a run has finished want its report. -/
theorem finished_mem_iff : .finished id ∈ events ↔ (id, true) ∈ events.filterMap (·.task?) := by
  rw [List.mem_filterMap]
  constructor
  · exact fun hin => ⟨_, hin, rfl⟩
  · rintro ⟨event, hin, htask⟩
    cases event with
    | finished id' =>
      cases htask
      exact hin
    | stateChanged | started => cases htask

theorem reportDue_iff : reportDue engine events id = true ↔
    ∃ run, engine id = some run ∧ run.isFinished = true ∧ .finished id ∈ events := by
  rw [reportDue, Bool.and_eq_true, decide_eq_true_iff, Option.any_eq_true]
  constructor
  · rintro ⟨⟨run, hrun, hfin⟩, hin⟩
    exact ⟨run, hrun, hfin, hin⟩
  · rintro ⟨run, hrun, hfin, hin⟩
    exact ⟨⟨run, hrun, hfin⟩, hin⟩

theorem reportDue_congr (h : ∀ event, event ∈ events' ↔ event ∈ events) (id : String) :
    reportDue engine events' id = reportDue engine events id := by
  simp only [reportDue, h]

theorem due_congr (h : ∀ event, event ∈ events' ↔ event ∈ events) (id : String) :
    due engine limits events' id = due engine limits events id := by
  have htagging : tagDue events' id = tagDue events id := by
    rw [Bool.eq_iff_iff, tagDue, tagDue, List.any_eq_true, List.any_eq_true]
    simp only [h]
  rw [due, due, htagging, reportDue_congr h]

/-! ## When the host is down -/

section
variable [FileStore σ] [FileView σ] {w : Host σ} {places : Nat} {directory : String}

/-- Each event that wanted a task has had its document stored and its job registered. -/
theorem Delivers.carried_out (h : w.Delivers engine limits events places directory)
    (hd : w.stage = .down) {wantsReport : Bool}
    (hin : (id, wantsReport) ∈ events.filterMap (·.task?)) {run : Run}
    (hrun : engine id = some run) :
    (∃ now document, TagDocument.ofRun limits now run = .ok document ∧
      document ∈ w.acknowledged) ∧
    (wantsReport = true → run.isFinished = true →
      ∃ i, w.service.registry.trackedTask? run.id = some i) := by
  rw [← h.asked] at hin
  obtain ⟨task, hmem, htask⟩ := List.mem_map.mp hin
  obtain ⟨i, hi⟩ := List.mem_iff_getElem?.mp hmem
  have hended : w.service.eventEnded i = true := (h.orderly.ended_of_down hd).1 i
  have hdelivers := h.tasks i task hi
  obtain ⟨runId, wants, phase⟩ := task
  cases htask
  cases phase with
  | fetching =>
    rw [eventEnded, hi] at hended
    cases hended
  | ended =>
    cases hrun.symm.trans hdelivers
  | tagging call =>
    obtain ⟨run', now, document, hrun', hdoc, hcall, hjob⟩ := hdelivers
    cases hrun.symm.trans hrun'
    refine ⟨⟨now, document, hdoc, ?_⟩, hjob⟩
    rw [eventEnded, hi] at hended
    rw [Tagging.documents, List.getElem?_map] at hcall
    obtain ⟨⟨document', phase⟩, hc, rfl⟩ := Option.map_eq_some_iff.mp hcall
    have hcallEnded : w.service.callEnded call = true := hended
    rw [callEnded, Tagging.phase?, hc] at hcallEnded
    cases phase with
    | ended result => exact h.stored call document' result hc
    | waiting | writing | pausing | keeping => cases hcallEnded

/-- The store has the document of each run that was to be tagged. -/
theorem Delivers.documents_due (h : w.Delivers engine limits events places directory)
    (hengine : ∀ id run, engine id = some run → run.id = id) (hd : w.stage = .down)
    (access : StoreAccess) (id : String) :
    (w.remains access id).documents = (due engine limits events id).documents := by
  have hsource : ∀ document ∈ w.acknowledged, document.fields.operationId = id →
      ∃ run, engine id = some run ∧ tagDue events id = true ∧
        TagDocument.undatedOf limits run = [document.undated] := by
    intro document hack hid
    obtain ⟨run, now, wantsReport, hrun, hin, hdoc⟩ := h.sourced document (h.acknowledged _ hack)
    have hrunId : run.id = id := (TagDocument.of_ofRun hdoc).1.symm.trans hid
    rw [hrunId] at hrun hin
    exact ⟨run, hrun, tagDue_iff.mpr ⟨wantsReport, hin⟩, TagDocument.undated_of_ofRun hdoc⟩
  show ((access.held w.acknowledged).filter (·.fields.operationId = id)).map (·.undated) =
    if tagDue events id then (engine id).toList.flatMap (TagDocument.undatedOf limits) else []
  rw [StoreAccess.held_filter]
  cases hfind : w.acknowledged.find? (·.fields.operationId = id) with
  | some document =>
    obtain ⟨run, hrun, htagging, hdoc⟩ :=
      hsource document (List.mem_of_find?_eq_some hfind) (by simpa using List.find?_some hfind)
    rw [if_pos htagging, hrun]
    simp [hdoc]
  | none =>
    cases htagging : tagDue events id with
    | false => rfl
    | true =>
      cases hrun : engine id with
      | none => rfl
      | some run =>
        obtain ⟨wantsReport, hin⟩ := tagDue_iff.mp htagging
        obtain ⟨⟨now, document, hdoc, hack⟩, -⟩ := h.carried_out hd hin hrun
        have hid : document.fields.operationId = id :=
          (TagDocument.of_ofRun hdoc).1.trans (hengine id run hrun)
        exact absurd hid (by simpa using List.find?_eq_none.mp hfind document hack)

/-- It is a document that was built from the run. -/
theorem Delivers.document_due (h : w.Delivers engine limits events places directory)
    (hengine : ∀ id run, engine id = some run → run.id = id) (hd : w.stage = .down)
    (access : StoreAccess) {run : Run} (hrun : engine id = some run)
    (htag : tagDue events id = true) :
    ∃ now document, TagDocument.ofRun limits now run = .ok document ∧
      (w.remains access id).documents = [document.undated] := by
  obtain ⟨wantsReport, hin⟩ := tagDue_iff.mp htag
  obtain ⟨⟨now, document, hdoc, -⟩, -⟩ := h.carried_out hd hin hrun
  refine ⟨now, document, hdoc, (h.documents_due hengine hd access id).trans ?_⟩
  simp [due, htag, hrun, TagDocument.undated_of_ofRun hdoc]

/-- The runs that have a job are those whose report was to be made. -/
theorem Delivers.tracked_iff (h : w.Delivers engine limits events places directory)
    (hengine : ∀ id run, engine id = some run → run.id = id) (hd : w.stage = .down)
    (id : String) : (∃ i, w.service.registry.trackedTask? id = some i) ↔
      reportDue engine events id = true := by
  rw [reportDue_iff]
  constructor
  · rintro ⟨i, hi⟩
    obtain ⟨t, ht, hid⟩ := (h.reports.thrives.registered id i).mp hi
    obtain ⟨⟨hrun, hin⟩, hfin, hrunId⟩ := h.reports.thrives.runs i t ht
    rw [hrunId.symm.trans hid] at hrun hin
    exact ⟨t.run, hrun, hfin, finished_mem_iff.mpr hin⟩
  · rintro ⟨run, hrun, hfin, hin⟩
    have htracked := (h.carried_out hd (finished_mem_iff.mp hin) hrun).2 rfl hfin
    rwa [hengine id run hrun] at htracked

/-- The task of each job is over. -/
theorem Delivers.task_ended (h : w.Delivers engine limits events places directory)
    (hd : w.stage = .down) {i : Nat} {t : ReportTask}
    (ht : w.service.registry.tasks[i]? = some t) : t.phase = .ended :=
  (Registry.isEnded_iff ht).mp ((h.orderly.ended_of_down hd).2 i)

/-- The registry has one job for each run whose report was to be made; it is done, and the renderer
was called once. -/
theorem Delivers.jobs_due (h : w.Delivers engine limits events places directory)
    (hengine : ∀ id run, engine id = some run → run.id = id) (hapart : Registry.NamesApart σ)
    (hd : w.stage = .down) (access : StoreAccess) (id : String) :
    (w.remains access id).jobs = (due engine limits events id).jobs ∧
    (w.remains access id).drawn = (due engine limits events id).drawn := by
  have hjobs := h.reports.thrives.jobs_filter id
  have hplaces := h.reports.thrives.jobsWhere_run id
  have htracked := h.tracked_iff hengine hd id
  show (w.reports.registry.jobs.filter (·.runId = id)).map (·.state) =
      (if reportDue engine events id then [.done] else []) ∧
    ((w.reports.registry.jobsWhere (·.job.runId = id)).flatMap w.reports.drawn).length =
      if reportDue engine events id then 1 else 0
  rw [hjobs, hplaces]
  cases hi : w.reports.registry.trackedTask? id with
  | none =>
    have hno : reportDue engine events id = false := by
      refine Bool.eq_false_iff.mpr fun hyes => ?_
      obtain ⟨i, hi'⟩ := htracked.mpr hyes
      cases hi.symm.trans hi'
    rw [hno]
    exact ⟨rfl, rfl⟩
  | some i =>
    obtain ⟨t, ht, -⟩ := (h.reports.thrives.registered id i).mp hi
    obtain ⟨hdone, -, -, pdf, hdrawn, -⟩ := h.reports.done hapart ht (h.task_ended hd ht)
    have hjob : w.reports.registry.job? i = some t.job := by
      rw [Registry.job?, ht]
      rfl
    rw [htracked.mp ⟨i, hi⟩]
    simp [hjob, hdone, hdrawn]

theorem Delivers.remains_due (h : w.Delivers engine limits events places directory)
    (hengine : ∀ id run, engine id = some run → run.id = id) (hapart : Registry.NamesApart σ)
    (hd : w.stage = .down) (access : StoreAccess) (id : String) :
    w.remains access id = due engine limits events id := by
  obtain ⟨hjobs, hdrawn⟩ := h.jobs_due hengine hapart hd access id
  exact Remains.ext (h.documents_due hengine hd access id) hjobs hdrawn

/-- The files of a run's reports: if it is to have one, there is one, which is its job's output, and
otherwise none. -/
def Filed (w : Host σ) (directory id : String) : Bool → Prop
  | true => ∃ name pdf job, Registry.IsReportOf id name ∧
      w.service.registry.jobs.filter (·.runId = id) = [job] ∧
      job.output = some (Path.join directory name) ∧
      FileView.Shows (Path.join directory name) (some (.document pdf)) w.service.files ∧
      ∀ other, Registry.IsReportOf id other → other ≠ name →
        FileView.Shows (Path.join directory other) none w.service.files
  | false => ∀ name, Registry.IsReportOf id name →
      FileView.Shows (Path.join directory name) none w.service.files

theorem Delivers.filed (h : w.Delivers engine limits events places directory)
    (hengine : ∀ id run, engine id = some run → run.id = id) (hapart : Registry.NamesApart σ)
    (hd : w.stage = .down) {id : String} (hgood : RunId.wellFormed id = true) :
    w.Filed directory id (reportDue engine events id) := by
  have hbare : ∀ name, Registry.IsReportOf id name →
      (∀ (i : Nat) t, w.service.registry.trackedTask? id = some i →
        w.service.registry.tasks[i]? = some t → t.path ≠ Path.join directory name) →
      FileView.Shows (Path.join directory name) none w.service.files := by
    rintro name ⟨now, isPartial, rfl⟩ hother
    refine h.reports.bare hapart ⟨id, now, isPartial, hgood, rfl⟩ fun i t ht hpath => ?_
    -- Only the run's own job could have the name.
    obtain ⟨-, -, ⟨name, ⟨now', isPartial', rfl⟩, hname⟩, -⟩ :=
      h.reports.done hapart ht (h.task_ended hd ht)
    have hsame := Path.join_inj.mp (hname.symm.trans hpath)
    have hrun := ((Registry.fileName_inj (h.reports.wellFormed ht) hgood).mp hsame).1
    exact hother i t ((h.reports.thrives.registered id i).mpr ⟨t, ht, hrun⟩) ht hpath
  have htracked := h.tracked_iff hengine hd id
  cases hreporting : reportDue engine events id with
  | false =>
    intro name hname
    refine hbare name hname fun i t hi ht => ?_
    cases hreporting.symm.trans (htracked.mp ⟨i, hi⟩)
  | true =>
    obtain ⟨i, hi⟩ := htracked.mpr hreporting
    obtain ⟨t, ht, hid⟩ := (h.reports.thrives.registered id i).mp hi
    obtain ⟨-, hout, ⟨name, hname, hpath⟩, pdf, -, hshows⟩ :=
      h.reports.done hapart ht (h.task_ended hd ht)
    rw [hpath] at hout hshows
    refine ⟨name, pdf, t.job, hid ▸ hname, ?_, hout, hshows, fun other hother hne => ?_⟩
    · show w.reports.registry.jobs.filter (·.runId = id) = [t.job]
      rw [h.reports.thrives.jobs_filter, show w.reports.registry.trackedTask? id = some i from hi,
        Option.bind_some, Registry.job?, ht]
      rfl
    · refine hbare other hother fun j u hj hu hu' => ?_
      cases hi.symm.trans hj
      cases ht.symm.trans hu
      exact hne (Path.join_inj.mp (hu'.symm.trans hpath))

/-- **Events that come again do no harm.** Let the engine have one run for each id, and let nothing
go wrong. However often and in whatever order events came, once the host is down the store has one
document for each run that the engine has and an event wanted tagged, which is that of the run but
for its time; there is one job for each run that has finished and was said to, which is done, was
drawn once and has the run's only report; and there is nothing else. So a run that delivers the same
events, each of them once, leaves the same. -/
theorem redelivery_harmless (hapart : Registry.NamesApart σ)
    (hengine : ∀ id run, engine id = some run → run.id = id) (access : StoreAccess)
    (tagging : TagSettings) {breaker : Breaker} (hclosed : breaker.isOpen = false)
    (correlation : Option Correlation) (reports : ReportSettings) {files : σ}
    (hfiles : ∀ name, Registry.IsReportName name →
      FileView.Shows (Path.join reports.directory name) none files)
    {es : List (Event σ × Moment)}
    (hf : (new tagging breaker correlation reports files).favoured engine es = true)
    (hd : ((new tagging breaker correlation reports files).play es).stage = .down) :
    let start := new tagging breaker correlation reports files
    let w := start.play es
    (∀ id, w.remains access id = due engine tagging.limits (delivered es) id) ∧
    (∀ id run, engine id = some run → tagDue (delivered es) id = true →
      ∃ now document, TagDocument.ofRun tagging.limits now run = .ok document ∧
        (w.remains access id).documents = [document.undated]) ∧
    w.service.registry.partials = [] ∧
    (∀ id, RunId.wellFormed id = true →
      w.Filed reports.directory id (reportDue engine (delivered es) id)) ∧
    ∀ es', start.favoured engine es' = true → (start.play es').stage = .down →
      (∀ event, event ∈ delivered es' ↔ event ∈ delivered es) →
      (∀ id, (start.play es').remains access id = w.remains access id) ∧
      ∀ id, RunId.wellFormed id = true →
        (start.play es').Filed reports.directory id (reportDue engine (delivered es) id) := by
  intro start w
  have hplay : ∀ {es'}, start.favoured engine es' = true →
      (start.play es').Delivers engine tagging.limits (delivered es') (max reports.workers 1)
        reports.directory := fun hf' =>
    (delivers_new engine tagging hclosed correlation reports hfiles).play hengine hf'
  have hremains : ∀ {es'}, start.favoured engine es' = true → (start.play es').stage = .down →
      ∀ id, (start.play es').remains access id =
        due engine tagging.limits (delivered es') id := fun hf' hd' id =>
    (hplay hf').remains_due hengine hapart hd' access id
  refine ⟨hremains hf hd, fun id run hrun htag =>
      (hplay hf).document_due hengine hd access hrun htag, (hplay hf).reports.thrives.partials,
    fun id hgood => (hplay hf).filed hengine hapart hd hgood, fun es' hf' hd' hsame => ?_⟩
  refine ⟨fun id => ?_, fun id hgood => ?_⟩
  · rw [hremains hf' hd', due_congr hsame]
    exact (hremains hf hd id).symm
  · rw [← reportDue_congr hsame]
    exact (hplay hf').filed hengine hapart hd' hgood

end

/-! ## A run that is announced three times -/

section Thrice

open Registry.World (noonOf shortRun)

def knows (id : String) : Option Run := if id = "run-0001" then some (shortRun id) else none

def fresh : Host MemoryFiles :=
  new ⟨2, 30000, 3, TagLimits.standard, "kept"⟩ (.new 5 30000000000) none ⟨2, 30000, "out", ""⟩
    MemoryFiles.empty

def access : StoreAccess := ⟨"http://store", .none, "tags", "alerts", 100⟩

/-- Two events say that the run has finished and one that it has changed, and one is about a run
that the engine does not know. The report is being drawn when the last of them comes, their tasks
are answered out of order, and the host has begun to shut down by then. -/
def thrice : List (Event MemoryFiles × Moment) :=
  [.dispatch (.finished "run-0001"), .dispatch (.stateChanged "run-0001" none (some .finished)),
    .dispatch (.finished "run-0009"), .fetched 0 (.ok (shortRun "run-0001")) ⟨1⟩,
    .job 0 .begin, .job 0 (.work none), .dispatch (.finished "run-0001"), .shutDown, .shutDown,
    .fetched 3 (.ok (shortRun "run-0001")) ⟨2⟩, .fetched 2 (.error (.notFound "run-0009")) ⟨3⟩,
    .call 1 (.answered (.ok "run-0001")), .fetched 1 (.ok (shortRun "run-0001")) ⟨4⟩,
    .call 0 (.answered (.ok "run-0001")), .call 2 (.answered (.ok "run-0001")), .shutDown,
    .shutDown, .shutDown, .job 0 (.work none), .job 0 (.work none), .job 0 (.work none),
    .job 0 (.work none), .job 0 .finish, .shutDown].map fun e => (e, noonOf 0)

theorem knows_id (id : String) (run : Run) (h : knows id = some run) : run.id = id := by
  unfold knows at h
  split at h
  · cases h
    rfl
  · cases h

set_option maxRecDepth 8000 in
/-- One job and one document come of it. -/
theorem thrice_harmless :
    fresh.favoured knows thrice = true ∧ (fresh.play thrice).stage = .down ∧
    (fresh.play thrice).remains access "run-0001" =
      ⟨TagDocument.undatedOf TagLimits.standard (shortRun "run-0001"), [.done], 1⟩ ∧
    (fresh.play thrice).remains access "run-0009" = ⟨[], [], 0⟩ ∧
    (fresh.play thrice).Filed "out" "run-0001" true := by
  have hf : fresh.favoured knows thrice = true := rfl
  have hd : (fresh.play thrice).stage = .down := rfl
  have hgood : RunId.wellFormed "run-0001" = true := by decide +kernel
  have hdue : due knows TagLimits.standard (delivered thrice) "run-0001" =
      ⟨TagDocument.undatedOf TagLimits.standard (shortRun "run-0001"), [.done], 1⟩ := rfl
  obtain ⟨hremains, -, -, hfiled, -⟩ := redelivery_harmless Registry.namesApart_memory knows_id access
    ⟨2, 30000, 3, TagLimits.standard, "kept"⟩ rfl none ⟨2, 30000, "out", ""⟩ (fun _ _ => rfl) hf hd
  exact ⟨hf, hd, (hremains "run-0001").trans hdue, hremains "run-0009", hfiled "run-0001" hgood⟩

end Thrice
end Service.Host
end AfterAction
