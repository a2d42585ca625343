import AfterAction.Proofs.Fallback.Records
import AfterAction.Proofs.Report.Labels
import AfterAction.Proofs.Service.System
import AfterAction.Proofs.Service.World

/-!
# What the service keeps of a run id

A tag call begins with a document and a request with a job, and both take the run's id only after
looking at it. From then on nothing changes it, and outputs and records are named for it. `Guarded`
says so of the documents, the jobs and the calls to the file system, and every operation of the
service keeps it.
-/

namespace AfterAction

/-! ## Names of files -/

namespace Fallback

/-- The name of some record. -/
def IsRecordName (name : String) : Prop :=
  ∃ now runId suffix, RunId.wellFormed runId = true ∧ name = fileName now runId suffix

/-- The directory is made, and the record is written. -/
theorem calls_keep {σ : Type} [FileStore σ] (directory : String) (now : Instant)
    (suffix : UInt32) (d : TagDocument) (files : RecordedFiles σ) :
    ∀ call ∈ (keep directory now suffix d files).2.calls,
      call ∈ files.calls ∨ call = .createDirectories directory ∨
      ∃ content, call = .write (recordPath directory now suffix d) content := by
  intro call hmem
  obtain ⟨⟨kept, after⟩, hk⟩ : ∃ r, keep directory now suffix d files = r := ⟨_, rfl⟩
  rw [hk] at hmem
  cases keep_keeps hk with
  | noDirectory hm _ => exact ((RecordedFiles.mem_note hm).mp hmem).imp_right .inl
  | noRecord hm hw _ | record hm hw =>
    rcases (RecordedFiles.mem_note hw).mp hmem with hmade | hrecord
    · exact ((RecordedFiles.mem_note hm).mp hmade).imp_right .inl
    · exact .inr (.inr ⟨_, hrecord⟩)

end Fallback

/-- A file of the service: a fallback record or a report, named for a well-formed run id. -/
def OwnFile (fallbacks reports path : String) : Prop :=
  (∃ name, Fallback.IsRecordName name ∧ path = Path.join fallbacks name) ∨
  ∃ name, Registry.IsReportName name ∧ path = Path.join reports name

/-- The call makes one of the two directories, or writes or removes a file of the service. -/
def FileCall.Own (fallbacks reports : String) : FileCall → Prop
  | .createDirectories path => path = fallbacks ∨ path = reports
  | .write path _ | .remove path => OwnFile fallbacks reports path

variable {σ : Type} [FileStore σ]

/-! ## Documents and records -/

namespace Tagging

/-- Every call has the document of a well-formed run id. -/
structure Guarded (t : Tagging) (fallbacks : String) : Prop where
  directory : t.settings.fallbackDirectory = fallbacks
  documents : ∀ d ∈ t.documents, RunId.wellFormed d.fields.operationId = true

namespace World

variable {fallbacks reports : String}

omit [FileStore σ] in
theorem guarded_new (settings : TagSettings) (breaker : Breaker) :
    (Tagging.new settings breaker).Guarded settings.fallbackDirectory :=
  ⟨rfl, fun _ hd => absurd hd List.not_mem_nil⟩

theorem step_settings (w : World σ) (e : Event σ × Moment) :
    (w.step e).client.settings = w.client.settings :=
  step_induction (P := fun w' => w'.client.settings = w.client.settings)
    (fun _ _ _ _ h _ => h) (fun _ _ _ _ _ _ _ _ h _ _ => h) (fun _ _ h => h) rfl e

theorem OneMove.guarded {w : World σ} {e : Event σ × Moment} (hone : w.OneMove e)
    (h : w.client.Guarded fallbacks) : (w.step e).client.Guarded fallbacks where
  directory := by
    rw [step_settings]
    exact h.directory
  documents := by
    rw [hone.grows.documents, List.append_nil]
    exact h.documents

theorem guarded_start {w : World σ} {run : Run} {m : Moment} {document : TagDocument}
    (hd : TagDocument.ofRun w.client.settings.limits m.wall run = .ok document)
    (hgood : RunId.wellFormed run.id = true) (h : w.client.Guarded fallbacks) :
    (w.step (.start run, m)).client.Guarded fallbacks where
  directory := by
    rw [step_settings]
    exact h.directory
  documents := by
    rw [(grows_start hd).documents]
    intro d hmem
    rcases List.mem_append.mp hmem with hold | hnew
    · exact h.documents d hold
    · rw [List.mem_singleton.mp hnew, (TagDocument.of_ofRun hd).1]
      exact hgood

/-- The only calls are those that keep a document: for its directory, and for its record. -/
theorem OneMove.calls {w : World (RecordedFiles σ)} {e : Event (RecordedFiles σ) × Moment}
    (hone : w.OneMove e) (h : w.client.Guarded fallbacks)
    (hcalls : ∀ call ∈ w.files.calls, call.Own fallbacks reports) :
    ∀ call ∈ (w.step e).files.calls, call.Own fallbacks reports := by
  rcases hone with ⟨hs, -⟩ | ⟨i, document, p, x, p', b, hc, hm, hs, -⟩
  · rw [hs]
    exact hcalls
  · rw [hs]
    cases hm with
    | kept reason suffix kept after hkeep =>
      have hgood : RunId.wellFormed document.fields.operationId = true := by
        refine h.documents document ?_
        rw [Tagging.documents]
        exact List.mem_map_of_mem (List.mem_of_getElem? hc)
      intro call hmem
      have hfiles : (w.moved i (.fallback ⟨document, e.2.wall, suffix, w.files, kept, after⟩)
          (.keeping reason) (.ended (conclude i reason kept)) w.client.breaker).files =
          (Fallback.keep w.client.settings.fallbackDirectory e.2.wall suffix document
            w.files).2 := by
        rw [hkeep]
        rfl
      rw [hfiles, h.directory] at hmem
      rcases Fallback.calls_keep _ _ _ _ _ call hmem with hold | rfl | ⟨content, rfl⟩
      · exact hcalls call hold
      · exact .inl rfl
      · exact .inl ⟨_, ⟨_, _, _, hgood, rfl⟩, rfl⟩
    | _ => exact hcalls

end World
end Tagging

/-! ## Jobs and reports -/

namespace Registry

/-- Every job is one of a well-formed run id, and its output is named for it. -/
structure Guarded (r : Registry) (reports : String) : Prop where
  directory : r.settings.directory = reports
  stands : ∀ (i : Nat) t, r.tasks[i]? = some t → Standing t
  tracked : ∀ entry ∈ r.tracked, RunId.wellFormed entry.1 = true
  labels : ∀ l ∈ r.labels, RunId.wellFormed l.runId = true ∧
    (l.path ≠ "" → ∃ name, IsReportName name ∧ l.path = Path.join reports name)

/-- What is called for a task: its directory is made, or its output is written or removed. -/
def CalledFor (r : Registry) (t : ReportTask) (call : FileCall) : Prop :=
  call = .createDirectories r.settings.directory ∨
  t.path ≠ "" ∧ ((∃ content, call = .write t.path content) ∨ call = .remove t.path)

section
variable {r : Registry} {m : Moment} {i : Nat} {files files' : RecordedFiles σ} {t t' : ReportTask}
  {x : Option Happening} {pool : Slots Nat}

/-- A worker makes at most one call in a step. -/
theorem Work.calls {v v' : Worker} (hw : Work r t m files v x v' files') (hne : t.path ≠ "") :
    ∀ call ∈ files'.calls, call ∈ files.calls ∨ CalledFor r t call := by
  intro call hmem
  cases hw with
  | prepared _ _ hmade | unprepared _ _ _ _ hmade _ =>
    exact ((RecordedFiles.mem_note hmade).mp hmem).imp_right .inl
  | wrote pdf _ hwrite | unwritten pdf _ _ _ hwrite _ =>
    exact ((RecordedFiles.mem_note hwrite).mp hmem).imp_right fun h => .inr ⟨hne, .inl ⟨_, h⟩⟩
  | removed _ _ _ hremove =>
    exact ((RecordedFiles.mem_note hremove).mp hmem).imp_right fun h => .inr ⟨hne, .inr h⟩
  | _ => exact .inl hmem

theorem Move.calls (hm : Move r m i files t x t' pool files') (hs : Standing t) :
    ∀ call ∈ files'.calls, call ∈ files.calls ∨ CalledFor r t call := by
  intro call hmem
  cases hm with
  | discarded answer _ hp hremove =>
    rw [Standing, hp] at hs
    exact ((RecordedFiles.mem_note hremove).mp hmem).imp_right fun h => .inr ⟨hs.1, .inr h⟩
  | worked v v' _ _ hv hw => exact hw.calls (hs.path_ne_empty hv hw) call hmem
  | _ => exact .inl hmem

end

namespace World

variable {fallbacks reports : String} {w : World σ}

omit [FileStore σ] in
theorem guarded_new (settings : ReportSettings) :
    (Registry.new settings).Guarded settings.directory where
  directory := rfl
  stands _ _ h := by cases h
  tracked _ h := absurd h List.not_mem_nil
  labels _ h := absurd h List.not_mem_nil

/-- Only a request registers a job, and it has looked at the run id. -/
theorem step_tracked (e : Event σ × Moment)
    (h : ∀ entry ∈ w.registry.tracked, RunId.wellFormed entry.1 = true) :
    ∀ entry ∈ (w.step e).registry.tracked, RunId.wellFormed entry.1 = true := by
  refine step_induction
    (P := fun w => ∀ entry ∈ w.registry.tracked, RunId.wellFormed entry.1 = true) e
    (fun w run id group h hgood _ _ _ entry hmem => ?_) (fun _ _ _ _ _ h _ _ => h)
    (fun _ _ _ _ _ _ _ _ h _ _ => h) (fun _ _ h => h) (fun _ _ _ h => h) h
  rcases Table.mem_put hmem with hold | hnew
  · exact h entry hold
  · rw [hnew]
    exact hgood

theorem guarded_step (h : w.registry.Guarded reports) (e : Event σ × Moment) :
    (w.step e).registry.Guarded reports where
  directory := by
    rw [Registry.World.step_settings]
    exact h.directory
  stands := Stands.step h.stands e
  tracked := step_tracked e h.tracked
  labels := by
    intro l hl
    obtain ⟨i, hi⟩ := List.mem_iff_getElem?.mp hl
    rcases step_label h.stands e hi with hold | ⟨-, hgood, hempty⟩ | ⟨l₀, hl₀, -, rfl⟩
    · exact h.labels l (List.mem_of_getElem? hold)
    · exact ⟨hgood, fun hne => absurd hempty hne⟩
    · obtain ⟨hgood, -⟩ := h.labels l₀ (List.mem_of_getElem? hl₀)
      refine ⟨hgood, fun _ =>
        ⟨fileName l₀.runId e.2.wall l₀.isPartial, ⟨_, _, _, hgood, rfl⟩, ?_⟩⟩
      rw [← h.directory]
      rfl

theorem OneMove.calls {w : World (RecordedFiles σ)} {e : Event (RecordedFiles σ) × Moment}
    (hone : w.OneMove e) (h : w.registry.Guarded reports)
    (hcalls : ∀ call ∈ w.files.calls, call.Own fallbacks reports) :
    ∀ call ∈ (w.step e).files.calls, call.Own fallbacks reports := by
  rcases hone with hs | ⟨i, t, x, t', pool, correlation, files, hc, hm, hs⟩
  · rw [hs]
    exact hcalls
  · rw [hs]
    intro call hmem
    have hlabel : t.label ∈ w.registry.labels := by
      rw [labels]
      exact List.mem_map_of_mem (List.mem_of_getElem? hc)
    obtain ⟨-, hnamed⟩ := h.labels t.label hlabel
    rcases hm.calls (h.stands i t hc) call hmem with hold | rfl | ⟨hne, ⟨content, rfl⟩ | rfl⟩
    · exact hcalls call hold
    · exact .inr h.directory
    · exact .inr (hnamed hne)
    · exact .inr (hnamed hne)

end World
end Registry

/-! ## The whole service -/

namespace Service

/-- What was let in is well-formed, and so is what is written of it. -/
structure Guarded (fallbacks reports : String) (s : Service (RecordedFiles σ)) : Prop where
  tagging : s.tagging.Guarded fallbacks
  registry : s.registry.Guarded reports
  files : ∀ call ∈ s.files.calls, call.Own fallbacks reports

variable {fallbacks reports : String} {s s' : Service (RecordedFiles σ)} {m : Moment}

namespace Guarded

omit [FileStore σ] in
/-- Tasks, correlation and groups have no part in it. -/
theorem same (h : Guarded fallbacks reports s) (htagging : s'.tagging = s.tagging)
    (hregistry : s'.registry = s.registry) (hfiles : s'.files.calls = s.files.calls) :
    Guarded fallbacks reports s' where
  tagging := htagging ▸ h.tagging
  registry := hregistry ▸ h.registry
  files := hfiles ▸ h.files

omit [FileStore σ] in
theorem spawn (h : Guarded fallbacks reports s) (runId : RunId) (wantsReport : Bool) :
    Guarded fallbacks reports (s.spawn runId wantsReport).2 := by
  unfold Service.spawn
  split
  · exact h
  · exact h.same rfl rfl rfl

theorem startTag (h : Guarded fallbacks reports s) (run : Run) (m : Moment) :
    Guarded fallbacks reports (s.startTag run m).2 := by
  rcases s.startTag_cases run m with ⟨-, hs⟩ | ⟨hgood, document, hd, hs⟩
  · rw [hs]
    exact h
  · rw [hs]
    exact ⟨Tagging.World.guarded_start hd hgood h.tagging, h.registry, h.files⟩

/-- What the jobs do leaves the tag calls alone. -/
theorem reported (h : Guarded fallbacks reports s) {e : Registry.Event (RecordedFiles σ) × Moment}
    (hcalls : ∀ call ∈ (s.reports.step e).files.calls, call.Own fallbacks reports)
    (hregistry : s'.registry = (s.reports.step e).registry)
    (hfiles : s'.files = (s.reports.step e).files) (htagging : s'.tagging = s.tagging) :
    Guarded fallbacks reports s' where
  tagging := htagging ▸ h.tagging
  registry := hregistry ▸ Registry.World.guarded_step h.registry e
  files := hfiles ▸ hcalls

theorem callStep (h : Guarded fallbacks reports s) (i : Nat) (m : Moment) (step : CallStep) :
    Guarded fallbacks reports (s.callStep i m step) := by
  obtain ⟨htagging, hfiles, hregistry⟩ := s.tags_callStep i m step
  have hone := step.oneMove s.tags i m
  refine ⟨?_, hregistry ▸ h.registry, ?_⟩
  · rw [htagging]
    exact hone.guarded h.tagging
  · rw [hfiles]
    exact hone.calls h.tagging h.files

theorem jobStep (h : Guarded fallbacks reports s) (i : Nat) (m : Moment) (step : JobStep) :
    Guarded fallbacks reports (s.jobStep i m step) := by
  obtain ⟨hregistry, hfiles, htagging⟩ := s.reports_jobStep i m step
  have hone := step.oneMove s.reports i m
  exact h.reported (hone.calls h.registry h.files) hregistry hfiles htagging

end Guarded

namespace System

omit [FileStore σ] in
theorem guarded_new (settings : TagSettings) (breaker : Breaker)
    (correlation : Option Correlation) (reports : ReportSettings) (files : σ) :
    Guarded settings.fallbackDirectory reports.directory
      (new settings breaker correlation reports files).service where
  tagging := Tagging.World.guarded_new settings breaker
  registry := Registry.World.guarded_new reports
  files _ h := absurd h List.not_mem_nil

theorem stable_guarded (fallbacks reports : String) :
    Stable (Guarded fallbacks reports : Service (RecordedFiles σ) → Prop) where
  spawn _ runId wantsReport h := h.spawn runId wantsReport
  setEvent _ _ _ h := h.same rfl rfl rfl
  startTag _ run m h := h.startTag run m
  requestReport _ run id m h := h.reported (e := (.request run id, m)) h.files rfl rfl rfl
  requestPartial _ run id m h :=
    h.reported (e := (.requestPartial run id, m)) h.files rfl rfl rfl
  callStep _ i m step h := h.callStep i m step
  jobStep _ i m step h := h.jobStep i m step
  correlation _ _ h := h.same rfl rfl rfl
  eventGroup _ _ h := h.same rfl rfl rfl
  reportGroup s _ h := by
    obtain ⟨hdirectory, hstands, htracked, hlabels⟩ := h.registry
    exact ⟨h.tagging, ⟨hdirectory, hstands, htracked, hlabels⟩, h.files⟩
  elsewhere _ _ h := h.same rfl rfl rfl

end System
end Service
end AfterAction
