import AfterAction.Proofs.Files.Calls
import AfterAction.Proofs.Report.Notice
import AfterAction.Proofs.Report.Smooth

/-!
# Partial and whole reports

A job is called partial when it is made, by a look at its run, and its worker draws the same run
later, by itself. A task never gets another run, so the two agree for as long as it lasts (`Truthful`):
what its worker draws, what it writes, and what its file is called all follow from the run. Of the
two registers one takes finished runs only, and the other is as good as those who ask for it
(`Divided`).
-/

namespace AfterAction

/-- A document of the run. -/
def Pdf.DrawnFor (company : String) (run : Run) (pdf : Pdf) : Prop :=
  ∃ detections now, pdf = Pdf.render company run detections now

namespace Registry

/-- The document that a worker has in its hands. -/
def Worker.document? : Worker → Option Pdf
  | .checking pdf | .preparing pdf | .writing pdf => some pdf
  | _ => none

/-- The job is called partial exactly if its run has not finished, and its worker draws that run. -/
structure Truthful (company : String) (t : ReportTask) : Prop where
  kind : t.job.isPartial = !t.run.isFinished
  drawn : ∀ v pdf, t.worker = some v → Worker.document? v = some pdf →
    Pdf.DrawnFor company t.run pdf

variable {σ : Type} [FileStore σ] {r : Registry} {m : Moment} {i : Nat} {t t' : ReportTask}
  {x : Option Happening} {pool : Slots Nat}

/-! ## What a task keeps -/

section
variable {files files' : σ} {company : String}

/-- A worker goes on with the document it has, or draws one. -/
theorem Work.drawnFor {v v' : Worker} (hw : Work r t m files v x v' files')
    (h : ∀ pdf, Worker.document? v = some pdf → Pdf.DrawnFor r.settings.company t.run pdf) (pdf : Pdf)
    (hpdf : Worker.document? v' = some pdf) : Pdf.DrawnFor r.settings.company t.run pdf := by
  cases hw with
  | drew detections pdf' hdrawn =>
    cases hpdf
    exact ⟨detections, m.wall, hdrawn⟩
  | goesAhead pdf' _ => exact h pdf hpdf
  | prepared pdf' _ => exact h pdf hpdf
  | _ => cases hpdf

theorem Truthful.move (h : Truthful r.settings.company t)
    (hm : Move r m i files t x t' pool files') : Truthful r.settings.company t' := by
  cases hm with
  | enlisted | noticed =>
    refine ⟨h.kind, fun v pdf hv hpdf => ?_⟩
    cases hv
    cases hpdf
  | worked v v' _ _ hv hw =>
    refine ⟨h.kind, fun v₁ pdf hv₁ hpdf => ?_⟩
    cases hv₁
    exact hw.drawnFor (fun pdf => h.drawn v pdf hv) pdf hpdf
  | _ => exact ⟨h.kind, h.drawn⟩

omit [FileStore σ] in
theorem truthful_newTask (r : Registry) {run : Run} {job : ReportJob} (m : Moment)
    (h : job.isPartial = !run.isFinished) : Truthful company (newTask r run job m) := by
  unfold newTask
  split
  · exact ⟨h, nofun⟩
  · exact ⟨h, nofun⟩

end

/-! ## What is written -/

/-- A document that was written is one of a task's run, and went to that task's output. -/
def Written (r : Registry) (path : String) (pdf : Pdf) : Prop :=
  ∃ (i : Nat) (t : ReportTask), r.tasks[i]? = some t ∧ t.path = path ∧ path ≠ "" ∧
    Pdf.DrawnFor r.settings.company t.run pdf

section
variable {files files' : RecordedFiles σ}

/-- The only documents that are written are in a worker's hands. -/
theorem Move.documents (hm : Move r m i files t x t' pool files') (hs : Standing t) {path : String}
    {pdf : Pdf} (h : .write path (.document pdf) ∈ files'.calls) :
    .write path (.document pdf) ∈ files.calls ∨
    t.path = path ∧ path ≠ "" ∧ ∃ v, t.worker = some v ∧ Worker.document? v = some pdf := by
  cases hm with
  | discarded answer _ _ hremove =>
    refine ((RecordedFiles.mem_note hremove).mp h).imp_right fun he => ?_
    cases he
  | worked v v' _ _ hv hw =>
    have hne := hs.path_ne_empty hv hw
    cases hw with
    | prepared _ _ hmade | unprepared _ _ _ _ hmade _ =>
      refine ((RecordedFiles.mem_note hmade).mp h).imp_right fun he => ?_
      cases he
    | wrote pdf' _ hwrite | unwritten pdf' _ _ _ hwrite _ =>
      refine ((RecordedFiles.mem_note hwrite).mp h).imp_right fun he => ?_
      cases he
      exact ⟨rfl, hne, _, hv, rfl⟩
    | removed _ _ _ hremove =>
      refine ((RecordedFiles.mem_note hremove).mp h).imp_right fun he => ?_
      cases he
    | _ => exact .inl h
  | _ => exact .inl h

end

namespace World

variable {w : World σ}

omit [FileStore σ] in
theorem written_entered {path : String} {pdf : Pdf} (h : w.registry.Written path pdf)
    (t : ReportTask) (tracked : List (String × Nat)) (partials : List Nat) (group : TaskGroup Nat)
    (x : Option Happening) : (w.entered t tracked partials group x).registry.Written path pdf := by
  obtain ⟨j, u, hj, hpath, hne, hdrawn⟩ := h
  refine ⟨j, u, ?_, hpath, hne, hdrawn⟩
  rw [entered_tasks, if_neg (Nat.ne_of_lt (List.getElem?_eq_some_iff.mp hj).1)]
  exact hj

/-- A task that has decided on its output keeps it, and its run anyway. -/
theorem written_moved {path : String} {pdf : Pdf} (h : w.registry.Written path pdf)
    (hs : w.Stands) (hc : w.registry.tasks[i]? = some t) {files files' : σ}
    (hm : Move w.registry m i files t x t' pool files') (correlation : Option Correlation) :
    (w.moved i x t' pool correlation files').registry.Written path pdf := by
  obtain ⟨j, u, hj, hpath, hne, hdrawn⟩ := h
  by_cases hij : i = j
  · subst hij
    cases hc.symm.trans hj
    have hkept := hm.path_eq (hs i t hc) (hpath ▸ hne)
    have hset := moved_tasks hc x t' pool correlation files' i
    rw [if_pos rfl] at hset
    exact ⟨i, t', hset, hkept.trans hpath, hne, hm.run_eq ▸ hdrawn⟩
  · refine ⟨j, u, ?_, hpath, hne, hdrawn⟩
    rw [moved_tasks hc, if_neg hij]
    exact hj

/-- Every task keeps to its run, and nothing but the documents of runs was written as one. -/
structure Faithful (w : World (RecordedFiles σ)) : Prop where
  stands : w.Stands
  truthful : ∀ (i : Nat) t, w.registry.tasks[i]? = some t → Truthful w.registry.settings.company t
  written : ∀ path pdf, .write path (.document pdf) ∈ w.files.calls → w.registry.Written path pdf

omit [FileStore σ] in
theorem faithful_new (settings : ReportSettings) (correlation : Option Correlation) (files : σ) :
    (new settings correlation (RecordedFiles.fresh files)).Faithful where
  stands := stands_new settings correlation _
  truthful i t h := by simp [new, Registry.new] at h
  written path pdf h := absurd h List.not_mem_nil

section
variable {w w' : World (RecordedFiles σ)}

omit [FileStore σ] in
/-- Correlation and log have no part in it, and neither have other files. -/
theorem Faithful.same (h : w.Faithful) (hregistry : w'.registry = w.registry)
    (hfiles : ∀ path pdf, .write path (.document pdf) ∈ w'.files.calls →
      .write path (.document pdf) ∈ w.files.calls) : w'.Faithful where
  stands := by
    rw [Stands, hregistry]
    exact h.stands
  truthful := by
    rw [hregistry]
    exact h.truthful
  written path pdf hcall := by
    rw [hregistry]
    exact h.written path pdf (hfiles path pdf hcall)

omit [FileStore σ] in
theorem Faithful.entered (h : w.Faithful) {run : Run} {job : ReportJob} (m : Moment)
    (hqueued : job.state = .queued) (hkind : job.isPartial = !run.isFinished)
    (tracked : List (String × Nat)) (partials : List Nat) (group : TaskGroup Nat)
    (x : Option Happening) :
    (w.entered (newTask w.registry run job m) tracked partials group x).Faithful where
  stands := h.stands.entered (standing_newTask w.registry run job m hqueued) tracked partials group x
  truthful j u hu := by
    rw [entered_tasks] at hu
    split at hu
    · cases hu
      exact truthful_newTask w.registry m hkind
    · exact h.truthful j u hu
  written path pdf hcall := written_entered (h.written path pdf hcall) _ _ _ _ _

theorem Faithful.moved (h : w.Faithful) {files' : RecordedFiles σ}
    (hc : w.registry.tasks[i]? = some t)
    (hm : Move w.registry m i w.files t x t' pool files') (correlation : Option Correlation) :
    (w.moved i x t' pool correlation files').Faithful where
  stands j u hu := by
    rw [moved_tasks hc] at hu
    split at hu
    · cases hu
      exact (h.stands i t hc).move hm
    · exact h.stands j u hu
  truthful j u hu := by
    rw [moved_tasks hc] at hu
    split at hu
    · cases hu
      exact (h.truthful i t hc).move hm
    · exact h.truthful j u hu
  written path pdf hcall := by
    refine written_moved ?_ h.stands hc hm correlation
    rcases hm.documents (h.stands i t hc) hcall with hold | ⟨hpath, hne, v, hv, hpdf⟩
    · exact h.written path pdf hold
    · exact ⟨i, t, hc, hpath, hne, (h.truthful i t hc).drawn v pdf hv hpdf⟩

/-- Every event keeps it that leaves the record of the calls alone. -/
theorem Faithful.step (h : w.Faithful) (e : Event (RecordedFiles σ) × Moment)
    (he : ∀ change, e.1 ≠ .elsewhere change) : (w.step e).Faithful := by
  refine step_induction (P := Faithful) e (fun w run id group h hgood hfin hfree hc => ?_)
    (fun w run id partials group h hgood hc => h.entered e.2 rfl rfl _ _ _ _)
    (fun w i t x t' pool correlation files h hc hm => h.moved hc hm correlation)
    (fun w group h => ⟨h.stands, h.truthful, h.written⟩) (fun w change hchange _ => ?_) h
  · refine h.entered e.2 rfl ?_ _ _ _ _
    rw [hfin]
    rfl
  · exact absurd hchange (he change)

end
end World

/-! ## The marks -/

/-- Whether the job is called partial follows from its run, and the document that its worker has in
hands and the file that its report goes to are marked accordingly. -/
structure Marked (t : ReportTask) : Prop where
  kind : t.job.isPartial = true ↔ t.run.state ≠ .finished
  document : ∀ v pdf, t.worker = some v → Worker.document? v = some pdf →
    (pdf.CarriesNotice ↔ t.job.isPartial = true)
  path : t.path ≠ "" → (EndsPartial t.path ↔ t.job.isPartial = true)
  output : t.job.state = .done → ∃ path, t.job.output = some path ∧
    (EndsPartial path ↔ t.job.isPartial = true)

omit [FileStore σ] in
theorem Truthful.partial_iff {company : String} (h : Truthful company t) :
    t.job.isPartial = true ↔ t.run.state ≠ .finished := by
  rw [h.kind]
  simp [Run.isFinished]

omit [FileStore σ] in
theorem Truthful.carriesNotice_iff {company : String} (h : Truthful company t) {pdf : Pdf}
    (hdrawn : Pdf.DrawnFor company t.run pdf) : pdf.CarriesNotice ↔ t.job.isPartial = true := by
  obtain ⟨detections, now, rfl⟩ := hdrawn
  rw [Pdf.carriesNotice_render, h.kind, Bool.not_eq_true']

omit [FileStore σ] in
theorem World.Named.endsPartial_iff {w : World σ} {directory : String} (h : w.Named directory)
    (ht : w.registry.tasks[i]? = some t) (hne : t.path ≠ "") :
    EndsPartial t.path ↔ t.job.isPartial = true := by
  obtain ⟨now, hpath⟩ := (h.2 i t.label (World.label?_of_task ht)).2 hne
  have hnamed : t.path = Path.join directory (fileName t.job.runId now t.job.isPartial) := hpath
  rw [hnamed]
  exact endsPartial_path directory t.job.runId now t.job.isPartial

omit [FileStore σ] in
theorem World.Faithful.marked {w : World (RecordedFiles σ)} (h : w.Faithful) {directory : String}
    (hnamed : w.Named directory) (ht : w.registry.tasks[i]? = some t) : Marked t := by
  have htruthful := h.truthful i t ht
  refine ⟨htruthful.partial_iff, ?_, hnamed.endsPartial_iff ht, ?_⟩
  · intro v pdf hv hpdf
    exact htruthful.carriesNotice_iff (htruthful.drawn v pdf hv hpdf)
  · intro hdone
    obtain ⟨hout, hne, -, -⟩ := (h.stands i t ht).of_done hdone
    exact ⟨t.path, hout, hnamed.endsPartial_iff ht hne⟩

/-! ## The two registers -/

/-- Each register has jobs of its own kind. -/
structure Divided (r : Registry) : Prop where
  tracked : ∀ entry ∈ r.tracked, ∃ t, r.tasks[entry.2]? = some t ∧ t.run.isFinished = true
  partials : ∀ i ∈ r.partials, ∃ t, r.tasks[i]? = some t ∧ t.run.isFinished = false

omit [FileStore σ] in
theorem divided_new (settings : ReportSettings) : (Registry.new settings).Divided where
  tracked _ h := absurd h List.not_mem_nil
  partials _ h := absurd h List.not_mem_nil

omit [FileStore σ] in
theorem newTask_run (r : Registry) (run : Run) (job : ReportJob) (m : Moment) :
    (newTask r run job m).run = run := by
  unfold newTask
  split <;> rfl

omit [FileStore σ] in
/-- What a partial request leaves in its register: less, and the new job. -/
theorem partials_requestPartial (run : Run) (id : JobId) (m : Moment)
    (h : i ∈ (r.requestPartial run id m).2.partials) : i ∈ r.partials ∨ i = r.tasks.length := by
  rcases requestPartial_cases r run id m with ⟨-, hr⟩ | ⟨hgood, -⟩
  · rw [hr] at h
    exact .inl h
  · rw [partials_of_requestPartial r id m hgood] at h
    rcases List.mem_append.mp h with hold | hnew
    · exact .inl (List.mem_of_mem_filter hold)
    · exact .inr (List.mem_singleton.mp hnew)

namespace Divided

omit [FileStore σ] in
theorem entered (h : r.Divided) {t : ReportTask} {tracked : List (String × Nat)}
    {partials : List Nat} (group : TaskGroup Nat)
    (htracked : ∀ entry ∈ tracked, entry ∈ r.tracked ∨
      entry.2 = r.tasks.length ∧ t.run.isFinished = true)
    (hpartials : ∀ i ∈ partials, i ∈ r.partials ∨
      i = r.tasks.length ∧ t.run.isFinished = false) :
    (r.entered t tracked partials group).Divided := by
  have hold : ∀ {i : Nat} {u : ReportTask}, r.tasks[i]? = some u →
      (r.entered t tracked partials group).tasks[i]? = some u := by
    intro i u hu
    exact (List.getElem?_append_left (List.getElem?_eq_some_iff.mp hu).1).trans hu
  have hnew : (r.entered t tracked partials group).tasks[r.tasks.length]? = some t :=
    List.getElem?_concat_length
  constructor
  · intro entry hentry
    rcases htracked entry hentry with hmem | ⟨hi, hfin⟩
    · obtain ⟨u, hu, hfin⟩ := h.tracked entry hmem
      exact ⟨u, hold hu, hfin⟩
    · exact ⟨t, hi ▸ hnew, hfin⟩
  · intro i hi
    rcases hpartials i hi with hmem | ⟨rfl, hfin⟩
    · obtain ⟨u, hu, hfin⟩ := h.partials i hmem
      exact ⟨u, hold hu, hfin⟩
    · exact ⟨t, hnew, hfin⟩

/-- No task gets another run, and no move touches the registers. -/
theorem oneMove {w : World σ} {e : Event σ × Moment} (h : w.registry.Divided)
    (hone : w.OneMove e) : (w.step e).registry.Divided := by
  rcases hone with hs | ⟨i, t, x, t', pool, correlation, files, hc, hm, hs⟩
  · rw [hs]
    exact h
  · rw [hs]
    have hkept : ∀ {j : Nat} {u : ReportTask} {fin : Bool}, w.registry.tasks[j]? = some u →
        u.run.isFinished = fin → ∃ u', (w.moved i x t' pool correlation files).registry.tasks[j]? =
          some u' ∧ u'.run.isFinished = fin := by
      intro j u fin hu hfin
      rw [World.moved_tasks hc]
      by_cases hij : i = j
      · subst hij
        cases hc.symm.trans hu
        exact ⟨t', if_pos rfl, by rw [hm.run_eq]; exact hfin⟩
      · exact ⟨u, by rw [if_neg hij]; exact hu, hfin⟩
    constructor
    · intro entry hentry
      obtain ⟨u, hu, hfin⟩ := h.tracked entry hentry
      exact hkept hu hfin
    · intro j hj
      obtain ⟨u, hu, hfin⟩ := h.partials j hj
      exact hkept hu hfin

/-- As long as whoever asks for a partial report has seen that the run has not finished. -/
theorem step {w : World σ} (h : w.registry.Divided) (e : Event σ × Moment)
    (he : ∀ run id, e.1 = .requestPartial run id → run.isFinished = false) :
    (w.step e).registry.Divided := by
  obtain ⟨e, m⟩ := e
  cases e with
  | request run id =>
    rcases World.step_request w run id m with ⟨hs, -⟩ | ⟨group, -, hfin, -, -, hs⟩
    · rw [hs]
      exact h
    · rw [hs]
      refine h.entered group (fun entry hentry => ?_) (fun i hi => .inl hi)
      refine (Table.mem_put hentry).imp_right fun hnew => ?_
      rw [hnew, newTask_run]
      exact ⟨rfl, hfin⟩
  | requestPartial run id =>
    have hfrom := fun i => partials_requestPartial (r := w.registry) (i := i) run id m
    rcases World.step_requestPartial w run id m with hs | ⟨partials, group, -, -, hs⟩
    · rw [hs]
      exact h
    · have hpartials : (w.registry.requestPartial run id m).2.partials = partials :=
        congrArg (fun w : World σ => w.registry.partials) hs
      rw [hs]
      refine h.entered group (fun entry hentry => .inl hentry) (fun i hi => ?_)
      refine (hfrom i (hpartials ▸ hi)).imp_right fun hnew => ?_
      rw [newTask_run]
      exact ⟨hnew, he run id rfl⟩
  | begin i => exact h.oneMove (World.oneMove_begin w i m)
  | answered i answer => exact h.oneMove (World.oneMove_answered w i answer m)
  | queryExpired i => exact h.oneMove (World.oneMove_queryExpired w i m)
  | notice i => exact h.oneMove (World.oneMove_notice w i m)
  | expire i => exact h.oneMove (World.oneMove_expire w i m)
  | discard i => exact h.oneMove (World.oneMove_discard w i m)
  | mark i => exact h.oneMove (World.oneMove_mark w i m)
  | finish i => exact h.oneMove (World.oneMove_finish w i m)
  | work i trouble => exact h.oneMove (World.oneMove_work w i trouble m)
  | close | drain | elsewhere => exact ⟨h.tracked, h.partials⟩

end Divided
end Registry
end AfterAction
