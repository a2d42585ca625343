import AfterAction.Files.Memory
import AfterAction.Proofs.Fallback.Records
import AfterAction.Proofs.Report.Partials
import AfterAction.Proofs.Service.Host

/-!
# Partial reports of the service

Whether a report is partial is decided four times and from the run alone: by the interface, which
asks for a partial report only where the run has not finished, by the registry, which asks no other
job of a run that has, and by whoever draws the document and names its file. What the jobs make of it
holds whoever asks for reports (`stable_faithful`). What the registers hold takes the interface as
well: all that the report jobs see of a step is one event of theirs or none (`registry_step`), and
through the interface no partial report of a finished run is among them.
-/

namespace AfterAction

variable {σ : Type} [FileStore σ]

/-- A record is no document. -/
theorem Fallback.documents_keep {directory : String} {now : Instant} {suffix : UInt32}
    {d : TagDocument} {files : RecordedFiles σ} {path : String} {pdf : Pdf}
    (h : .write path (.document pdf) ∈ (keep directory now suffix d files).2.calls) :
    .write path (.document pdf) ∈ files.calls := by
  have hmade : ∀ {answer : FileAnswer} {made : RecordedFiles σ},
      FileStore.createDirectories directory files = (answer, made) →
      .write path (.document pdf) ∈ made.calls → .write path (.document pdf) ∈ files.calls := by
    intro answer made hm hcall
    rcases (RecordedFiles.mem_note hm).mp hcall with hold | he
    · exact hold
    · cases he
  obtain ⟨⟨kept, after⟩, hk⟩ : ∃ r, keep directory now suffix d files = r := ⟨_, rfl⟩
  rw [hk] at h
  cases keep_keeps hk with
  | noDirectory hm _ => exact hmade hm h
  | noRecord hm hw _ | record hm hw =>
    rcases (RecordedFiles.mem_note hw).mp h with hold | he
    · exact hmade hm hold
    · cases he

namespace Service

theorem documents_callStep {s : Service (RecordedFiles σ)} {i : Nat} {m : Moment} {step : CallStep}
    {path : String} {pdf : Pdf}
    (h : .write path (.document pdf) ∈ (s.callStep i m step).files.calls) :
    .write path (.document pdf) ∈ s.files.calls := by
  cases step with
  | keep suffix =>
    simp only [callStep, keep, Tagging.keep] at h
    split at h
    · exact Fallback.documents_keep h
    · exact h
  | _ => exact h

namespace System

/-! ## What the jobs make of a run -/

/-- The jobs keep to their runs, and their outputs are named for them. -/
def Faithful (directory : String) (s : Service (RecordedFiles σ)) : Prop :=
  s.reports.Faithful ∧ s.reports.Named directory

variable {directory : String}

omit [FileStore σ] in
theorem Faithful.same {s s' : Service (RecordedFiles σ)} (h : Faithful directory s)
    (hregistry : s'.registry = s.registry)
    (hfiles : ∀ path pdf, .write path (.document pdf) ∈ s'.files.calls →
      .write path (.document pdf) ∈ s.files.calls) : Faithful directory s' := by
  refine ⟨h.1.same hregistry hfiles, ?_⟩
  have hnamed := h.2
  simp only [Registry.World.Named, Registry.World.label?, reports] at hnamed ⊢
  rw [hregistry]
  exact hnamed

/-- An event of the report jobs that leaves the record of the calls alone. -/
theorem Faithful.reported {s s' : Service (RecordedFiles σ)} (h : Faithful directory s)
    {e : Registry.Event (RecordedFiles σ) × Moment} (he : ∀ change, e.1 ≠ .elsewhere change)
    (hregistry : s'.registry = (s.reports.step e).registry)
    (hfiles : s'.files = (s.reports.step e).files) : Faithful directory s' := by
  refine ⟨(h.1.step e he).same hregistry fun path pdf hcall => hfiles ▸ hcall, ?_⟩
  have hnamed := h.2.step h.1.stands e
  simp only [Registry.World.Named, Registry.World.label?, reports] at hnamed ⊢
  rw [hregistry]
  exact hnamed

theorem stable_faithful (directory : String) :
    Stable (Faithful directory : Service (RecordedFiles σ) → Prop) where
  spawn s runId wantsReport h := by
    unfold Service.spawn
    split
    · exact h
    · exact h.same rfl fun _ _ hcall => hcall
  setEvent _ _ _ h := h.same rfl fun _ _ hcall => hcall
  startTag s run m h := by
    obtain ⟨tagging, hs⟩ := s.startTag_same run m
    rw [hs]
    exact h.same rfl fun _ _ hcall => hcall
  requestReport _ run id m h := h.reported (e := (.request run id, m)) nofun rfl rfl
  requestPartial _ run id m h := h.reported (e := (.requestPartial run id, m)) nofun rfl rfl
  callStep s i m step h :=
    h.same (s.tags_callStep i m step).2.2 fun _ _ hcall => documents_callStep hcall
  jobStep s i m step h := by
    obtain ⟨hregistry, hfiles, -⟩ := s.reports_jobStep i m step
    refine h.reported (e := (step.event i, m)) (fun change => ?_) hregistry hfiles
    cases step <;> nofun
  correlation _ _ h := h.same rfl fun _ _ hcall => hcall
  eventGroup _ _ h := h.same rfl fun _ _ hcall => hcall
  reportGroup _ _ h := ⟨⟨h.1.stands, h.1.truthful, h.1.written⟩, h.2⟩
  elsewhere _ _ h := h.same rfl fun _ _ hcall => hcall

omit [FileStore σ] in
theorem faithful_new (tagging : TagSettings) (breaker : Breaker)
    (correlation : Option Correlation) (reports : ReportSettings) (files : σ) :
    Faithful reports.directory (new tagging breaker correlation reports files).service := by
  refine ⟨(Registry.World.faithful_new reports correlation files).same rfl fun _ _ h => h, rfl, ?_⟩
  intro i l hl
  simp [Registry.World.label?, Registry.labels, Service.reports, new, Service.new,
    Registry.new] at hl

/-! ## What the report jobs see -/

/-- Somebody asks the registry itself for a partial report, with no look at the run. -/
def Event.asksRegistry : Event σ → Bool
  | .requestPartial .. => true
  | _ => false

/-- What the answer for a request's run asks of the registry. -/
def wanted? (w : System σ) (i : Nat) (answer : Except RemoteFault Run) (id : JobId) :
    Option (Registry.Event (RecordedFiles σ)) :=
  match w.inquiries[i]?, answer with
  | some ⟨_, allowPartial, none⟩, .ok run =>
    some (if !run.isFinished && allowPartial then .requestPartial run id else .request run id)
  | _, _ => none

/-- What an event is for the registry. -/
def jobEvent? (w : System σ) : Event σ → Option (Registry.Event (RecordedFiles σ))
  | .requestReport run id => some (.request run id)
  | .requestPartial run id => some (.requestPartial run id)
  | .fetched i answer id => (w.service.asked? i answer).map (.request · id)
  | .inquired i answer id => w.wanted? i answer id
  | .job i step => some (step.event i)
  | .closeReports => some .close
  | .drainReports => some .drain
  | _ => none

omit [FileStore σ] in
/-- Past the interface a partial report is asked for only if the run has not finished. -/
theorem unfinished_of_jobEvent? {w : System σ} {e : Event σ} {run : Run} {id : JobId}
    (he : e.asksRegistry = false) (hjob : w.jobEvent? e = some (.requestPartial run id)) :
    run.isFinished = false := by
  cases e with
  | requestPartial => cases he
  | fetched i answer id' =>
    obtain ⟨run', -, hrun⟩ := Option.map_eq_some_iff.mp hjob
    cases hrun
  | inquired i answer id' =>
    simp only [jobEvent?, wanted?] at hjob
    split at hjob
    · rename_i runId allowPartial run' _
      by_cases hasks : (!run'.isFinished && allowPartial) = true
      · rw [if_pos hasks] at hjob
        cases hjob
        exact (Bool.not_eq_true' _).mp (Bool.and_eq_true_iff.mp hasks).1
      · rw [if_neg hasks] at hjob
        cases hjob
    · cases hjob
  | job i step => cases step <;> cases hjob
  | requestReport | closeReports | drainReports => cases hjob
  | _ => cases hjob

/-- The registry sees one event, or nothing at all. -/
theorem registry_step (w : System σ) (e : Event σ × Moment) :
    (∃ e', w.jobEvent? e.1 = some e' ∧
      (w.step e).service.registry = (w.service.reports.step (e', e.2)).registry) ∨
    (w.jobEvent? e.1 = none ∧ (w.step e).service.registry = w.service.registry) := by
  obtain ⟨e, m⟩ := e
  cases e with
  | incoming request location suffix =>
    refine .inr ⟨rfl, ?_⟩
    simp only [step, incoming]
    split
    · rfl
    · rename_i call _
      have hdoes := congrArg Prod.fst (handle_does w.service call location suffix m)
      dsimp only at hdoes ⊢
      rw [hdoes]
      cases call with
      | event event =>
        obtain ⟨events, eventGroup, hs⟩ := w.service.dispatch_same event
        dsimp only
        rw [hs]
      | tagTest =>
        obtain ⟨tagging, hs⟩ := w.service.startTag_same (Api.testRun suffix m.wall) m
        dsimp only
        rw [hs]
      | _ => rfl
  | dispatch event =>
    obtain ⟨events, eventGroup, hs⟩ := w.service.dispatch_same event
    exact .inr ⟨rfl, (congrArg Service.registry hs :)⟩
  | tag run =>
    obtain ⟨tagging, hs⟩ := w.service.startTag_same run m
    exact .inr ⟨rfl, (congrArg Service.registry hs :)⟩
  | requestReport run id => exact .inl ⟨_, rfl, rfl⟩
  | requestPartial run id => exact .inl ⟨_, rfl, rfl⟩
  | fetched i answer id =>
    have hregistry := (w.service.fetched_reports i answer id m).1
    cases ha : w.service.asked? i answer with
    | none =>
      refine .inr ⟨by rw [jobEvent?, ha]; rfl, hregistry.trans ?_⟩
      rw [registryAfter, ha]
    | some run =>
      refine .inl ⟨.request run id, by rw [jobEvent?, ha]; rfl, hregistry.trans ?_⟩
      rw [registryAfter, ha]
      rfl
  | inquired i answer id =>
    simp only [jobEvent?, wanted?, step, inquired]
    cases hi : w.inquiries[i]? with
    | none => exact .inr ⟨rfl, rfl⟩
    | some inquiry =>
      obtain ⟨runId, allowPartial, response⟩ := inquiry
      cases response with
      | some response => exact .inr ⟨rfl, rfl⟩
      | none =>
        cases answer with
        | error fault => exact .inr ⟨rfl, rfl⟩
        | ok run =>
          refine .inl ⟨_, rfl, ?_⟩
          dsimp only [Api.fetched]
          by_cases hasks : (!run.isFinished && allowPartial) = true
          · rw [if_pos hasks, if_pos hasks]
            rfl
          · rw [if_neg hasks, if_neg hasks]
            rfl
  | call i step => exact .inr ⟨rfl, (w.service.tags_callStep i m step).2.2⟩
  | job i step => exact .inl ⟨_, rfl, (w.service.reports_jobStep i m step).1⟩
  | fetch run | evidence i answer | overdue i =>
    refine .inr ⟨rfl, ?_⟩
    simp only [step, correlated]
    split <;> rfl
  | closeReports => exact .inl ⟨_, rfl, rfl⟩
  | drainReports => exact .inl ⟨_, rfl, rfl⟩
  | closeEvents | drainEvents | elsewhere => exact .inr ⟨rfl, rfl⟩

theorem divided_step {w : System σ} (h : w.service.registry.Divided) (e : Event σ × Moment)
    (he : e.1.asksRegistry = false) : (w.step e).service.registry.Divided := by
  rcases w.registry_step e with ⟨e', hjob, hs⟩ | ⟨-, hs⟩
  · rw [hs]
    refine Registry.Divided.step (w := w.service.reports) h (e', e.2) fun run id hpartial => ?_
    dsimp only at hpartial
    subst hpartial
    exact unfinished_of_jobEvent? he hjob
  · rw [hs]
    exact h

theorem divided_play {w : System σ} (h : w.service.registry.Divided)
    {es : List (Event σ × Moment)} (hes : ∀ e ∈ es, e.1.asksRegistry = false) :
    (w.play es).service.registry.Divided := by
  induction es generalizing w with
  | nil => exact h
  | cons e es ih =>
    have hstep := divided_step h e (hes e List.mem_cons_self)
    exact ih hstep fun e' he' => hes e' (List.mem_cons_of_mem _ he')

/-- **Partial reports are marked everywhere.** Whatever comes to the service through its interface
and its events, the tracked jobs are those of finished runs and whole, the others are those of
unfinished runs and partial, and every document that a worker draws or writes carries the notice
exactly if its job is partial, as does every file that a report goes to by its name. -/
theorem play_marked (tagging : TagSettings) (breaker : Breaker) (correlation : Option Correlation)
    (reports : ReportSettings) (files : σ) (es : List (Event σ × Moment))
    (hes : ∀ e ∈ es, e.1.asksRegistry = false) :
    let s := ((new tagging breaker correlation reports files).play es).service
    (∀ entry ∈ s.registry.tracked, ∃ t, s.registry.tasks[entry.2]? = some t ∧
      t.run.state = .finished ∧ t.job.isPartial = false) ∧
    (∀ i ∈ s.registry.partials, ∃ t, s.registry.tasks[i]? = some t ∧
      t.run.state ≠ .finished ∧ t.job.isPartial = true) ∧
    (∀ (i : Nat) t, s.registry.tasks[i]? = some t → Registry.Marked t) ∧
    ∀ path pdf, .write path (.document pdf) ∈ s.files.calls →
      ∃ (i : Nat) (t : ReportTask), s.registry.tasks[i]? = some t ∧ t.path = path ∧
        (pdf.CarriesNotice ↔ t.job.isPartial = true) ∧
        (Registry.EndsPartial path ↔ t.job.isPartial = true) := by
  intro s
  obtain ⟨hfaithful, hnamed⟩ := (stable_faithful reports.directory).play
    (faithful_new tagging breaker correlation reports files) es
  have hdivided : s.registry.Divided := divided_play (Registry.divided_new reports) hes
  refine ⟨fun entry hentry => ?_, fun i hi => ?_, fun i t ht => hfaithful.marked hnamed ht,
    fun path pdf hcall => ?_⟩
  · obtain ⟨t, ht, hfin⟩ := hdivided.tracked entry hentry
    have hkind := (hfaithful.truthful entry.2 t ht).kind
    rw [hfin] at hkind
    exact ⟨t, ht, of_decide_eq_true hfin, hkind⟩
  · obtain ⟨t, ht, hfin⟩ := hdivided.partials i hi
    have hkind := (hfaithful.truthful i t ht).kind
    rw [hfin] at hkind
    exact ⟨t, ht, of_decide_eq_false hfin, hkind⟩
  · obtain ⟨i, t, ht, hpath, hne, hdrawn⟩ := hfaithful.written path pdf hcall
    refine ⟨i, t, ht, hpath, (hfaithful.truthful i t ht).carriesNotice_iff hdrawn, ?_⟩
    rw [← hpath] at hne ⊢
    exact hnamed.endsPartial_iff ht hne

/-! ## A run that is asked for too early -/

/-- Still at work. -/
def early : Run := ⟨"op-live-0001", "Live", "acme", .running, none, none, []⟩

/-- A report of it is asked for, partial if need be; then another run finishes. Both are drawn and
written. -/
def earlyAndLate : List (Event MemoryFiles × Moment) :=
  [.incoming ⟨"POST", "/api/reports", some "application/json",
      "\x7b\"run_id\":\"op-live-0001\",\"allow_partial\":true\x7d"⟩ "" 0,
    .inquired 0 (.ok early) ⟨1⟩, .dispatch (.finished "run-0001"),
    .fetched 0 (.ok ⟨"run-0001", "", "", .finished, none, none, []⟩) ⟨2⟩, .job 0 .begin,
    .job 0 (.work none), .job 0 (.work none), .job 0 (.work none), .job 0 (.work none),
    .job 1 .begin, .job 1 (.work none), .job 1 (.work none), .job 1 (.work none),
    .job 1 (.work none)].map
  fun e => (e, ⟨⟨20000, Instant.secondOf 43200, Instant.nanoOf 0⟩, 0, 0⟩)

def small : System MemoryFiles :=
  new ⟨2, 30000, 3, TagLimits.standard, "kept"⟩ (.new 5 30000000000) none ⟨2, 30000, "out", ""⟩
    MemoryFiles.empty

/-- The first job is in the one register and partial, the second in the other, and both of them are
written. -/
theorem earlyAndLate_marked : (∀ e ∈ earlyAndLate, e.1.asksRegistry = false) ∧
    let s := (small.play earlyAndLate).service
    s.registry.partials = [0] ∧ s.registry.tracked = [("run-0001", 1)] ∧
    s.files.calls.length = 4 ∧
    ∃ t, s.registry.tasks[0]? = some t ∧ t.run.state ≠ .finished ∧ t.job.isPartial = true := by
  have hdoors : ∀ e ∈ earlyAndLate, e.1.asksRegistry = false := by decide
  have hpartials : (small.play earlyAndLate).service.registry.partials = [0] := by decide +kernel
  have htracked : (small.play earlyAndLate).service.registry.tracked = [("run-0001", 1)] := by
    decide +kernel
  have hcalls : (small.play earlyAndLate).service.files.calls.length = 4 := by decide +kernel
  refine ⟨hdoors, hpartials, htracked, hcalls, ?_⟩
  have hmem : 0 ∈ (small.play earlyAndLate).service.registry.partials := by
    rw [hpartials]
    exact List.mem_singleton.mpr rfl
  unfold small at hmem ⊢
  exact (play_marked ⟨2, 30000, 3, TagLimits.standard, "kept"⟩ (.new 5 30000000000) none
    ⟨2, 30000, "out", ""⟩ MemoryFiles.empty earlyAndLate hdoors).2.1 0 hmem

end System
end Service
end AfterAction
