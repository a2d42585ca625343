import AfterAction.Proofs.Report.Naming
import AfterAction.Proofs.Report.Standing

/-!
# Who decides on an output

A job decides on its output once, when it gets in line for a worker, and names it for its run, its
kind and the second on the clock. Every other step leaves alone what an output is named for.
-/

namespace AfterAction

/-- What an output is named for, and the output once that is decided. -/
structure ReportLabel where
  runId : String
  isPartial : Bool
  path : String
  deriving DecidableEq, Repr

def ReportTask.label (t : ReportTask) : ReportLabel := ⟨t.job.runId, t.job.isPartial, t.path⟩

/-- The output that a job decides on. -/
def ReportLabel.decided (l : ReportLabel) (directory : String) (now : Instant) : ReportLabel :=
  { l with path := Path.join directory (Registry.fileName l.runId now l.isPartial) }

namespace Registry

def labels (r : Registry) : List ReportLabel := r.tasks.map (·.label)

/-! ## What leaves labels alone -/

variable (r : Registry) (i : Nat)

/-- A change of one task that leaves its label as it is. -/
theorem labels_modify {change : ReportTask → ReportTask} (h : ∀ t, (change t).label = t.label) :
    (r.tasks.modify i change).map (·.label) = r.labels := by
  refine List.ext_getElem? fun j => ?_
  rw [labels, List.getElem?_map, List.getElem?_map, List.getElem?_modify]
  cases r.tasks[j]? with
  | none => rfl
  | some t =>
    by_cases hij : i = j
    · simp [hij, h t]
    · simp [hij]

@[simp] theorem labels_setPhase (phase : ReportPhase) : (r.setPhase i phase).labels = r.labels := by
  refine labels_modify r i ?_
  exact fun _ => rfl

@[simp] theorem labels_setWorker (worker : Worker) : (r.setWorker i worker).labels = r.labels := by
  refine labels_modify r i ?_
  exact fun _ => rfl

theorem labels_setJob {change : ReportJob → ReportJob}
    (h : ∀ job, (change job).runId = job.runId ∧ (change job).isPartial = job.isPartial) :
    (r.setJob i change).labels = r.labels := by
  refine labels_modify r i fun t => ?_
  obtain ⟨hrun, hpartial⟩ := h t.job
  simp only [ReportTask.label, hrun, hpartial]

@[simp] theorem labels_employ (detections : Detections) (deadline : Nat) :
    (r.employ i detections deadline).labels = r.labels := by
  rw [employ, labels_setWorker, labels_setPhase]
  exact labels_setJob r i fun _ => ⟨rfl, rfl⟩

@[simp] theorem labels_returns (result : Except RenderFault Unit) :
    (r.returns i result).labels = r.labels := labels_setWorker _ i _

theorem labels_afterFile (answer : FileAnswer) {next : Registry → Registry}
    (h : (next r).labels = r.labels) : (r.afterFile i answer next).labels = r.labels := by
  cases answer with
  | ok => exact h
  | fault fault => exact labels_returns r i _
  | crashed message => exact labels_returns r i _

theorem labels_notice : (r.notice i).labels = r.labels := by
  unfold notice
  split
  · split
    · exact labels_employ r i _ _
    · rfl
  · rfl

theorem labels_expire (m : Moment) : (r.expire i m).labels = r.labels := by
  have hgive : ∀ pool, ({ r with
      pool, tasks := r.tasks.modify i fun t =>
        { t with abandoned := true, phase := .discarding } } : Registry).labels = r.labels := by
    intro pool
    refine labels_modify r i ?_
    exact fun _ => rfl
  simp only [expire]
  split
  · split
    · exact hgive _
    · rfl
  · split
    · exact hgive _
    · rfl
  · rfl

theorem labels_mark (m : Moment) : (r.mark i m).labels = r.labels := by
  unfold mark
  split
  · rw [labels_setPhase]
    exact labels_setJob r i fun _ => ⟨rfl, rfl⟩
  · rfl

theorem labels_finish (m : Moment) : (r.finish i m).labels = r.labels := by
  unfold finish
  split
  · split
    · refine (labels_setJob (r.setPhase i .ended) i ?_).trans (labels_setPhase r i _)
      exact fun _ => ⟨rfl, rfl⟩
    · refine (labels_setJob (r.setPhase i .ended) i ?_).trans (labels_setPhase r i _)
      exact fun _ => ⟨rfl, rfl⟩
  · rfl

section
variable {σ : Type} [FileStore σ]

theorem labels_discard (files : σ) : (r.discard i files).1.labels = r.labels := by
  unfold discard
  split
  · exact labels_setPhase r i _
  · rfl

theorem labels_work (trouble : Option DrawingTrouble) (m : Moment) (files : σ) :
    (r.work i trouble m files).1.labels = r.labels := by
  unfold work
  split
  · split
    · split
      · exact labels_setWorker r i _
      · exact labels_returns r i _
      · exact labels_returns r i _
    · dsimp only
      split
      · exact labels_returns r i _
      · exact labels_setWorker r i _
    · exact labels_afterFile r i _ (labels_setWorker r i _)
    · exact labels_afterFile r i _ (labels_setWorker r i _)
    · dsimp only
      split
      · exact labels_setWorker r i _
      · exact labels_returns r i _
    · exact labels_afterFile r i _ (labels_returns r i _)
    · rfl
  · rfl

end

variable {r i}

theorem labels_enlist {t : ReportTask} (hc : r.tasks[i]? = some t) (detections : Detections)
    (m : Moment) : (r.enlist i detections m).labels =
      r.labels.set i (t.label.decided r.settings.directory m.wall) := by
  have hset : ∀ pool path, ({ r with
      pool, tasks := r.tasks.modify i fun task => { task with path } } : Registry).labels =
        r.labels.set i { t.label with path } := by
    intro pool path
    show (r.tasks.modify i fun task => { task with path }).map (·.label) = _
    rw [modify_eq_set _ hc, List.map_set]
    rfl
  simp only [enlist, hc]
  split
  · rw [labels_employ]
    exact hset _ _
  · rw [labels_setPhase]
    exact hset _ _

/-- A task leaves its label as it is, or decides on its output. -/
def Decides (r : Registry) (i : Nat) (m : Moment) (r' : Registry) : Prop :=
  r'.labels = r.labels ∨ ∃ t, r.tasks[i]? = some t ∧ undecided t.phase = true ∧
    r'.labels = r.labels.set i (t.label.decided r.settings.directory m.wall)

theorem decides_begin (c : Option Correlation) (m : Moment) :
    r.Decides i m (r.begin c i m).1 := by
  unfold begin
  split
  · rename_i hc
    exact .inr ⟨_, hc, rfl, labels_enlist hc _ _⟩
  · rename_i hc
    split
    · exact .inl (labels_setPhase r i _)
    · exact .inr ⟨_, hc, rfl, labels_enlist hc _ _⟩
  · exact .inl rfl

theorem decides_answered (c : Option Correlation) (answer : Except RemoteFault (List Evidence))
    (m : Moment) : r.Decides i m (r.answered c i answer m).1 := by
  unfold answered
  split
  · rename_i hc
    exact .inr ⟨_, hc, rfl, labels_enlist hc _ _⟩
  · exact .inl rfl

theorem decides_queryExpired (c : Option Correlation) (m : Moment) :
    r.Decides i m (r.queryExpired c i m).1 := by
  unfold queryExpired
  split
  · rename_i query c hp
    obtain ⟨t, hc, ht⟩ := Option.map_eq_some_iff.mp hp
    split
    · exact .inr ⟨t, hc, by rw [ht]; rfl, labels_enlist hc _ _⟩
    · exact .inl rfl
  · exact .inl rfl

namespace World

variable {σ : Type} {w : World σ}

/-- The label of a job. -/
def label? (w : World σ) (i : Nat) : Option ReportLabel := w.registry.labels[i]?

theorem label?_of_task {i : Nat} {t : ReportTask} (h : w.registry.tasks[i]? = some t) :
    w.label? i = some t.label := by
  rw [label?, labels, List.getElem?_map, h]
  rfl

/-- The output of a job, empty before it is decided. -/
def output (w : World σ) (i : Nat) : String := ((w.label? i).map (·.path)).getD ""

theorem output_of_label? {i : Nat} {l : ReportLabel} (h : w.label? i = some l) :
    w.output i = l.path := by
  rw [output, h]
  rfl

theorem label?_of_output {i : Nat} (h : w.output i ≠ "") :
    ∃ l, w.label? i = some l ∧ l.path ≠ "" := by
  cases hl : w.label? i with
  | none =>
    rw [output, hl] at h
    exact absurd rfl h
  | some l =>
    rw [output_of_label? hl] at h
    exact ⟨l, rfl, h⟩

variable [FileStore σ]

theorem step_settings (w : World σ) (e : Event σ × Moment) :
    (w.step e).registry.settings = w.registry.settings :=
  step_induction (P := fun w' => w'.registry.settings = w.registry.settings) e
    (fun _ _ _ _ h _ _ _ _ => h) (fun _ _ _ _ _ h _ _ => h) (fun _ _ _ _ _ _ _ _ h _ _ => h)
    (fun _ _ h => h) (fun _ _ _ h => h) rfl

/-- What a step can do to what outputs are named for: nothing, or it brings a new job, or a job that
had not decided on its output decides. -/
inductive Labelled (w : World σ) (m : Moment) : List ReportLabel → Prop
  | same : Labelled w m w.registry.labels
  | entered (runId : String) (isPartial : Bool) : RunId.wellFormed runId = true →
      Labelled w m (w.registry.labels ++ [⟨runId, isPartial, ""⟩])
  | decided (i : Nat) (l : ReportLabel) : w.registry.labels[i]? = some l → l.path = "" →
      Labelled w m (w.registry.labels.set i (l.decided w.registry.settings.directory m.wall))

omit [FileStore σ] in
theorem labelled_of_decides {i : Nat} {m : Moment} {r' : Registry} (hs : w.Stands)
    (h : w.registry.Decides i m r') : w.Labelled m r'.labels := by
  rcases h with h | ⟨t, hc, hu, h⟩
  · rw [h]
    exact .same
  · rw [h]
    refine .decided i t.label ?_ ((hs i t hc).undecided hu).2.1
    rw [labels, List.getElem?_map, hc]
    rfl

theorem label_newTask (r : Registry) (run : Run) (job : ReportJob) (m : Moment) :
    (newTask r run job m).label = ⟨job.runId, job.isPartial, ""⟩ := by
  unfold newTask
  split <;> rfl

theorem step_labelled (hs : w.Stands) (e : Event σ × Moment) :
    w.Labelled e.2 (w.step e).registry.labels := by
  have hsame : ∀ {ls : List ReportLabel}, ls = w.registry.labels → w.Labelled e.2 ls := by
    rintro ls rfl
    exact .same
  have hentered : ∀ (run : Run) (job : ReportJob) (m : Moment) tracked partials group x,
      RunId.wellFormed job.runId = true → w.Labelled e.2
        (w.entered (newTask w.registry run job m) tracked partials group x).registry.labels := by
    intro run job m tracked partials group x hgood
    have hlabels : (w.entered (newTask w.registry run job m) tracked partials group
        x).registry.labels = w.registry.labels ++ [⟨job.runId, job.isPartial, ""⟩] := by
      rw [← label_newTask w.registry run job m]
      exact List.map_append
    rw [hlabels]
    exact .entered _ _ hgood
  obtain ⟨e, m⟩ := e
  cases e with
  | request run id =>
    rcases step_request w run id m with ⟨h, -⟩ | ⟨group, hgood, -, -, -, h⟩
    · exact hsame (by rw [h])
    · rw [h]
      exact hentered run _ m _ _ _ _ hgood
  | requestPartial run id =>
    rcases step_requestPartial w run id m with h | ⟨partials, group, hgood, -, h⟩
    · exact hsame (by rw [h])
    · rw [h]
      exact hentered run _ m _ _ _ _ hgood
  | begin i => exact labelled_of_decides hs (decides_begin w.correlation m)
  | answered i answer => exact labelled_of_decides hs (decides_answered w.correlation answer m)
  | queryExpired i => exact labelled_of_decides hs (decides_queryExpired w.correlation m)
  | notice i => exact hsame (labels_notice w.registry i)
  | expire i => exact hsame (labels_expire w.registry i m)
  | discard i => exact hsame (labels_discard w.registry i w.files)
  | mark i => exact hsame (labels_mark w.registry i m)
  | finish i => exact hsame (labels_finish w.registry i m)
  | work i trouble => exact hsame (labels_work w.registry i trouble m w.files)
  | close | drain | elsewhere => exact hsame rfl

/-! ## How an output is named -/

/-- What a label can become in a step. -/
theorem step_label (hs : w.Stands) (e : Event σ × Moment) {i : Nat} {l' : ReportLabel}
    (h : (w.step e).label? i = some l') :
    w.label? i = some l' ∨
    (w.label? i = none ∧ RunId.wellFormed l'.runId = true ∧ l'.path = "") ∨
    ∃ l, w.label? i = some l ∧ l.path = "" ∧
      l' = l.decided w.registry.settings.directory e.2.wall := by
  have hstep := step_labelled hs e
  unfold label? at h ⊢
  generalize (w.step e).registry.labels = ls at hstep h
  cases hstep with
  | same => exact .inl h
  | entered runId isPartial hgood =>
    rcases Nat.lt_trichotomy i w.registry.labels.length with hi | hi | hi
    · rw [List.getElem?_append_left hi] at h
      exact .inl h
    · subst hi
      rw [List.getElem?_concat_length] at h
      cases h
      exact .inr (.inl ⟨List.getElem?_eq_none (Nat.le_refl _), hgood, rfl⟩)
    · rw [List.getElem?_eq_none (by simp; omega)] at h
      cases h
  | decided j l hl hpath =>
    rw [List.getElem?_set] at h
    split at h
    · rename_i hij
      subst hij
      rw [if_pos (List.getElem?_eq_some_iff.mp hl).1] at h
      cases h
      exact .inr (.inr ⟨l, hl, hpath, rfl⟩)
    · exact .inl h

/-- Labels stay, and once an output is decided they stay the same. -/
theorem step_label_keeps (hs : w.Stands) (e : Event σ × Moment) {i : Nat} {l : ReportLabel}
    (h : w.label? i = some l) (hne : l.path ≠ "") : (w.step e).label? i = some l := by
  have hstep := step_labelled hs e
  unfold label? at h ⊢
  generalize (w.step e).registry.labels = ls at hstep
  cases hstep with
  | same => exact h
  | entered runId isPartial _ =>
    rw [List.getElem?_append_left (List.getElem?_eq_some_iff.mp h).1]
    exact h
  | decided j l' hl hpath =>
    have hji : j ≠ i := by
      rintro rfl
      cases hl.symm.trans h
      exact hne hpath
    rw [List.getElem?_set_ne hji]
    exact h

theorem play_label_keeps (hs : w.Stands) (es : List (Event σ × Moment)) {i : Nat} {l : ReportLabel}
    (h : w.label? i = some l) (hne : l.path ≠ "") : (w.play es).label? i = some l := by
  have hplay : (w.play es).Stands ∧ (w.play es).label? i = some l :=
    play_induction (P := fun w => w.Stands ∧ w.label? i = some l)
      (fun w e _ ⟨hs, hl⟩ => ⟨hs.step e, step_label_keeps hs e hl hne⟩) ⟨hs, h⟩
  exact hplay.2

/-- The time at which a run decides on a job's output. -/
def decided? (w : World σ) (i : Nat) : List (Event σ × Moment) → Option Instant
  | [] => none
  | e :: es => if (w.step e).output i = w.output i then (w.step e).decided? i es else some e.2.wall

/-- An output is named for its job and the time at which it was decided. -/
theorem play_named {es : List (Event σ × Moment)} {i : Nat} {l : ReportLabel} (hs : w.Stands)
    (hw : w.output i = "") (hl : (w.play es).label? i = some l) (hne : l.path ≠ "") :
    ∃ now, w.decided? i es = some now ∧
      l.path = Path.join w.registry.settings.directory (fileName l.runId now l.isPartial) := by
  induction es generalizing w with
  | nil =>
    have hout : w.output i = l.path := output_of_label? hl
    exact absurd (hout.symm.trans hw) hne
  | cons e es ih =>
    rw [decided?]
    split
    · rename_i hsame
      obtain ⟨now, hnow, hpath⟩ := ih (hs.step e) (hsame.trans hw) hl
      rw [step_settings] at hpath
      exact ⟨now, hnow, hpath⟩
    · rename_i hchanged
      rw [hw] at hchanged
      obtain ⟨l', hl', hne'⟩ := label?_of_output hchanged
      have hkept : (w.play (e :: es)).label? i = some l' :=
        play_label_keeps (hs.step e) es hl' hne'
      cases hkept.symm.trans hl
      refine ⟨e.2.wall, rfl, ?_⟩
      rcases step_label hs e hl' with hold | ⟨-, -, hempty⟩ | ⟨l₀, -, -, rfl⟩
      · exact absurd ((output_of_label? hold).symm.trans hw) hne
      · exact absurd hempty hne
      · rfl

theorem play_wellFormed {es : List (Event σ × Moment)} (hs : w.Stands)
    (h : ∀ i l, w.label? i = some l → RunId.wellFormed l.runId = true) {i : Nat} {l : ReportLabel}
    (hl : (w.play es).label? i = some l) : RunId.wellFormed l.runId = true := by
  let P : World σ → Prop := fun w =>
    w.Stands ∧ ∀ i l, w.label? i = some l → RunId.wellFormed l.runId = true
  have hplay : P (w.play es) := by
    refine play_induction (fun w e _ hP => ?_) ⟨hs, h⟩
    obtain ⟨hs, hgood⟩ := hP
    refine ⟨hs.step e, fun i l hl => ?_⟩
    rcases step_label hs e hl with hold | ⟨-, hnew, -⟩ | ⟨l₀, hl₀, -, rfl⟩
    · exact hgood i l hold
    · exact hnew
    · exact hgood i l₀ hl₀
  exact hplay.2 i l hl

end World
end Registry
end AfterAction
