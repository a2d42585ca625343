import AfterAction.Proofs.Files.View
import AfterAction.Proofs.Report.Standing

/-!
# What a job leaves at its output

A worker that writes too late removes what it wrote, and the deadline removes what was written too
early. `Tidy` says for each step of the worker what its path shows, and no step of the worker, its
task or anybody else breaks it. So once both have finished, the file is there exactly for a job that
is done, and holds what was drawn.
-/

namespace AfterAction.Registry

/-- The deadline has passed and its handler has removed what was there. -/
def swept (t : ReportTask) : Bool :=
  t.abandoned && match t.phase with
    | .discarding => false
    | _ => true

/-- What the output shows, given what has been drawn, the flag, and whether the deadline has cleared
the path. Before the write there is nothing; after it there is the report, until somebody removes it
who has seen the flag or set it. -/
def Fits (abandoned cleared : Bool) (drawn : List Pdf) (shown : Option FileContent) :
    Option Worker → Prop
  | none | some (.drawing _) => drawn = [] ∧ shown = none
  | some (.checking pdf) | some (.preparing pdf) | some (.writing pdf) =>
    drawn = [pdf] ∧ shown = none
  | some .rechecking => ∃ pdf, drawn = [pdf] ∧
      (shown = some (.document pdf) ∨ abandoned = true ∧ shown = none)
  | some .removing => abandoned = true
  | some (.returned (.ok ())) => ∃ pdf, drawn = [pdf] ∧
      shown = if cleared then none else some (.document pdf)
  | some (.returned (.error _)) => shown = none

def Tidy (t : ReportTask) (drawn : List Pdf) (shown : Option FileContent) : Prop :=
  Fits t.abandoned (swept t) drawn shown t.worker

/-- What the path shows is as it should be. -/
def TidyAt {σ : Type} [FileStore σ] [FileView σ] (t : ReportTask) (path : String)
    (drawn : List Pdf) (files : σ) : Prop :=
  ∃ shown, FileView.Shows path shown files ∧ Tidy t drawn shown

def drawnBy : Happening → Option Pdf
  | .drawn pdf => some pdf
  | _ => none

/-- What the renderer has returned for a job. -/
def World.drawn {σ : Type} (w : World σ) (i : Nat) : List Pdf :=
  w.log.filterMap fun entry => if entry.1 = i then drawnBy entry.2 else none

theorem World.drawn_append {σ : Type} (w w' : World σ) (i j : Nat) (x : Option Happening)
    (h : w'.log = w.log ++ (x.map (Prod.mk i)).toList) :
    w'.drawn j = w.drawn j ++ if i = j then (x.bind drawnBy).toList else [] := by
  rw [World.drawn, h, List.filterMap_append]
  congr 1
  cases x with
  | none => simp
  | some y =>
    by_cases hij : i = j
    · cases hy : drawnBy y <;> simp [hij, hy]
    · simp [hij]

variable {σ : Type} [FileStore σ] [FileView σ] {r : Registry} {m : Moment} {i : Nat}
  {files files' : σ} {t t' : ReportTask} {x : Option Happening} {pool : Slots Nat} {path : String}
  {drawn : List Pdf}

/-! ## Steps -/

/-- A worker's step keeps its output tidy, provided that its removal goes well. -/
theorem TidyAt.work (h : TidyAt t t.path drawn files) {v v' : Worker}
    (hv : t.worker = some v) (hw : Work r t m files v x v' files')
    (hremoved : ∀ answer, x = some (.removed answer) → answer = .ok) :
    TidyAt { t with worker := some v' } t.path (drawn ++ (x.bind drawnBy).toList) files' := by
  obtain ⟨shown, hshown, h⟩ := h
  rw [Tidy, hv] at h
  cases hw with
  | drew detections pdf _ =>
    obtain ⟨rfl, hnone⟩ := h
    exact ⟨shown, hshown, rfl, hnone⟩
  | undrawn detections fault => exact ⟨shown, hshown, h.2⟩
  | stopped pdf _ => exact ⟨shown, hshown, h.2⟩
  | goesAhead pdf _ =>
    obtain ⟨rfl, hnone⟩ := h
    exact ⟨shown, hshown, rfl, hnone⟩
  | prepared pdf _ hc =>
    obtain ⟨rfl, hnone⟩ := h
    exact ⟨shown, FileView.createDirectories_keeps hc hshown, rfl, hnone⟩
  | unprepared pdf answer _ fault hc _ =>
    exact ⟨shown, FileView.createDirectories_keeps hc hshown, h.2⟩
  | wrote pdf _ hc =>
    obtain ⟨rfl, -⟩ := h
    exact ⟨some (.document pdf), FileView.write_ok hc, pdf, rfl, .inl rfl⟩
  | unwritten pdf answer _ fault hc hne =>
    exact ⟨shown, FileView.write_failed hc hne hshown, h.2⟩
  | kept ha =>
    obtain ⟨pdf, rfl, hdoc | ⟨ha', -⟩⟩ := h
    · refine ⟨shown, hshown, pdf, rfl, ?_⟩
      rw [hdoc, if_neg]
      simp [swept, ha]
    · cases ha.symm.trans ha'
  | late ha => exact ⟨shown, hshown, ha⟩
  | removed answer _ fault hc =>
    have hok := hremoved answer rfl
    subst hok
    exact ⟨none, FileView.remove_ok hc hshown, rfl⟩

theorem Fits.flagged {cleared : Bool} {shown : Option FileContent} {v : Option Worker}
    (h : Fits false cleared drawn shown v) : Fits true cleared drawn shown v := by
  cases v with
  | none => exact h
  | some v =>
    cases v with
    | rechecking =>
      obtain ⟨pdf, hd, hs | ⟨ha, -⟩⟩ := h
      · exact ⟨pdf, hd, .inl hs⟩
      · cases ha
    | removing => rfl
    | returned result =>
      cases result with
      | ok _ => exact h
      | error fault => exact h
    | _ => exact h

/-- The deadline's removal leaves nothing, wherever the worker is. -/
theorem Fits.swept {abandoned cleared : Bool} {shown : Option FileContent} {v : Option Worker}
    (h : Fits abandoned cleared drawn shown v) (ha : abandoned = true) :
    Fits abandoned true drawn none v := by
  cases v with
  | none => exact ⟨h.1, rfl⟩
  | some v =>
    cases v with
    | rechecking =>
      obtain ⟨pdf, hd, -⟩ := h
      exact ⟨pdf, hd, .inr ⟨ha, rfl⟩⟩
    | removing => exact ha
    | returned result =>
      cases result with
      | ok _ =>
        obtain ⟨pdf, hd, -⟩ := h
        exact ⟨pdf, hd, rfl⟩
      | error fault => exact rfl
    | _ => exact ⟨h.1, rfl⟩

/-- A job without a worker has nothing to show, also when it gets one. -/
theorem Tidy.idle {shown : Option FileContent} (h : Tidy t drawn shown) (hw : t.worker = none)
    (hw' : t'.worker = none ∨ ∃ detections, t'.worker = some (.drawing detections)) :
    Tidy t' drawn shown := by
  rw [Tidy, hw] at h
  rcases hw' with hw' | ⟨detections, hw'⟩
  · rw [Tidy, hw']
    exact h
  · rw [Tidy, hw']
    exact h

/-- Nothing that the output shows has to do with the record of the job. -/
theorem Tidy.ended {shown : Option FileContent} (h : Tidy t drawn shown)
    (hp : t.phase ≠ .discarding) (job : ReportJob) : Tidy (Registry.ended t job) drawn shown := by
  have hcleared : swept (Registry.ended t job) = swept t := by
    cases hq : t.phase with
    | discarding => exact absurd hq hp
    | _ => simp [swept, Registry.ended, hq]
  rw [Tidy, hcleared]
  exact h

/-- A step of the task or its worker keeps the output tidy. -/
theorem TidyAt.move (h : TidyAt t path drawn files) (hs : Standing t)
    (hpath : t.path ≠ "" → t.path = path) (hm : Move r m i files t x t' pool files')
    (hremoved : ∀ answer, x = some (.removed answer) → answer = .ok) :
    TidyAt t' path (drawn ++ (x.bind drawnBy).toList) files' := by
  obtain ⟨shown, hshown, h⟩ := h
  have hnil : drawn ++ ((none : Option Happening).bind drawnBy).toList = drawn := by simp
  cases hm with
  | asking query hp =>
    obtain ⟨_, _, _, hw⟩ := hs.undecided (by rw [hp]; rfl)
    rw [hnil]
    exact ⟨shown, hshown, h.idle hw (.inl hw)⟩
  | lined path' detections deadline hu _ =>
    obtain ⟨_, _, _, hw⟩ := hs.undecided hu
    rw [hnil]
    exact ⟨shown, hshown, h.idle hw (.inl hw)⟩
  | enlisted path' detections deadline hu _ _ =>
    obtain ⟨_, _, _, hw⟩ := hs.undecided hu
    rw [hnil]
    exact ⟨shown, hshown, h.idle hw (.inr ⟨detections, rfl⟩)⟩
  | noticed detections deadline hp _ =>
    rw [Standing, hp] at hs
    obtain ⟨_, _, _, hw⟩ := hs
    rw [hnil]
    exact ⟨shown, hshown, h.idle hw (.inr ⟨detections, rfl⟩)⟩
  | expiredWaiting detections deadline hp _ =>
    rw [Standing, hp] at hs
    obtain ⟨_, _, _, hw⟩ := hs
    rw [hnil]
    exact ⟨shown, hshown, h.idle hw (.inl hw)⟩
  | expiredRendering deadline hp _ =>
    rw [Standing, hp] at hs
    obtain ⟨_, _, ha, _⟩ := hs
    have hcleared : swept t = false := by simp [swept, ha]
    rw [hnil]
    rw [Tidy, ha, hcleared] at h
    exact ⟨shown, hshown, h.flagged⟩
  | discarded answer files' hp hr =>
    rw [Standing, hp] at hs
    obtain ⟨hne, ha, _⟩ := hs
    have hok := hremoved answer rfl
    subst hok
    rw [hpath hne] at hr
    have hcleared : swept { t with phase := .discarded } = true := by simp [swept, ha]
    have hd : drawn ++ ((some (Happening.removed .ok)).bind drawnBy).toList = drawn :=
      List.append_nil drawn
    rw [hd]
    refine ⟨none, FileView.remove_ok hr hshown, ?_⟩
    rw [Tidy, hcleared]
    exact Fits.swept h ha
  | marked _ hp | done _ hp | failed _ _ hp =>
    rw [hnil]
    exact ⟨shown, hshown, h.ended (by simp [hp]) _⟩
  | worked v v' x files' hv hw =>
    have he := hpath (hs.path_ne_empty hv hw)
    subst he
    exact TidyAt.work ⟨shown, hshown, h⟩ hv hw hremoved

/-! ## The end -/

/-- The worker has returned or was never there, and the task is at its end. -/
def Finished (t : ReportTask) : Prop :=
  t.phase = .ended ∧ (t.worker = none ∨ ∃ result, t.worker = some (.returned result))

theorem Tidy.gone {shown : Option FileContent} (h : Tidy t drawn shown)
    (hf : Finished t) (ha : t.abandoned = true) : shown = none := by
  have hcleared : swept t = true := by simp [swept, ha, hf.1]
  rcases hf.2 with hw | ⟨result, hw⟩
  · rw [Tidy, hw] at h
    exact h.2
  · rw [Tidy, hw, hcleared] at h
    cases result with
    | ok _ =>
      obtain ⟨pdf, -, hs⟩ := h
      exact hs
    | error fault => exact h

/-- What is left once a job has ended and its worker has returned. -/
theorem Tidy.finished {shown : Option FileContent} (h : Tidy t drawn shown)
    (hs : Standing t) (hf : Finished t) :
    (t.job.state = .done ∧ t.job.output = some t.path ∧
      ∃ pdf, drawn = [pdf] ∧ shown = some (.document pdf)) ∨
    ((t.job.state = .failed ∨ t.job.state = .timedOut) ∧ shown = none) := by
  have hclosed : Closed t := by
    rw [Standing, hf.1] at hs
    exact hs
  cases hclosed with
  | done hstate hout _ ha hw =>
    have hcleared : swept t = false := by simp [swept, ha]
    rw [Tidy, hw, hcleared] at h
    exact .inl ⟨hstate, hout, h⟩
  | failed fault hstate _ hw =>
    rw [Tidy, hw] at h
    exact .inr ⟨.inl hstate, h⟩
  | refused hstate _ hw _ =>
    rw [Tidy, hw] at h
    exact .inr ⟨.inl hstate, h.2⟩
  | timedOut hstate _ ha => exact .inr ⟨.inr hstate, h.gone hf ha⟩

/-! ## Among other jobs -/

/-- What one job does shows nowhere but at its own output. -/
theorem Move.shows_apart (hm : Move r m i files t x t' pool files') (hs : Standing t)
    (hap : t.path ≠ "" → ¬ FileView.touches σ t.path path) {shown : Option FileContent}
    (h : FileView.Shows path shown files) : FileView.Shows path shown files' := by
  cases hm with
  | discarded answer files' hp hr =>
    rw [Standing, hp] at hs
    exact FileView.remove_apart hr (hap hs.1) h
  | worked v v' x files' hv hw =>
    have hno := hap (hs.path_ne_empty hv hw)
    cases hw with
    | prepared pdf _ hc => exact FileView.createDirectories_keeps hc h
    | unprepared pdf answer _ fault hc _ => exact FileView.createDirectories_keeps hc h
    | wrote pdf _ hc => exact FileView.write_apart hc hno h
    | unwritten pdf answer _ fault hc _ => exact FileView.write_apart hc hno h
    | removed answer _ fault hc => exact FileView.remove_apart hc hno h
    | _ => exact h
  | _ => exact h

namespace World

variable {w : World σ}

/-- The path is the job's alone, and nobody has failed to remove what is there. -/
structure Alone (w : World σ) (i : Nat) (path : String) : Prop where
  own : ∀ t, w.registry.tasks[i]? = some t → t.path ≠ "" → t.path = path
  others : ∀ j t, j ≠ i → w.registry.tasks[j]? = some t → t.path ≠ "" →
    ¬ FileView.touches σ t.path path
  removed : ∀ answer, (i, .removed answer) ∈ w.log → answer = .ok

/-- Tasks agree with their phases, and an output that is its job's alone is tidy: nothing is there
before the task, and its worker keeps it so. -/
structure Tended (w : World σ) (i : Nat) (path : String) : Prop where
  stands : w.Stands
  absent : w.Alone i path → w.registry.tasks[i]? = none →
    w.drawn i = [] ∧ FileView.Shows path none w.files
  present : w.Alone i path → ∀ t, w.registry.tasks[i]? = some t →
    TidyAt t path (w.drawn i) w.files

theorem tended_new (settings : ReportSettings) (correlation : Option Correlation) {files : σ}
    (h : FileView.Shows path none files) (i : Nat) :
    (new settings correlation files).Tended i path := by
  refine ⟨stands_new settings correlation files, fun _ _ => ⟨rfl, h⟩, fun _ t ht => ?_⟩
  simp [new, Registry.new] at ht

theorem Tended.entered (h : w.Tended i path) {t : ReportTask} (ht : Standing t)
    (hw : t.worker = none) (tracked : List (String × Nat)) (partials : List Nat)
    (group : TaskGroup Nat) {x : Option Happening} (hx : x.bind drawnBy = none) :
    (w.entered t tracked partials group x).Tended i path := by
  have hdrawn : (w.entered t tracked partials group x).drawn i = w.drawn i := by
    rw [drawn_append w _ w.registry.tasks.length i x rfl, hx]
    simp
  have hlt : ∀ (j : Nat) u, w.registry.tasks[j]? = some u →
      (w.entered t tracked partials group x).registry.tasks[j]? = some u := by
    intro j u hu
    rw [entered_tasks, if_neg (Nat.ne_of_lt (List.getElem?_eq_some_iff.mp hu).1)]
    exact hu
  have hback : (w.entered t tracked partials group x).Alone i path → w.Alone i path := fun ha =>
    ⟨fun u hu => ha.own u (hlt i u hu), fun j u hj hu => ha.others j u hj (hlt j u hu),
      fun answer hm => ha.removed answer (List.mem_append_left _ hm)⟩
  refine ⟨h.stands.entered ht _ _ _ _, fun ha hnone => ?_, fun ha u hu => ?_⟩
  · rw [entered_tasks] at hnone
    rw [hdrawn]
    split at hnone
    · cases hnone
    · exact h.absent (hback ha) hnone
  · rw [entered_tasks] at hu
    rw [hdrawn]
    split at hu
    · rename_i hi
      cases hu
      obtain ⟨hd, hnone⟩ := h.absent (hback ha) (List.getElem?_eq_none (Nat.le_of_eq hi.symm))
      refine ⟨none, hnone, ?_⟩
      rw [Tidy, hw]
      exact ⟨hd, rfl⟩
    · exact h.present (hback ha) u hu

theorem Tended.moved (h : w.Tended i path) {k : Nat} (hc : w.registry.tasks[k]? = some t)
    (hm : Move w.registry m k w.files t x t' pool files) (correlation : Option Correlation) :
    (w.moved k x t' pool correlation files).Tended i path := by
  have hdrawn := drawn_append w (w.moved k x t' pool correlation files) k i x rfl
  have hs := h.stands k t hc
  have htasks := moved_tasks hc x t' pool correlation files
  have hback : (w.moved k x t' pool correlation files).Alone i path → w.Alone i path := by
    intro ha
    refine ⟨fun u hu hne => ?_, fun j u hj hu hne => ?_, fun answer hin =>
      ha.removed answer (List.mem_append_left _ hin)⟩
    · rcases Decidable.em (k = i) with rfl | hk
      · cases hc.symm.trans hu
        have he := hm.path_eq hs hne
        exact he ▸ ha.own t' (by rw [htasks, if_pos rfl]) (he ▸ hne)
      · exact ha.own u (by rw [htasks, if_neg hk]; exact hu) hne
    · rcases Decidable.em (k = j) with rfl | hk
      · cases hc.symm.trans hu
        have he := hm.path_eq hs hne
        exact he ▸ ha.others k t' hj (by rw [htasks, if_pos rfl]) (he ▸ hne)
      · exact ha.others j u hj (by rw [htasks, if_neg hk]; exact hu) hne
  have hapart : (w.moved k x t' pool correlation files).Alone i path → k ≠ i →
      ∀ {shown}, FileView.Shows path shown w.files → FileView.Shows path shown files :=
    fun ha hk => hm.shows_apart hs ((hback ha).others k t hk hc)
  refine ⟨h.stands.moved hc hm correlation, fun ha hnone => ?_, fun ha u hu => ?_⟩
  · rw [htasks] at hnone
    split at hnone
    · cases hnone
    · rename_i hk
      rw [hdrawn, if_neg hk, List.append_nil]
      obtain ⟨hd, hshown⟩ := h.absent (hback ha) hnone
      exact ⟨hd, hapart ha hk hshown⟩
  · rw [htasks] at hu
    split at hu
    · rename_i hk
      cases hu
      subst hk
      rw [hdrawn, if_pos rfl]
      refine (h.present (hback ha) t hc).move hs ((hback ha).own t hc) hm fun answer hx => ?_
      refine ha.removed answer (List.mem_append_right _ ?_)
      rw [hx]
      exact List.mem_singleton_self _
    · rename_i hk
      rw [hdrawn, if_neg hk, List.append_nil]
      obtain ⟨shown, hshown, htidy⟩ := h.present (hback ha) u hu
      exact ⟨shown, hapart ha hk hshown, htidy⟩

theorem newTask_worker (r : Registry) (run : Run) (job : ReportJob) (m : Moment) :
    (newTask r run job m).worker = none := by
  unfold newTask
  split <;> rfl

theorem Tended.step (h : w.Tended i path) (e : Event σ × Moment)
    (helse : ∀ change, e.1 = .elsewhere change → ∀ (files : σ) shown,
      FileView.Shows path shown files → FileView.Shows path shown (change files)) :
    (w.step e).Tended i path := by
  refine step_induction (P := fun w => w.Tended i path) e
    (fun _ _ _ _ h _ _ _ _ =>
      h.entered (standing_newTask _ _ _ _ rfl) (newTask_worker _ _ _ _) _ _ _ rfl)
    (fun _ _ _ _ _ h _ _ =>
      h.entered (standing_newTask _ _ _ _ rfl) (newTask_worker _ _ _ _) _ _ _ rfl)
    (fun _ _ _ _ _ _ correlation _ h hc hm => h.moved hc hm correlation)
    (fun _ _ h => ⟨h.stands, fun ha => h.absent ⟨ha.own, ha.others, ha.removed⟩,
      fun ha => h.present ⟨ha.own, ha.others, ha.removed⟩⟩)
    (fun w change he h => ?_) h
  refine ⟨h.stands, fun ha hnone => ?_, fun ha t ht => ?_⟩
  · obtain ⟨hd, hshown⟩ := h.absent ⟨ha.own, ha.others, ha.removed⟩ hnone
    exact ⟨hd, helse change he w.files none hshown⟩
  · obtain ⟨shown, hshown, htidy⟩ := h.present ⟨ha.own, ha.others, ha.removed⟩ t ht
    exact ⟨shown, helse change he w.files shown hshown, htidy⟩

/-- **An output is there exactly for a job that is done.** However the steps of the worker and of
the deadline fall, once both have finished the file holds what was drawn for the job, or it is gone:
provided that the path is the job's alone, with nothing there before, and that removals succeed. -/
theorem play_output (settings : ReportSettings) (correlation : Option Correlation) (files : σ)
    (es : List (Event σ × Moment)) (i : Nat) (t : ReportTask)
    (htask : ((new settings correlation files).play es).registry.tasks[i]? = some t)
    (hbefore : FileView.Shows t.path none files)
    (helse : ∀ e ∈ es, ∀ change, e.1 = .elsewhere change → ∀ (files : σ) shown,
      FileView.Shows t.path shown files → FileView.Shows t.path shown (change files))
    (halone : ((new settings correlation files).play es).Alone i t.path)
    (hfinished : Finished t) :
    let w := (new settings correlation files).play es
    ((∃ content, FileView.Shows t.path (some content) w.files) ↔ t.job.state = .done) ∧
    (t.job.state = .done → t.job.output = some t.path ∧
      ∃ pdf, w.drawn i = [pdf] ∧ FileView.Shows t.path (some (.document pdf)) w.files) ∧
    (t.job.state = .failed ∨ t.job.state = .timedOut → FileView.Shows t.path none w.files) := by
  intro w
  have h : w.Tended i t.path :=
    play_induction (P := fun w => w.Tended i t.path) (fun _ e he h => h.step e (helse e he))
      (tended_new settings correlation hbefore i)
  obtain ⟨shown, hshown, htidy⟩ := h.present halone t htask
  rcases htidy.finished (h.stands i t htask) hfinished with
    ⟨hstate, hout, pdf, hdrawn, rfl⟩ | ⟨hstate, rfl⟩
  · refine ⟨⟨fun _ => hstate, fun _ => ⟨_, hshown⟩⟩, fun _ => ⟨hout, pdf, hdrawn, hshown⟩,
      fun hno => ?_⟩
    rcases hno with hno | hno
    · cases hstate.symm.trans hno
    · cases hstate.symm.trans hno
  · have hne : t.job.state ≠ .done := by
      rcases hstate with hstate | hstate
      · rw [hstate]; nofun
      · rw [hstate]; nofun
    refine ⟨⟨fun ⟨content, hsome⟩ => ?_, fun hd => absurd hd hne⟩, fun hd => absurd hd hne,
      fun _ => hshown⟩
    cases FileView.unique hshown hsome

/-! ## A race -/

section Race

def noonOf (timer : Nat) : Moment :=
  ⟨⟨20000, ⟨43200, by decide⟩, ⟨0, by decide⟩⟩, 0, timer⟩

def shortRun (id : String) : Run := ⟨id, "", "", .finished, none, none, []⟩

/-- Two jobs are drawn and written. Between the write and the second look at the flag the deadline
of the first fires; the second is done. -/
def race : List (Event MemoryFiles × Moment) :=
  [(.request (shortRun "run-0001") ⟨1⟩, noonOf 0), (.begin 0, noonOf 0), (.work 0 none, noonOf 0),
    (.work 0 none, noonOf 0), (.work 0 none, noonOf 0), (.work 0 none, noonOf 0),
    (.request (shortRun "run-0002") ⟨2⟩, noonOf 29999), (.begin 1, noonOf 29999),
    (.work 1 none, noonOf 29999), (.expire 0, noonOf 30000), (.work 1 none, noonOf 30000),
    (.work 0 none, noonOf 30000), (.work 1 none, noonOf 30000), (.discard 0, noonOf 30000),
    (.work 1 none, noonOf 30000), (.work 0 none, noonOf 30000), (.mark 0, noonOf 30000),
    (.work 1 none, noonOf 30000), (.finish 1, noonOf 30000)]

def afterRace : World MemoryFiles := (new ⟨2, 30000, "out", ""⟩ none MemoryFiles.empty).play race

def late : ReportTask where
  run := shortRun "run-0001"
  job := (ReportJob.queued ⟨1⟩ "run-0001" false (noonOf 0).wall).rendering.timedOut
    "rendering exceeded 30s" (noonOf 30000).wall
  phase := .ended
  path := "out/report_run-0001_20241004_120000.pdf"
  abandoned := true
  worker := some (.returned (.error .abandoned))

def timely : ReportTask where
  run := shortRun "run-0002"
  job := (ReportJob.queued ⟨2⟩ "run-0002" false (noonOf 29999).wall).rendering.done
    "out/report_run-0002_20241004_120000.pdf" (noonOf 30000).wall
  phase := .ended
  path := "out/report_run-0002_20241004_120000.pdf"
  abandoned := false
  worker := some (.returned (.ok ()))

set_option maxRecDepth 4000 in
theorem race_tasks : afterRace.registry.tasks = [late, timely] := rfl

def removalOf? : Happening → Option FileAnswer
  | .removed answer => some answer
  | _ => none

set_option maxRecDepth 4000 in
theorem race_removals :
    afterRace.log.filterMap (fun entry => removalOf? entry.2) = [.ok, .ok] := rfl

/-- No two jobs share an output, and every removal went well. -/
theorem race_alone {i : Nat} {t : ReportTask} (h : afterRace.registry.tasks[i]? = some t) :
    afterRace.Alone i t.path where
  own u hu _ := by
    cases h.symm.trans hu
    rfl
  others j u hj hu _ := by
    rw [race_tasks] at h hu
    match i, j, h, hu with
    | 0, 0, _, _ => exact absurd rfl hj
    | 0, 1, h, hu =>
      cases h
      cases hu
      show ¬ late.path = timely.path
      decide
    | 1, 0, h, hu =>
      cases h
      cases hu
      show ¬ timely.path = late.path
      decide
    | 1, 1, _, _ => exact absurd rfl hj
  removed answer hm := by
    have hin : answer ∈ afterRace.log.filterMap fun entry => removalOf? entry.2 :=
      List.mem_filterMap.mpr ⟨_, hm, rfl⟩
    rw [race_removals] at hin
    simpa using hin

/-- The late job leaves nothing and the timely one its report. -/
theorem race_outputs :
    FileView.Shows late.path none afterRace.files ∧
    ∃ pdf, FileView.Shows timely.path (some (.document pdf)) afterRace.files := by
  have h0 : afterRace.registry.tasks[0]? = some late := by rw [race_tasks]; rfl
  have h1 : afterRace.registry.tasks[1]? = some timely := by rw [race_tasks]; rfl
  have hown : race.all (fun e => match e.1 with | .elsewhere _ => false | _ => true) = true := rfl
  have helse : ∀ path, ∀ e ∈ race, ∀ change, e.1 = .elsewhere change →
      ∀ (files : MemoryFiles) shown,
        FileView.Shows path shown files → FileView.Shows path shown (change files) := by
    intro path e he change hc
    have := List.all_eq_true.mp hown e he
    rw [hc] at this
    cases this
  have hlate := play_output _ none MemoryFiles.empty race 0 late h0 rfl (helse _) (race_alone h0)
    ⟨rfl, .inr ⟨_, rfl⟩⟩
  have htimely := play_output _ none MemoryFiles.empty race 1 timely h1 rfl (helse _)
    (race_alone h1) ⟨rfl, .inr ⟨_, rfl⟩⟩
  obtain ⟨-, pdf, -, hshown⟩ := htimely.2.1 rfl
  exact ⟨hlate.2.2 (.inr rfl), pdf, hshown⟩

end Race

end World
end AfterAction.Registry
