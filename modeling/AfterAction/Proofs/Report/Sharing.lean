import AfterAction.Proofs.Report.Labels
import AfterAction.Proofs.Report.Output

/-!
# Jobs that share an output

Two jobs of one run and one kind that decide on their outputs within a second share one, and what the
one has written the other overwrites or, when it is given up, removes. A done job whose output is its
own keeps what was drawn for it, whatever the others do: `Carried` says for each step of a worker that
was not given up what it has drawn, and that its output shows it once it has been written.
-/

namespace AfterAction.Registry

namespace World

variable {σ : Type} [FileStore σ] [FileView σ] {w : World σ}

/-- No other job has an output that touches the path. -/
def Apart (w : World σ) (i : Nat) (path : String) : Prop :=
  ∀ j t, j ≠ i → w.registry.tasks[j]? = some t → t.path ≠ "" → ¬ FileView.touches σ t.path path

end World

/-! ## What a worker carries to its output -/

/-- What has been drawn by a worker that was not given up, and that its output shows it once it has
been written. -/
def Carried {σ : Type} [FileStore σ] [FileView σ] (path : String) (drawn : List Pdf) (files : σ) :
    Option Worker → Prop
  | none | some (.drawing _) => drawn = []
  | some (.checking pdf) | some (.preparing pdf) | some (.writing pdf) => drawn = [pdf]
  | some .rechecking | some (.returned (.ok ())) =>
    ∃ pdf, drawn = [pdf] ∧ FileView.Shows path (some (.document pdf)) files
  | some .removing | some (.returned (.error _)) => True

section
variable {σ : Type} [FileStore σ] [FileView σ] {r : Registry} {m : Moment} {i : Nat}
  {files files' : σ} {t t' : ReportTask} {x : Option Happening} {pool : Slots Nat} {path : String}
  {drawn : List Pdf}

theorem Carried.of_shows {worker : Option Worker} (h : Carried path drawn files worker)
    (hshows : ∀ {shown}, FileView.Shows path shown files → FileView.Shows path shown files') :
    Carried path drawn files' worker := by
  cases worker with
  | none => exact h
  | some v =>
    cases v with
    | rechecking =>
      obtain ⟨pdf, hd, hs⟩ := h
      exact ⟨pdf, hd, hshows hs⟩
    | returned result =>
      cases result with
      | ok _ =>
        obtain ⟨pdf, hd, hs⟩ := h
        exact ⟨pdf, hd, hshows hs⟩
      | error fault => trivial
    | _ => exact h

theorem Carried.work {v v' : Worker} (h : Carried t.path drawn files (some v))
    (hw : Work r t m files v x v' files') (ha : t.abandoned = false) :
    Carried t.path (drawn ++ (x.bind drawnBy).toList) files' (some v') := by
  cases hw with
  | drew detections pdf _ =>
    rw [Carried] at h
    rw [h]
    rfl
  | undrawn | stopped | unprepared | unwritten | removed => trivial
  | goesAhead pdf _ =>
    rw [Carried] at h
    rw [h]
    rfl
  | prepared pdf _ _ =>
    rw [Carried] at h
    rw [h]
    rfl
  | wrote pdf _ hwrite =>
    rw [Carried] at h
    rw [h]
    exact ⟨pdf, rfl, FileView.write_ok hwrite⟩
  | kept _ =>
    obtain ⟨pdf, rfl, hs⟩ := h
    exact ⟨pdf, rfl, hs⟩
  | late hlate => cases ha.symm.trans hlate

/-- A step of the task or its worker, as long as it is not given up. -/
theorem Carried.move (h : t.abandoned = false → Carried path drawn files t.worker)
    (hs : Standing t) (hpath : t'.path ≠ "" → t'.path = path)
    (hm : Move r m i files t x t' pool files') (ha : t'.abandoned = false) :
    Carried path (drawn ++ (x.bind drawnBy).toList) files' t'.worker := by
  have hnil : drawn ++ ((none : Option Happening).bind drawnBy).toList = drawn := by simp
  cases hm with
  | asking | lined =>
    rw [hnil]
    exact h ha
  | enlisted path' detections deadline hu _ _ =>
    obtain ⟨-, -, hold, hw⟩ := hs.undecided hu
    have hdrawn := h hold
    rw [hw] at hdrawn
    rw [hnil]
    exact hdrawn
  | noticed detections deadline hp _ =>
    rw [Standing, hp] at hs
    obtain ⟨-, -, hold, hw⟩ := hs
    have hdrawn := h hold
    rw [hw] at hdrawn
    rw [hnil]
    exact hdrawn
  | expiredWaiting | expiredRendering => cases ha
  | discarded answer files' hp _ =>
    rw [Standing, hp] at hs
    cases ha.symm.trans hs.2.1
  | marked error hp =>
    rw [Standing, hp] at hs
    cases ha.symm.trans hs.2.1
  | done | failed =>
    rw [hnil]
    exact h ha
  | worked v v' x files' hv hw =>
    have hout : t.path = path := hpath (hs.path_ne_empty hv hw)
    subst hout
    have hcarried := h ha
    rw [hv] at hcarried
    exact hcarried.work hw ha

end

theorem Closed.of_done {t : ReportTask} (h : Closed t) (hd : t.job.state = .done) :
    t.job.output = some t.path ∧ t.path ≠ "" ∧ t.abandoned = false ∧
      t.worker = some (.returned (.ok ())) := by
  cases h with
  | done _ hout hne ha hw => exact ⟨hout, hne, ha, hw⟩
  | failed _ hs => cases hs.symm.trans hd
  | refused hs => cases hs.symm.trans hd
  | timedOut hs => cases hs.symm.trans hd

theorem Standing.of_done {t : ReportTask} (h : Standing t) (hd : t.job.state = .done) :
    t.job.output = some t.path ∧ t.path ≠ "" ∧ t.abandoned = false ∧
      t.worker = some (.returned (.ok ())) := by
  have hphase := h.phase_of_terminal (by rw [hd]; rfl)
  rw [Standing, hphase] at h
  exact h.of_done hd

namespace World

variable {σ : Type} [FileStore σ] [FileView σ] {w : World σ} {i : Nat} {path : String}

/-- A job whose output is its own, and that is not given up, has what its worker carried there. -/
structure Sheltered (w : World σ) (i : Nat) (path : String) : Prop where
  stands : w.Stands
  absent : w.registry.tasks[i]? = none → w.drawn i = []
  present : w.Apart i path → ∀ t, w.registry.tasks[i]? = some t → (t.path ≠ "" → t.path = path) →
    t.abandoned = false → Carried path (w.drawn i) w.files t.worker

theorem sheltered_new (settings : ReportSettings) (correlation : Option Correlation) (files : σ)
    (i : Nat) (path : String) : (new settings correlation files).Sheltered i path := by
  refine ⟨stands_new settings correlation files, fun _ => rfl, fun _ t ht => ?_⟩
  simp [new, Registry.new] at ht

theorem Sheltered.entered (h : w.Sheltered i path) {t : ReportTask} (ht : Standing t)
    (hw : t.worker = none) (tracked : List (String × Nat)) (partials : List Nat)
    (group : TaskGroup Nat) {x : Option Happening} (hx : x.bind drawnBy = none) :
    (w.entered t tracked partials group x).Sheltered i path := by
  have hdrawn : (w.entered t tracked partials group x).drawn i = w.drawn i := by
    rw [drawn_append w _ w.registry.tasks.length i x rfl, hx]
    simp
  refine ⟨h.stands.entered ht _ _ _ _, fun hnone => ?_, fun hapart u hu hpath ha => ?_⟩
  · rw [entered_tasks] at hnone
    rw [hdrawn]
    split at hnone
    · cases hnone
    · exact h.absent hnone
  · rw [hdrawn]
    rw [entered_tasks] at hu
    split at hu
    · rename_i hi
      cases hu
      rw [hw]
      exact h.absent (List.getElem?_eq_none (Nat.le_of_eq hi.symm))
    · refine h.present (fun j v hj hv => hapart j v hj ?_) u hu hpath ha
      rw [entered_tasks, if_neg (Nat.ne_of_lt (List.getElem?_eq_some_iff.mp hv).1)]
      exact hv

theorem Sheltered.moved (h : w.Sheltered i path) {k : Nat} {m : Moment} {files : σ}
    {t t' : ReportTask} {x : Option Happening} {pool : Slots Nat}
    (hc : w.registry.tasks[k]? = some t) (hm : Move w.registry m k w.files t x t' pool files)
    (correlation : Option Correlation) :
    (w.moved k x t' pool correlation files).Sheltered i path := by
  have hdrawn := drawn_append w (w.moved k x t' pool correlation files) k i x rfl
  have hs := h.stands k t hc
  have htasks := moved_tasks hc x t' pool correlation files
  have hback : (w.moved k x t' pool correlation files).Apart i path → w.Apart i path := by
    intro hapart j u hj hu hne
    rcases Decidable.em (k = j) with rfl | hk
    · cases hc.symm.trans hu
      have he := hm.path_eq hs hne
      exact he ▸ hapart k t' hj (by rw [htasks, if_pos rfl]) (he ▸ hne)
    · exact hapart j u hj (by rw [htasks, if_neg hk]; exact hu) hne
  refine ⟨h.stands.moved hc hm correlation, fun hnone => ?_, fun hapart u hu hpath ha => ?_⟩
  · rw [htasks] at hnone
    split at hnone
    · cases hnone
    · rename_i hk
      rw [hdrawn, if_neg hk, List.append_nil]
      exact h.absent hnone
  · rw [htasks] at hu
    rw [hdrawn]
    split at hu
    · rename_i hk
      cases hu
      subst hk
      rw [if_pos rfl]
      have hold : t.path ≠ "" → t.path = path := fun hne => by
        have he := hm.path_eq hs hne
        exact he.symm.trans (hpath (he ▸ hne))
      exact Carried.move (h.present (hback hapart) t hc hold) hs hpath hm ha
    · rename_i hk
      rw [if_neg hk, List.append_nil]
      exact (h.present (hback hapart) u hu hpath ha).of_shows
        (hm.shows_apart hs ((hback hapart) k t hk hc))

theorem Sheltered.step (h : w.Sheltered i path) (e : Event σ × Moment)
    (helse : ∀ change, e.1 = .elsewhere change → ∀ (files : σ) shown,
      FileView.Shows path shown files → FileView.Shows path shown (change files)) :
    (w.step e).Sheltered i path :=
  step_induction (P := fun w => w.Sheltered i path) e
    (fun _ _ _ _ h _ _ _ _ =>
      h.entered (standing_newTask _ _ _ _ rfl) (newTask_worker _ _ _ _) _ _ _ rfl)
    (fun _ _ _ _ _ h _ _ =>
      h.entered (standing_newTask _ _ _ _ rfl) (newTask_worker _ _ _ _) _ _ _ rfl)
    (fun _ _ _ _ _ _ correlation _ h hc hm => h.moved hc hm correlation)
    (fun _ _ h => ⟨h.stands, h.absent, h.present⟩)
    (fun w change he h => ⟨h.stands, h.absent, fun hapart t ht hpath ha =>
      (h.present hapart t ht hpath ha).of_shows fun hs => helse change he w.files _ hs⟩) h

/-! ## Names and what they keep -/

/-- What becomes of the outputs of jobs in a run. -/
structure OutputsKept (start : World σ) (es : List (Event σ × Moment)) : Prop where
  /-- A job names its output when it decides on it. -/
  named : ∀ i t, (start.play es).registry.tasks[i]? = some t → t.path ≠ "" →
    ∃ now, start.decided? i es = some now ∧ t.path =
      Path.join start.registry.settings.directory (fileName t.job.runId now t.job.isPartial)
  /-- Jobs share an output exactly if they are of one run and one kind and decide in one second. -/
  shared : ∀ i j t u, (start.play es).registry.tasks[i]? = some t →
    (start.play es).registry.tasks[j]? = some u → t.path ≠ "" → u.path ≠ "" →
    (t.path = u.path ↔ t.job.runId = u.job.runId ∧ t.job.isPartial = u.job.isPartial ∧
      (start.decided? i es).map Instant.stamp = (start.decided? j es).map Instant.stamp)
  /-- A done job that shares its output with no other keeps there what was drawn for it. -/
  kept : ∀ i t, (start.play es).registry.tasks[i]? = some t → t.job.state = .done →
    t.job.output = some t.path ∧
    ((∀ j u, j ≠ i → (start.play es).registry.tasks[j]? = some u → u.path ≠ t.path) →
      (∀ e ∈ es, ∀ change, e.1 = .elsewhere change → ∀ (files : σ) shown,
        FileView.Shows t.path shown files → FileView.Shows t.path shown (change files)) →
      ∃ pdf, (start.play es).drawn i = [pdf] ∧
        FileView.Shows t.path (some (.document pdf)) (start.play es).files)

theorem outputsKept_play (hapart : NamesApart σ) (settings : ReportSettings)
    (correlation : Option Correlation) (files : σ) (es : List (Event σ × Moment)) :
    (new settings correlation files).OutputsKept es := by
  have hnew := stands_new settings correlation files
  have hstands : ((new settings correlation files).play es).Stands := hnew.play es
  have hempty : ∀ i, (new settings correlation files).output i = "" := fun _ => rfl
  have hnamed : ∀ (i : Nat) (t : ReportTask),
      ((new settings correlation files).play es).registry.tasks[i]? = some t → t.path ≠ "" →
      ∃ now, (new settings correlation files).decided? i es = some now ∧
        t.path = Path.join settings.directory (fileName t.job.runId now t.job.isPartial) :=
    fun i t ht hne => play_named hnew (hempty i) (label?_of_task ht) hne
  have hgood : ∀ (i : Nat) (t : ReportTask),
      ((new settings correlation files).play es).registry.tasks[i]? = some t →
      RunId.wellFormed t.job.runId = true := by
    intro i t ht
    have hnone : ∀ j, (new settings correlation files).label? j = none := fun _ => rfl
    have hrun := play_wellFormed hnew (fun j l hl => by rw [hnone j] at hl; cases hl)
      (label?_of_task ht)
    exact hrun
  refine ⟨hnamed, fun i j t u ht hu hnet hneu => ?_, fun i t ht hd => ?_⟩
  · obtain ⟨now, hnow, hpath⟩ := hnamed i t ht hnet
    obtain ⟨now', hnow', hpath'⟩ := hnamed j u hu hneu
    rw [hpath, hpath', Path.join_inj, fileName_inj (hgood i t ht) (hgood j u hu), hnow, hnow']
    simp [and_comm]
  · obtain ⟨hout, hne, ha, hw⟩ := (hstands i t ht).of_done hd
    refine ⟨hout, fun hown helse => ?_⟩
    have hsheltered : ((new settings correlation files).play es).Sheltered i t.path :=
      play_induction (P := fun w => w.Sheltered i t.path) (fun _ e he h => h.step e (helse e he))
        (sheltered_new settings correlation files i t.path)
    have hother : ((new settings correlation files).play es).Apart i t.path := by
      intro j u hj hu hneu
      obtain ⟨now, -, hpath⟩ := hnamed i t ht hne
      obtain ⟨now', -, hpath'⟩ := hnamed j u hu hneu
      have hdiffers := hown j u hj hu
      rw [hpath, hpath'] at hdiffers ⊢
      exact hapart _ _ _ ⟨_, _, _, hgood j u hu, rfl⟩ ⟨_, _, _, hgood i t ht, rfl⟩
        fun hname => hdiffers (Path.join_inj.mpr hname)
    have hcarried := hsheltered.present hother t ht (fun _ => rfl) ha
    rw [hw] at hcarried
    exact hcarried

/-- **Jobs interfere exactly where they share an output, and they share it exactly within a second of
one run and kind.** In memory and on disk alike, a job names its output for its run, its kind and the
second in which it decides, and a done job keeps what was drawn for it as long as no other job has
that name. -/
theorem play_outputs_kept (settings : ReportSettings) (correlation : Option Correlation)
    (memory : MemoryFiles) (disk : Disk) (inMemory : List (Event MemoryFiles × Moment))
    (onDisk : List (Event Disk × Moment)) :
    (new settings correlation memory).OutputsKept inMemory ∧
    (new settings correlation disk).OutputsKept onDisk :=
  ⟨outputsKept_play namesApart_memory settings correlation memory inMemory,
    outputsKept_play namesApart_disk settings correlation disk onDisk⟩

/-! ## An output that is lost -/

def dawnAt (timer : Nat) : Moment := ⟨⟨20000, Instant.secondOf 21600, Instant.nanoOf 0⟩, 0, timer⟩

def liveRun : Run := ⟨"op-live-0001", "Live", "acme", .running, none, none, []⟩

/-- Two partial reports of one run are asked for in one second. The first is written and done; the
renderer keeps the second until its deadline. -/
def crossing : List (Event MemoryFiles × Moment) :=
  [(.requestPartial liveRun ⟨1⟩, dawnAt 0), (.begin 0, dawnAt 0),
    (.requestPartial liveRun ⟨2⟩, dawnAt 0), (.begin 1, dawnAt 0), (.work 0 none, dawnAt 0),
    (.work 0 none, dawnAt 0), (.work 0 none, dawnAt 0), (.work 0 none, dawnAt 0),
    (.work 0 none, dawnAt 0), (.finish 0, dawnAt 0), (.expire 1, dawnAt 30000),
    (.discard 1, dawnAt 30000), (.mark 1, dawnAt 30000)]

def crossed : World MemoryFiles :=
  (new ⟨2, 30000, "out", ""⟩ none MemoryFiles.empty).play crossing

def sharedOutput : String := "out/report_op-live-0001_20241004_060000_partial.pdf"

set_option maxRecDepth 4000 in
/-- The second job is out of time and removes the report of the first, which stays done. -/
theorem crossed_output_lost :
    crossed.registry.tasks.map (fun t => (t.job.state, t.path)) =
      [(.done, sharedOutput), (.timedOut, sharedOutput)] ∧
    (crossed.registry.job? 0).map (·.output) = some (some sharedOutput) ∧
    FileView.Shows sharedOutput none crossed.files :=
  ⟨rfl, rfl, rfl⟩

end World
end AfterAction.Registry
