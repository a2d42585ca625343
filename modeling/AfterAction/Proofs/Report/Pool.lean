import AfterAction.Proofs.Report.Output
import Mathlib.Data.List.Basic

/-!
# Places in the pool

A place in the pool goes from a task to its worker and comes back when the worker returns, whatever
has become of the job by then. `Staffed` says who has one: the workers that have not returned and
the tasks that were handed one and have not noticed. A task whose deadline fires while it waits
leaves the line, or gives back what it was handed, and never has a worker.
-/

namespace AfterAction.Registry

/-- The worker has been started and has not returned. -/
def atWork (t : ReportTask) : Bool :=
  match t.worker with
  | none | some (.returned _) => false
  | some _ => true

/-- The worker is with the renderer. -/
def draws (t : ReportTask) : Bool :=
  match t.worker with
  | some (.drawing _) => true
  | _ => false

/-- The task waits for a worker. -/
def awaits (t : ReportTask) : Bool :=
  match t.phase with
  | .waiting .. => true
  | _ => false

/-- The task has a place in the pool or waits for one. -/
def occupied (t : ReportTask) : Bool := atWork t || awaits t

/-- The jobs whose tasks are like that. -/
def jobsWhere (r : Registry) (p : ReportTask → Bool) : List Nat :=
  (List.range r.tasks.length).filter fun i => r.tasks[i]?.any p

def working (r : Registry) : List Nat := r.jobsWhere atWork

def drawing (r : Registry) : List Nat := r.jobsWhere draws

/-- Tasks that were handed a place and have not noticed. -/
def handed (r : Registry) : List Nat := (r.jobsWhere awaits).filter r.pool.holds

theorem mem_jobsWhere {r : Registry} {p : ReportTask → Bool} {i : Nat} :
    i ∈ r.jobsWhere p ↔ ∃ t, r.tasks[i]? = some t ∧ p t = true := by
  rw [jobsWhere, List.mem_filter, List.mem_range, Option.any_eq_true]
  refine and_iff_right_of_imp ?_
  rintro ⟨t, ht, -⟩
  exact (List.getElem?_eq_some_iff.mp ht).1

theorem nodup_jobsWhere (r : Registry) (p : ReportTask → Bool) : (r.jobsWhere p).Nodup :=
  List.nodup_range.filter _

theorem jobsWhere_sublist (r : Registry) {p q : ReportTask → Bool}
    (h : ∀ t, p t = true → q t = true) : (r.jobsWhere p).Sublist (r.jobsWhere q) := by
  refine List.monotone_filter_right _ fun i hi => ?_
  obtain ⟨t, ht, hp⟩ := (Option.any_eq_true ..).mp hi
  exact (Option.any_eq_true ..).mpr ⟨t, ht, h t hp⟩

theorem draws_atWork {t : ReportTask} (h : draws t = true) : atWork t = true := by
  unfold draws at h
  split at h
  · rename_i hw
    rw [atWork, hw]
  · cases h

theorem Standing.not_atWork {t : ReportTask} (h : Standing t) (ha : awaits t = true) :
    atWork t = false := by
  unfold Standing at h
  cases hp : t.phase with
  | waiting =>
    rw [hp] at h
    rw [atWork, h.2.2.2]
  | _ => simp [awaits, hp] at ha

/-! ## Who has a place -/

/-- Who has a place in the pool, and who waits for one. -/
structure Staffed (r : Registry) (places : Nat) : Prop where
  balanced : r.pool.Balanced
  total : r.pool.total = places
  nodup : (r.pool.holders ++ r.pool.waiting).Nodup
  members : ∀ i, i ∈ r.pool.holders ++ r.pool.waiting ↔ i ∈ r.jobsWhere occupied
  line : ∀ i ∈ r.pool.waiting, i ∈ r.jobsWhere awaits

variable {r : Registry} {places i : Nat} {t t' : ReportTask} {pool : Slots Nat}

theorem staffed_new (settings : ReportSettings) :
    (Registry.new settings).Staffed (max settings.workers 1) where
  balanced := Slots.balanced_new _
  total := rfl
  nodup := List.nodup_nil
  members := fun i => by simp [Registry.new, Slots.new, jobsWhere]
  line := fun i hi => by simp [Registry.new, Slots.new] at hi

theorem mem_jobsWhere_set (hc : r.tasks[i]? = some t) (pool : Slots Nat) (t' : ReportTask)
    (p : ReportTask → Bool) (j : Nat) :
    j ∈ jobsWhere { r with pool, tasks := r.tasks.set i t' } p ↔
      if j = i then p t' = true else j ∈ r.jobsWhere p := by
  have hlt := (List.getElem?_eq_some_iff.mp hc).1
  rw [mem_jobsWhere]
  show (∃ u, (r.tasks.set i t')[j]? = some u ∧ p u = true) ↔ _
  split
  · rename_i he
    subst he
    simp [List.getElem?_set_self hlt]
  · rename_i hne
    rw [List.getElem?_set_ne (Ne.symm hne), ← mem_jobsWhere]

/-- A worker that has not returned has a place. -/
theorem Staffed.holds_of_atWork (h : r.Staffed places) (hs : Standing t)
    (hc : r.tasks[i]? = some t) (hw : atWork t = true) : i ∈ r.pool.holders := by
  have ho : occupied t = true := by rw [occupied, hw]; rfl
  rcases List.mem_append.mp ((h.members i).mpr (mem_jobsWhere.mpr ⟨t, hc, ho⟩)) with hi | hi
  · exact hi
  · obtain ⟨u, hu, ha⟩ := mem_jobsWhere.mp (h.line i hi)
    cases hc.symm.trans hu
    rw [hs.not_atWork ha] at hw
    cases hw

/-- A task that keeps its place, or still has none. -/
theorem Staffed.stays (h : r.Staffed places) (hc : r.tasks[i]? = some t)
    (ho : occupied t' = occupied t) (hl : i ∈ r.pool.waiting → awaits t' = true) :
    Staffed { r with tasks := r.tasks.set i t' } places where
  balanced := h.balanced
  total := h.total
  nodup := h.nodup
  members j := by
    rw [mem_jobsWhere_set hc r.pool]
    split
    · rename_i he
      subst he
      rw [ho, h.members, mem_jobsWhere, hc]
      simp
    · exact h.members j
  line j hj := by
    rw [mem_jobsWhere_set hc r.pool]
    split
    · rename_i he
      exact hl (he ▸ hj)
    · exact h.line j hj

theorem Staffed.nodup_ask (h : r.Staffed places) (hc : r.tasks[i]? = some t)
    (ho : occupied t = false) : ((r.pool.ask i).holders ++ (r.pool.ask i).waiting).Nodup := by
  have hno : i ∉ r.pool.holders ++ r.pool.waiting := fun hi => by
    obtain ⟨u, hu, hp⟩ := mem_jobsWhere.mp ((h.members i).mp hi)
    cases hc.symm.trans hu
    rw [ho] at hp
    cases hp
  exact (Slots.members_ask r.pool i).nodup_iff.mpr (List.nodup_cons.mpr ⟨hno, h.nodup⟩)

/-- A task that asks for a place. -/
theorem Staffed.joins (h : r.Staffed places) (hc : r.tasks[i]? = some t) (ho : occupied t = false)
    (ho' : occupied t' = true) (hl : i ∈ (r.pool.ask i).waiting → awaits t' = true) :
    Staffed { r with pool := r.pool.ask i, tasks := r.tasks.set i t' } places where
  balanced := h.balanced.ask i
  total := (Slots.total_ask r.pool i).trans h.total
  nodup := h.nodup_ask hc ho
  members j := by
    rw [mem_jobsWhere_set hc, (Slots.members_ask r.pool i).mem_iff, List.mem_cons, h.members]
    split
    · simp [*]
    · simp [*]
  line j hj := by
    rw [mem_jobsWhere_set hc]
    split
    · rename_i he
      exact hl (he ▸ hj)
    · rename_i hne
      exact h.line j ((Slots.mem_waiting_ask hj).resolve_right hne)

/-- A task or a worker that leaves the pool or the line before it. -/
theorem Staffed.leaves (h : r.Staffed places) (hc : r.tasks[i]? = some t)
    (ho' : occupied t' = false) (hb : pool.Balanced) (ht : pool.total = r.pool.total)
    (hm : pool.holders ++ pool.waiting = (r.pool.holders ++ r.pool.waiting).erase i)
    (hl : ∀ j ∈ pool.waiting, j ∈ r.pool.waiting) :
    Staffed { r with pool, tasks := r.tasks.set i t' } places where
  balanced := hb
  total := ht.trans h.total
  nodup := by
    show (pool.holders ++ pool.waiting).Nodup
    rw [hm]
    exact h.nodup.erase i
  members j := by
    show j ∈ pool.holders ++ pool.waiting ↔ _
    rw [mem_jobsWhere_set hc, hm, h.nodup.mem_erase_iff, h.members]
    split
    · simp [*]
    · simp [*]
  line j hj := by
    have hne : j ≠ i := fun he => by
      have hin : j ∈ pool.holders ++ pool.waiting := List.mem_append_right _ hj
      rw [hm] at hin
      exact (h.nodup.mem_erase_iff.mp hin).1 he
    rw [mem_jobsWhere_set hc, if_neg hne]
    exact h.line j (hl j hj)

theorem Staffed.entered (h : r.Staffed places) (ho : occupied t = false)
    (tracked : List (String × Nat)) (partials : List Nat) (group : TaskGroup Nat) :
    (r.entered t tracked partials group).Staffed places := by
  have hmem : ∀ p : ReportTask → Bool, p t = false → ∀ j,
      j ∈ (r.entered t tracked partials group).jobsWhere p ↔ j ∈ r.jobsWhere p := by
    intro p hp j
    rw [mem_jobsWhere, mem_jobsWhere]
    show (∃ u, (r.tasks ++ [t])[j]? = some u ∧ p u = true) ↔ _
    rcases Nat.lt_trichotomy j r.tasks.length with hj | rfl | hj
    · rw [List.getElem?_append_left hj]
    · rw [List.getElem?_concat_length, List.getElem?_eq_none (Nat.le_refl _)]
      simp [hp]
    · have hout : (r.tasks ++ [t])[j]? = none :=
        List.getElem?_eq_none (by rw [List.length_append]; exact hj)
      rw [hout, List.getElem?_eq_none (Nat.le_of_lt hj)]
  have ha : awaits t = false := (Bool.or_eq_false_iff.mp ho).2
  exact ⟨h.balanced, h.total, h.nodup, fun j => (h.members j).trans (hmem _ ho j).symm,
    fun j hj => (hmem _ ha j).mpr (h.line j hj)⟩

theorem occupied_newTask (r : Registry) (run : Run) (job : ReportJob) (m : Moment) :
    occupied (newTask r run job m) = false := by
  unfold newTask
  split <;> rfl

section
variable {σ : Type} [FileStore σ] {m : Moment} {files files' : σ} {x : Option Happening}

theorem Work.atWork {v v' : Worker} (hw : Work r t m files v x v' files') :
    atWork { t with worker := some v } = true := by
  cases hw with
  | _ => rfl

theorem Staffed.worked (h : r.Staffed places) (hs : Standing t) (hc : r.tasks[i]? = some t)
    {v v' : Worker} (hv : t.worker = some v) (hw : Work r t m files v x v' files') :
    Staffed { r with
      pool := poolAfter r.pool i v'
      tasks := r.tasks.set i { t with worker := some v' } } places := by
  have hat : atWork t = true := by
    have := hw.atWork
    rwa [← hv] at this
  have hno : awaits t = false := Bool.eq_false_iff.mpr fun ha => by
    rw [hs.not_atWork ha] at hat
    cases hat
  have hin := h.holds_of_atWork hs hc hat
  cases hv' : v' with
  | returned result =>
    have hout : occupied { t with worker := some (.returned result) } = false :=
      Bool.or_eq_false_iff.mpr ⟨rfl, hno⟩
    exact h.leaves hc hout (h.balanced.release i) (Slots.total_release _ _)
      (Slots.members_release hin) fun j hj => Slots.mem_waiting_release hj
  | _ =>
    refine h.stays hc ?_ fun hl => ?_
    · show (true || _) = (Registry.atWork t || _)
      rw [hat]
      rfl
    · exact absurd rfl ((List.nodup_append.mp h.nodup).2.2 i hin i hl)

theorem Staffed.move (h : r.Staffed places) (hs : Standing t) (hc : r.tasks[i]? = some t)
    (hm : Move r m i files t x t' pool files') :
    Staffed { r with pool, tasks := r.tasks.set i t' } places := by
  have hline : awaits t = false → i ∉ r.pool.waiting := fun ha hi => by
    obtain ⟨u, hu, hp⟩ := mem_jobsWhere.mp (h.line i hi)
    cases hc.symm.trans hu
    rw [ha] at hp
    cases hp
  have hquiet : awaits t = false → awaits t' = false → atWork t' = atWork t →
      Staffed { r with tasks := r.tasks.set i t' } places := fun ha ha' hw =>
    h.stays hc (by rw [occupied, occupied, ha, ha', hw]) fun hi => absurd hi (hline ha)
  have hnot : ∀ {pool : Slots Nat}, (pool.holders ++ pool.waiting).Nodup → pool.holds i = true →
      i ∉ pool.waiting := fun hn hh hi =>
    (List.nodup_append.mp hn).2.2 i (of_decide_eq_true hh) i hi rfl
  have hnew : undecided t.phase = true → occupied t = false := fun hu => by
    obtain ⟨_, _, _, hw⟩ := hs.undecided hu
    cases hp : t.phase with
    | fresh | asking => simp [occupied, Registry.atWork, awaits, hw, hp]
    | _ =>
      rw [hp] at hu
      cases hu
  cases hm with
  | asking query hp => exact hquiet (by rw [awaits, hp]) rfl rfl
  | lined path detections deadline hu _ => exact h.joins hc (hnew hu) (Bool.or_true _) fun _ => rfl
  | enlisted path detections deadline hu _ hh =>
    exact h.joins hc (hnew hu) rfl fun hi => absurd hi (hnot (h.nodup_ask hc (hnew hu)) hh)
  | noticed detections deadline hp hh =>
    refine h.stays hc ?_ fun hi => absurd hi (hnot h.nodup hh)
    rw [occupied, occupied, show awaits t = true by rw [awaits, hp], Bool.or_true]
    rfl
  | expiredWaiting detections deadline hp _ =>
    have ha : awaits t = true := by rw [awaits, hp]
    have hin : i ∈ r.pool.holders ++ r.pool.waiting :=
      (h.members i).mpr (mem_jobsWhere.mpr ⟨t, hc, by rw [occupied, ha, Bool.or_true]⟩)
    have hout : occupied (givenUp t) = false := Bool.or_eq_false_iff.mpr ⟨hs.not_atWork ha, rfl⟩
    exact h.leaves hc hout (h.balanced.leave i) (Slots.total_leave _ _)
      (Slots.members_leave h.nodup hin) fun j hj => Slots.mem_waiting_leave hj
  | expiredRendering deadline hp _ => exact hquiet (by rw [awaits, hp]) rfl rfl
  | discarded answer files' hp _ => exact hquiet (by rw [awaits, hp]) rfl rfl
  | marked error hp => exact hquiet (by rw [awaits, hp]) rfl rfl
  | done deadline hp _ => exact hquiet (by rw [awaits, hp]) rfl rfl
  | failed deadline fault hp _ => exact hquiet (by rw [awaits, hp]) rfl rfl
  | worked v v' x files' hv hw => exact h.worked hs hc hv hw

end

/-! ## What is drawn -/

/-- The renderer has answered the worker. -/
def isAnswered (t : ReportTask) : Bool :=
  match t.worker with
  | none | some (.drawing _) => false
  | some _ => true

/-- A draw takes the worker away from the renderer, and nothing takes it back there. -/
theorem Move.draws_once {σ : Type} [FileStore σ] {m : Moment} {files files' : σ}
    {x : Option Happening} (hm : Move r m i files t x t' pool files') (hs : Standing t) :
    (x.bind drawnBy).toList.length + (isAnswered t).toNat ≤ (isAnswered t').toNat := by
  have hnone : t.worker = none → (isAnswered t).toNat = 0 := fun hw => by
    rw [isAnswered, hw]
    rfl
  cases hm with
  | enlisted path detections deadline hu =>
    obtain ⟨_, _, _, hw⟩ := hs.undecided hu
    rw [hnone hw]
    exact Nat.zero_le _
  | noticed detections deadline hp =>
    rw [Standing, hp] at hs
    rw [hnone hs.2.2.2]
    exact Nat.zero_le _
  | worked v v' x files' hv hw =>
    rw [isAnswered, hv]
    cases hw with
    | _ => exact Nat.le_of_ble_eq_true rfl
  | _ => exact Nat.le_of_eq (Nat.zero_add _)

namespace World

variable {σ : Type} {w : World σ}

/-- Each job is drawn at most once, and not before its worker has come back from the renderer. -/
def DrawsOnce (w : World σ) : Prop :=
  ∀ j, (w.drawn j).length ≤ (w.registry.tasks[j]?.any isAnswered).toNat

theorem DrawsOnce.entered (h : w.DrawsOnce) (tracked : List (String × Nat)) (partials : List Nat)
    (group : TaskGroup Nat) {x : Option Happening} (hx : x.bind drawnBy = none) :
    (w.entered t tracked partials group x).DrawsOnce := by
  intro j
  have hdrawn : (w.entered t tracked partials group x).drawn j = w.drawn j := by
    rw [drawn_append w _ w.registry.tasks.length j x rfl, hx]
    simp
  have hj := h j
  rw [hdrawn, entered_tasks]
  split
  · rename_i he
    rw [List.getElem?_eq_none (Nat.le_of_eq he.symm)] at hj
    exact Nat.le_trans hj (Nat.zero_le _)
  · exact hj

/-- Where there is no worker nothing is drawn. -/
theorem DrawsOnce.drawn_eq_nil (h : w.DrawsOnce) (hc : w.registry.tasks[i]? = some t)
    (hw : t.worker = none) : w.drawn i = [] := by
  have hi := h i
  rw [hc, Option.any_some, isAnswered, hw] at hi
  exact List.eq_nil_of_length_eq_zero (Nat.le_zero.mp hi)

variable [FileStore σ] {m : Moment} {files : σ} {x : Option Happening}

theorem DrawsOnce.moved (h : w.DrawsOnce) (hs : Standing t) (hc : w.registry.tasks[i]? = some t)
    (hm : Move w.registry m i w.files t x t' pool files) (correlation : Option Correlation) :
    (w.moved i x t' pool correlation files).DrawsOnce := by
  intro j
  have hj := h j
  rw [drawn_append w (w.moved i x t' pool correlation files) i j x rfl, List.length_append,
    moved_tasks hc]
  split
  · rename_i he
    subst he
    rw [hc, Option.any_some] at hj
    rw [Option.any_some]
    have hm := hm.draws_once hs
    omega
  · exact hj

/-- Only a worker that is with the renderer gets something drawn. -/
theorem mem_drawing_of_drawn {e : Event σ × Moment} (h : (w.step e).drawn i ≠ w.drawn i) :
    i ∈ w.registry.drawing := by
  obtain ⟨e, m⟩ := e
  have hlog : (w.step (e, m)).log = w.log ++ (w.happening? m e).toList := rfl
  rw [drawn, hlog, List.filterMap_append] at h
  cases hx : w.happening? m e with
  | none =>
    rw [hx] at h
    exact absurd (List.append_nil _) h
  | some entry =>
    obtain ⟨j, x⟩ := entry
    rw [hx] at h
    have hdrew : j = i ∧ drawnBy x ≠ none := by
      by_cases hj : j = i
      · refine ⟨hj, fun hd => h ?_⟩
        simp [drawn, hj, hd]
      · exact absurd (by simp [drawn, hj]) h
    obtain ⟨rfl, hd⟩ := hdrew
    simp only [happening?] at hx
    split at hx
    · split at hx
      · cases hx
      · cases hx
        exact absurd rfl hd
    · split at hx
      · cases hx
        exact absurd rfl hd
      · cases hx
    · split at hx
      · cases hx
        exact mem_jobsWhere.mpr ⟨_, ‹_›, rfl⟩
      · cases hx
        exact absurd rfl hd
      · cases hx
    · cases hx

end World

/-! ## Jobs given up before they had a worker -/

theorem Standing.of_dismissed (hs : Standing t) (hw : t.worker = none) (ha : t.abandoned = true) :
    t.job.state = .queued ∨ t.job.state = .timedOut := by
  have hno : t.abandoned ≠ false := by rw [ha]; nofun
  unfold Standing at hs
  split at hs
  · exact absurd hs.2.2.1 hno
  · exact absurd hs.2.2.1 hno
  · exact absurd hs.2.2.1 hno
  · exact absurd hs.2.2.1 hno
  · exact .inl (hs.2.2.resolve_right fun h => h.2 hw).1
  · exact .inl (hs.2.2.resolve_right fun h => h.2 hw).1
  · cases hs with
    | done _ _ _ ha' => exact absurd ha' hno
    | failed _ _ ha' => exact absurd ha' hno
    | refused _ ha' => exact absurd ha' hno
    | timedOut hstate => exact .inr hstate

theorem Move.of_dismissed {σ : Type} [FileStore σ] {m : Moment} {files files' : σ}
    {x : Option Happening} (hm : Move r m i files t x t' pool files') (hs : Standing t)
    (hw : t.worker = none) (ha : t.abandoned = true) : t'.worker = none ∧ t'.abandoned = true := by
  have hno : t.abandoned ≠ false := by rw [ha]; nofun
  cases hm with
  | asking query hp => exact absurd (hs.undecided (by rw [hp]; rfl)).2.2.1 hno
  | lined path detections deadline hu => exact absurd (hs.undecided hu).2.2.1 hno
  | enlisted path detections deadline hu => exact absurd (hs.undecided hu).2.2.1 hno
  | noticed detections deadline hp =>
    rw [Standing, hp] at hs
    exact absurd hs.2.2.1 hno
  | worked v v' x files' hv _ => cases hw.symm.trans hv
  | expiredWaiting | expiredRendering => exact ⟨hw, rfl⟩
  | discarded | marked | done | failed => exact ⟨hw, ha⟩

namespace World

variable {σ : Type} {w : World σ}

/-- The deadline has passed, and the job has no worker. -/
def Dismissed (w : World σ) (i : Nat) : Prop :=
  ∃ t, w.registry.tasks[i]? = some t ∧ t.worker = none ∧ t.abandoned = true

theorem Dismissed.entered (h : w.Dismissed i) (t : ReportTask) (tracked : List (String × Nat))
    (partials : List Nat) (group : TaskGroup Nat) (x : Option Happening) :
    (w.entered t tracked partials group x).Dismissed i := by
  obtain ⟨u, hu, hw, ha⟩ := h
  refine ⟨u, ?_, hw, ha⟩
  rw [entered_tasks, if_neg (Nat.ne_of_lt (List.getElem?_eq_some_iff.mp hu).1), hu]

variable [FileStore σ] {m : Moment} {files : σ} {x : Option Happening}

theorem Dismissed.moved {k : Nat} (h : w.Dismissed i) (hs : Standing t)
    (hc : w.registry.tasks[k]? = some t) (hm : Move w.registry m k w.files t x t' pool files)
    (correlation : Option Correlation) : (w.moved k x t' pool correlation files).Dismissed i := by
  obtain ⟨u, hu, hw, ha⟩ := h
  have htasks := moved_tasks hc x t' pool correlation files i
  rcases Decidable.em (k = i) with rfl | hne
  · cases hu.symm.trans hc
    rw [if_pos rfl] at htasks
    exact ⟨t', htasks, hm.of_dismissed hs hw ha⟩
  · rw [if_neg hne] at htasks
    exact ⟨u, htasks.trans hu, hw, ha⟩

theorem Dismissed.step (h : w.Dismissed i) (hs : w.Stands) (e : Event σ × Moment) :
    (w.step e).Dismissed i :=
  (step_induction (P := fun w => w.Stands ∧ w.Dismissed i) e
    (fun _ _ _ _ h _ _ _ _ => ⟨h.1.entered (standing_newTask _ _ _ _ rfl) _ _ _ _,
      h.2.entered _ _ _ _ _⟩)
    (fun _ _ _ _ _ h _ _ => ⟨h.1.entered (standing_newTask _ _ _ _ rfl) _ _ _ _,
      h.2.entered _ _ _ _ _⟩)
    (fun _ k t _ _ _ correlation _ h hc hm => ⟨h.1.moved hc hm correlation,
      h.2.moved (h.1 k t hc) hc hm correlation⟩)
    (fun _ _ h => h) (fun _ _ _ h => h) ⟨hs, h⟩).2

theorem Dismissed.play (h : w.Dismissed i) (hs : w.Stands) (es : List (Event σ × Moment)) :
    (w.play es).Dismissed i :=
  (play_induction (P := fun w => w.Stands ∧ w.Dismissed i)
    (fun _ e _ h => ⟨h.1.step e, h.2.step h.1 e⟩) ⟨hs, h⟩).2

/-- A deadline that fires while the task waits for a worker dismisses the job. -/
theorem Stands.dismissed (hs : w.Stands) (hc : w.registry.tasks[i]? = some t)
    {detections : Detections} {deadline : Nat} (hp : t.phase = .waiting detections deadline)
    (hd : deadline ≤ m.timer) : (w.step (.expire i, m)).Dismissed i := by
  have hstanding := hs i t hc
  rw [Standing, hp] at hstanding
  refine ⟨givenUp t, ?_, hstanding.2.2.2, rfl⟩
  simp [World.step, happen, expire, phase?, hc, hp, hd, givenUp]

/-! ## Runs -/

/-- What a run keeps. -/
structure Manned (w : World σ) (places : Nat) : Prop where
  stands : w.Stands
  staffed : w.registry.Staffed places
  draws : w.DrawsOnce

omit [FileStore σ] in
theorem manned_new (settings : ReportSettings) (correlation : Option Correlation) (files : σ) :
    (new settings correlation files).Manned (max settings.workers 1) :=
  ⟨stands_new settings correlation files, staffed_new settings, fun _ => Nat.zero_le _⟩

omit [FileStore σ] in
theorem Manned.entered (h : w.Manned places) (ht : Standing t) (ho : occupied t = false)
    {tracked : List (String × Nat)} {partials : List Nat} {group : TaskGroup Nat}
    {x : Option Happening} (hx : x.bind drawnBy = none) :
    (w.entered t tracked partials group x).Manned places where
  stands := h.stands.entered ht _ _ _ _
  staffed := h.staffed.entered ho _ _ _
  draws := h.draws.entered _ _ _ hx

theorem Manned.moved (h : w.Manned places) (hc : w.registry.tasks[i]? = some t)
    (hm : Move w.registry m i w.files t x t' pool files) (correlation : Option Correlation) :
    (w.moved i x t' pool correlation files).Manned places where
  stands := h.stands.moved hc hm correlation
  staffed := h.staffed.move (h.stands i t hc) hc hm
  draws := h.draws.moved (h.stands i t hc) hc hm correlation

theorem Manned.step (h : w.Manned places) (e : Event σ × Moment) : (w.step e).Manned places :=
  step_induction (P := fun w => w.Manned places) e
    (fun _ _ _ _ h _ _ _ _ => h.entered (standing_newTask _ _ _ _ rfl) (occupied_newTask ..) rfl)
    (fun _ _ _ _ _ h _ _ => h.entered (standing_newTask _ _ _ _ rfl) (occupied_newTask ..) rfl)
    (fun _ _ _ _ _ _ correlation _ h hc hm => h.moved hc hm correlation)
    (fun _ _ h => ⟨h.stands, ⟨h.staffed.balanced, h.staffed.total, h.staffed.nodup,
      h.staffed.members, h.staffed.line⟩, h.draws⟩)
    (fun _ _ _ h => ⟨h.stands, h.staffed, h.draws⟩) h

theorem Manned.play (h : w.Manned places) (es : List (Event σ × Moment)) :
    (w.play es).Manned places :=
  play_induction (P := fun w => w.Manned places) (fun _ e _ h => h.step e) h

omit [FileStore σ] in
/-- Those who hold a place are the workers that have not returned and the tasks that were handed
one. -/
theorem Manned.holders_perm (h : w.Manned places) :
    (w.registry.working ++ w.registry.handed).Perm w.registry.pool.holders := by
  have hhanded : ∀ j ∈ w.registry.handed, j ∈ w.registry.jobsWhere awaits ∧
      j ∈ w.registry.pool.holders := fun j hj => by
    obtain ⟨ha, hh⟩ := List.mem_filter.mp hj
    exact ⟨ha, of_decide_eq_true hh⟩
  have hnodup : (w.registry.working ++ w.registry.handed).Nodup := by
    refine List.nodup_append.mpr ⟨nodup_jobsWhere _ _, (nodup_jobsWhere _ _).filter _, ?_⟩
    rintro j hw _ hj rfl
    obtain ⟨t, ht, hw⟩ := mem_jobsWhere.mp hw
    obtain ⟨u, hu, ha⟩ := mem_jobsWhere.mp (hhanded j hj).1
    cases ht.symm.trans hu
    rw [(h.stands j t ht).not_atWork ha] at hw
    cases hw
  have hholders := (List.nodup_append.mp h.staffed.nodup).1
  refine (List.perm_ext_iff_of_nodup hnodup hholders).mpr fun j => ?_
  rw [List.mem_append]
  constructor
  · rintro (hw | hj)
    · obtain ⟨t, ht, hw⟩ := mem_jobsWhere.mp hw
      exact h.staffed.holds_of_atWork (h.stands j t ht) ht hw
    · exact (hhanded j hj).2
  · intro hj
    obtain ⟨t, ht, ho⟩ := mem_jobsWhere.mp ((h.staffed.members j).mp (List.mem_append_left _ hj))
    rcases Bool.or_eq_true_iff.mp ho with hw | ha
    · exact .inl (mem_jobsWhere.mpr ⟨t, ht, hw⟩)
    · exact .inr (List.mem_filter.mpr ⟨mem_jobsWhere.mpr ⟨t, ht, ha⟩, decide_eq_true hj⟩)

/-- **Every place in the pool is accounted for.** The workers that have not returned, the tasks
that were handed a place and the idle places make up the pool, so there are never more jobs with
the renderer than places, and only a worker with a place draws. A job whose deadline fires while it
waits for a worker never has one. The pool is all idle again exactly when every worker that was
started has returned and no place is on its way to the next. -/
theorem pool_accounted (settings : ReportSettings) (correlation : Option Correlation) (files : σ)
    (es : List (Event σ × Moment)) :
    let w := (new settings correlation files).play es
    let r := w.registry
    let places := max settings.workers 1
    (r.working.length + r.handed.length + r.pool.idle = places ∧ r.drawing.length ≤ places) ∧
    ((∀ i ∈ r.working, r.pool.holds i = true) ∧
      ∀ i e, (w.step e).drawn i ≠ w.drawn i → i ∈ r.drawing ∧ i ∈ r.working) ∧
    (∀ i t detections deadline m es', r.tasks[i]? = some t →
      t.phase = .waiting detections deadline → deadline ≤ m.timer →
      let w' := (w.step (.expire i, m)).play es'
      w'.drawn i = [] ∧ ∃ t', w'.registry.tasks[i]? = some t' ∧ t'.worker = none ∧
        (t'.job.state = .queued ∨ t'.job.state = .timedOut)) ∧
    (r.pool.idle = places ↔ r.working = [] ∧ r.handed = []) := by
  intro w r places
  have h : w.Manned places := (manned_new settings correlation files).play es
  have hsum : r.working.length + r.handed.length + r.pool.idle = places := by
    have hheld : r.pool.idle + r.pool.holders.length = r.pool.total := h.staffed.balanced.held
    have htotal : r.pool.total = places := h.staffed.total
    have hperm : (r.working ++ r.handed).length = r.pool.holders.length := h.holders_perm.length_eq
    rw [List.length_append] at hperm
    omega
  have hdraws : r.drawing.Sublist r.working := jobsWhere_sublist r fun _ => draws_atWork
  refine ⟨⟨hsum, ?_⟩, ⟨fun i hi => ?_, fun i e hd => ?_⟩, ?_, ?_⟩
  · have := hdraws.length_le
    omega
  · exact decide_eq_true (h.holders_perm.subset (List.mem_append_left _ hi))
  · have hin : i ∈ r.drawing := mem_drawing_of_drawn hd
    exact ⟨hin, hdraws.subset hin⟩
  · intro i t detections deadline m es' hc hp hd w'
    have hm : w'.Manned places := (h.step _).play es'
    obtain ⟨t', ht', hw, ha⟩ := (h.stands.dismissed hc hp hd).play (h.step _).stands es'
    exact ⟨hm.draws.drawn_eq_nil ht' hw, t', ht', hw, (hm.stands i t' ht').of_dismissed hw ha⟩
  · rw [← List.length_eq_zero_iff, ← List.length_eq_zero_iff]
    omega

end World
end AfterAction.Registry
