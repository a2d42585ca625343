import AfterAction.Proofs.Report.Standing
import Mathlib.Data.List.Chain
import Mathlib.Data.List.Destutter

/-!
# The course of a job

A job's record lets anybody set any state at any time. What keeps it to one course is that its task
alone changes it, and does so from the phase it is in. `course` lists the values a job has had, each
in turn; two that follow each other are the same or one `Advances` to the other.

A request that needs a new job registers it before it asks for a task, so a job that is refused its
task has been queued for that moment. `registered?` is the registry then.
-/

namespace AfterAction

namespace JobState

/-- The states that may come next. -/
def leadsTo : JobState → JobState → Bool
  | .queued, .rendering | .queued, .failed | .queued, .timedOut => true
  | .rendering, s => s.isTerminal
  | _, _ => false

/-- The states of a job, one for each change: only one that was rendering is done, and nothing
follows the end. -/
inductive LifeCycle : List JobState → Prop
  | queued : LifeCycle [.queued]
  | rendering : LifeCycle [.queued, .rendering]
  | unrendered (s : JobState) : s = .failed ∨ s = .timedOut → LifeCycle [.queued, s]
  | rendered (s : JobState) : s.isTerminal = true → LifeCycle [.queued, .rendering, s]

theorem leadsTo_of_terminal {s s' : JobState} (hs : s.isTerminal = true) : s.leadsTo s' = false := by
  cases s with
  | queued | rendering => cases hs
  | done | failed | timedOut => rfl

theorem isChain_of_terminal {s : JobState} {rest : List JobState} (hs : s.isTerminal = true)
    (h : (s :: rest).IsChain (leadsTo · ·)) : rest = [] := by
  cases h with
  | singleton => rfl
  | cons_cons hab _ => exact absurd hab (by simp [leadsTo_of_terminal hs])

theorem LifeCycle.of_isChain {rest : List JobState} (h : (.queued :: rest).IsChain (leadsTo · ·)) :
    LifeCycle (.queued :: rest) := by
  cases h with
  | singleton => exact .queued
  | cons_cons hab h =>
    rename_i s rest
    cases s with
    | queued | done => cases hab
    | failed =>
      rw [isChain_of_terminal rfl h]
      exact .unrendered _ (.inl rfl)
    | timedOut =>
      rw [isChain_of_terminal rfl h]
      exact .unrendered _ (.inr rfl)
    | rendering =>
      cases h with
      | singleton => exact .rendering
      | cons_cons hbc h =>
        rw [isChain_of_terminal hbc h]
        exact .rendered _ hbc

end JobState

section
variable {α : Type} [DecidableEq α] {R : α → α → Prop}

/-- Where neighbours are equal or related, those that are left without the repetitions are
related. -/
theorem exists_isChain_destutter'_ne {a : α} {l : List α}
    (h : (a :: l).IsChain fun a b => b = a ∨ R a b) :
    ∃ rest, l.destutter' (· ≠ ·) a = a :: rest ∧ (a :: rest).IsChain R := by
  induction l generalizing a with
  | nil => exact ⟨[], rfl, .singleton a⟩
  | cons b l ih =>
    cases h with
    | cons_cons hab h =>
      obtain ⟨rest, he, hr⟩ := ih h
      by_cases hne : a = b
      · subst hne
        rw [List.destutter'_cons_neg _ (by simp)]
        exact ⟨rest, he, hr⟩
      · rw [List.destutter'_cons_pos _ hne, he]
        exact ⟨_, rfl, .cons_cons (hab.resolve_left (Ne.symm hne)) hr⟩

end

namespace ReportJob

/-- What says which request a job answers. -/
def particulars (job : ReportJob) : JobId × String × Bool × Instant :=
  (job.id, job.runId, job.isPartial, job.requestedAt)

/-- The end, the output and the error are there exactly in the states that have them. -/
structure Accounted (job : ReportJob) : Prop where
  finishedAt : job.finishedAt.isSome = true ↔ job.state.isTerminal = true
  output : job.output.isSome = true ↔ job.state = .done
  error : job.error.isSome = true ↔ job.state = .failed ∨ job.state = .timedOut

/-- One change to a job, or none. -/
inductive Advances : ReportJob → ReportJob → Prop
  | same (job : ReportJob) : Advances job job
  | rendering (job : ReportJob) : job.state = .queued → Advances job job.rendering
  | done (job : ReportJob) (output : String) (now : Instant) : job.state = .rendering →
      Advances job (job.done output now)
  | failed (job : ReportJob) (error : String) (now : Instant) : job.state.isTerminal = false →
      Advances job (job.failed error now)
  | timedOut (job : ReportJob) (error : String) (now : Instant) : job.state.isTerminal = false →
      Advances job (job.timedOut error now)

variable {job job' : ReportJob}

theorem accounted_queued (id : JobId) (runId : String) (isPartial : Bool) (now : Instant) :
    (queued id runId isPartial now).Accounted := by
  constructor <;> simp [queued, JobState.isTerminal]

theorem Advances.particulars_eq (h : Advances job job') : job'.particulars = job.particulars := by
  cases h with
  | _ => rfl

theorem Advances.state (h : Advances job job') :
    job'.state = job.state ∨ job.state.leadsTo job'.state = true := by
  have hopen : ∀ s : JobState, s.isTerminal = false → s = .queued ∨ s = .rendering := by
    intro s hs
    cases s with
    | queued => exact .inl rfl
    | rendering => exact .inr rfl
    | done | failed | timedOut => cases hs
  cases h with
  | same => exact .inl rfl
  | rendering hs | done _ _ hs =>
    refine .inr ?_
    rw [hs]
    rfl
  | failed _ _ hs | timedOut _ _ hs =>
    refine .inr ?_
    rcases hopen _ hs with hs | hs
    · rw [hs]
      rfl
    · rw [hs]
      rfl

/-- A job that has not ended has neither output nor error, so what its end adds is all it has. -/
theorem Accounted.advances (h : job.Accounted) (ha : Advances job job') : job'.Accounted := by
  have hfinished : job.state.isTerminal = false → job.finishedAt = none := fun hs => by
    simpa [hs] using h.finishedAt
  have houtput : job.state.isTerminal = false → job.output = none := fun hs => by
    cases ho : job.output with
    | none => rfl
    | some path =>
      rw [h.output.mp (by rw [ho]; rfl)] at hs
      cases hs
  have herror : job.state.isTerminal = false → job.error = none := fun hs => by
    cases he : job.error with
    | none => rfl
    | some message =>
      rcases h.error.mp (by rw [he]; rfl) with hf | hf
      · rw [hf] at hs
        cases hs
      · rw [hf] at hs
        cases hs
  cases ha with
  | same => exact h
  | rendering hs =>
    have ht : job.state.isTerminal = false := by rw [hs]; rfl
    constructor <;> simp [rendering, JobState.isTerminal, hfinished ht, houtput ht, herror ht]
  | done path now hs =>
    have ht : job.state.isTerminal = false := by rw [hs]; rfl
    constructor <;> simp [done, JobState.isTerminal, herror ht]
  | failed message now ht => constructor <;> simp [failed, JobState.isTerminal, houtput ht]
  | timedOut message now ht => constructor <;> simp [timedOut, JobState.isTerminal, houtput ht]

theorem lifeCycle_of_isChain {rest : List ReportJob} (h : (job :: rest).IsChain Advances)
    (hq : job.state = .queued) :
    JobState.LifeCycle (((job :: rest).map (·.state)).destutter (· ≠ ·)) := by
  have hstates : ((job :: rest).map (·.state)).IsChain
      fun s s' => s' = s ∨ s.leadsTo s' = true :=
    List.isChain_map_of_isChain _ (fun _ _ ha => ha.state) h
  rw [List.map_cons, hq] at hstates
  rw [List.map_cons, hq, List.destutter_cons']
  obtain ⟨states, he, hs⟩ := exists_isChain_destutter'_ne hstates
  rw [he]
  exact .of_isChain hs

end ReportJob

namespace Registry

open ReportJob (Advances)

variable {σ : Type}

/-- The registry within a request, with the new job registered and its task not asked for yet. -/
def registered? (r : Registry) (m : Moment) : Event σ → Option Registry
  | .request run id =>
    if (r.request run id m).2.tasks.length = r.tasks.length then none
    else some { r.append run (.queued id run.id false m.wall) with
      tracked := Table.put run.id r.tasks.length r.tracked }
  | .requestPartial run id =>
    if (r.requestPartial run id m).2.tasks.length = r.tasks.length then none
    else some { r.append run (.queued id run.id (!run.isFinished) m.wall) with
      partials := r.prune.partials ++ [r.tasks.length] }
  | _ => none

/-- A request that brings a job registers it and then asks for its task. -/
theorem request_registered {r r' : Registry} {run : Run} {id : JobId} {m : Moment}
    (h : r.registered? (σ := σ) m (.request run id) = some r') :
    r.request run id m = r'.launch r.tasks.length m := by
  rw [registered?] at h
  split at h
  · cases h
  · rename_i hne
    cases h
    revert hne
    unfold request
    split
    · exact fun hne => absurd rfl hne
    · rename_i runId hp
      simp only [RunId.text_of_parse hp]
      split
      · exact fun hne => absurd rfl hne
      · split
        · exact fun hne => absurd rfl hne
        · exact fun _ => rfl

theorem requestPartial_registered {r r' : Registry} {run : Run} {id : JobId} {m : Moment}
    (h : r.registered? (σ := σ) m (.requestPartial run id) = some r') :
    r.requestPartial run id m = r'.launch r.tasks.length m := by
  rw [registered?] at h
  split at h
  · cases h
  · rename_i hne
    cases h
    revert hne
    unfold requestPartial
    split
    · exact fun hne => absurd rfl hne
    · rename_i runId hp
      simp only [RunId.text_of_parse hp]
      exact fun _ => rfl

/-! ## Steps -/

section
variable [FileStore σ] {r : Registry} {m : Moment} {i : Nat} {files files' : σ}
  {t t' : ReportTask} {x : Option Happening} {pool : Slots Nat}

theorem Move.advances (hm : Move r m i files t x t' pool files') (h : Standing t) :
    Advances t.job t'.job := by
  cases hm with
  | asking | lined | expiredWaiting | expiredRendering | discarded | worked => exact .same _
  | enlisted path detections deadline hu =>
    exact .rendering t.job (h.undecided hu).1
  | noticed detections deadline hp =>
    rw [Standing, hp] at h
    exact .rendering t.job h.1
  | marked error hp =>
    rw [Standing, hp] at h
    obtain ⟨_, _, ⟨hs, _⟩ | ⟨hs, _⟩⟩ := h
    · exact .timedOut _ _ _ (by rw [hs]; rfl)
    · exact .timedOut _ _ _ (by rw [hs]; rfl)
  | done deadline hp =>
    rw [Standing, hp] at h
    exact .done _ _ _ h.1
  | failed deadline fault hp =>
    rw [Standing, hp] at h
    exact .failed _ _ _ (by rw [h.1]; rfl)

namespace World

/-- The values job `i` has in a step, the last one being what the step leaves. -/
def values (w : World σ) (e : Event σ × Moment) (i : Nat) : List ReportJob :=
  ((w.registry.registered? e.2 e.1).bind (·.job? i)).toList ++ ((w.step e).registry.job? i).toList

/-- The values job `i` has in a run, in turn. -/
def course (w : World σ) (i : Nat) : List (Event σ × Moment) → List ReportJob
  | [] => []
  | e :: es => w.values e i ++ (w.step e).course i es

variable {w : World σ} {e : Event σ × Moment}

/-- What a step leaves that registers a job is what the request for its task leaves. -/
theorem step_registered {r : Registry} (h : w.registry.registered? e.2 e.1 = some r) :
    (w.step e).registry = (r.launch w.registry.tasks.length e.2).2 := by
  obtain ⟨e, m⟩ := e
  cases e with
  | request run id =>
    show (w.registry.request run id m).2 = _
    rw [request_registered h]
  | requestPartial run id =>
    show (w.registry.requestPartial run id m).2 = _
    rw [requestPartial_registered h]
  | _ => cases h

/-- A step registers one job and decides on its task, or none and moves at most one task. -/
inductive Stepped (w : World σ) (e : Event σ × Moment) : Prop
  | entered (r : Registry) (run : Run) (id : JobId) (isPartial : Bool) :
      w.registry.registered? e.2 e.1 = some r →
      r.tasks = w.registry.tasks ++ [freshTask run (.queued id run.id isPartial e.2.wall)] →
      (w.step e).registry.tasks = w.registry.tasks ++
        [newTask w.registry run (.queued id run.id isPartial e.2.wall) e.2] →
      Stepped w e
  | moved (i : Nat) (t : ReportTask) (x : Option Happening) (t' : ReportTask) (pool : Slots Nat)
      (files : σ) : w.registry.registered? e.2 e.1 = none → w.registry.tasks[i]? = some t →
      Move w.registry e.2 i w.files t x t' pool files →
      (w.step e).registry.tasks = w.registry.tasks.set i t' → Stepped w e
  | kept : w.registry.registered? e.2 e.1 = none →
      (w.step e).registry.tasks = w.registry.tasks → Stepped w e

theorem OneMove.stepped (h : w.OneMove e) (hr : w.registry.registered? e.2 e.1 = none) :
    w.Stepped e := by
  rcases h with hs | ⟨i, t, x, t', pool, correlation, files, hc, hm, hs⟩
  · exact .kept hr (by rw [hs])
  · exact .moved i t x t' pool files hr hc hm (by rw [hs]; rfl)

theorem stepped (w : World σ) (e : Event σ × Moment) : w.Stepped e := by
  obtain ⟨e, m⟩ := e
  cases e with
  | request run id =>
    rcases step_request w run id m with ⟨hs, _⟩ | ⟨group, _, _, _, _, hs⟩
    · have hr : (w.registry.request run id m).2 = w.registry := congrArg World.registry hs
      exact .kept (if_pos (by rw [hr])) (by rw [hs])
    · have hr : (w.registry.request run id m).2.tasks = _ :=
        congrArg (fun w => w.registry.tasks) hs
      refine .entered _ run id false (if_neg ?_) rfl hr
      rw [hr]
      show (w.registry.tasks ++ [_]).length ≠ w.registry.tasks.length
      simp
  | requestPartial run id =>
    rcases step_requestPartial w run id m with hs | ⟨partials, group, _, _, hs⟩
    · have hr : (w.registry.requestPartial run id m).2 = w.registry := congrArg World.registry hs
      exact .kept (if_pos (by rw [hr])) (by rw [hs])
    · have hr : (w.registry.requestPartial run id m).2.tasks = _ :=
        congrArg (fun w => w.registry.tasks) hs
      refine .entered _ run id (!run.isFinished) (if_neg ?_) rfl hr
      rw [hr]
      show (w.registry.tasks ++ [_]).length ≠ w.registry.tasks.length
      simp
  | begin i => exact (oneMove_begin w i m).stepped rfl
  | answered i answer => exact (oneMove_answered w i answer m).stepped rfl
  | queryExpired i => exact (oneMove_queryExpired w i m).stepped rfl
  | notice i => exact (oneMove_notice w i m).stepped rfl
  | expire i => exact (oneMove_expire w i m).stepped rfl
  | discard i => exact (oneMove_discard w i m).stepped rfl
  | mark i => exact (oneMove_mark w i m).stepped rfl
  | finish i => exact (oneMove_finish w i m).stepped rfl
  | work i trouble => exact (oneMove_work w i trouble m).stepped rfl
  | close | drain | elsewhere => exact .kept rfl rfl

theorem job?_of_tasks {r : Registry} {tasks : List ReportTask} (h : r.tasks = tasks) (i : Nat) :
    r.job? i = (tasks[i]?).map (·.job) := by
  rw [job?, h]

theorem newTask_advances (r : Registry) (run : Run) (id : JobId) (isPartial : Bool) (m : Moment) :
    Advances (.queued id run.id isPartial m.wall)
      (newTask r run (.queued id run.id isPartial m.wall) m).job := by
  rw [newTask_job]
  split
  · exact .failed _ _ _ rfl
  · exact .same _

/-- What a step shows of one job, between what was there before and what is there after. -/
inductive Passage : Option ReportJob → List ReportJob → Option ReportJob → Prop
  | absent : Passage none [] none
  | came (id : JobId) (runId : String) (isPartial : Bool) (now : Instant) (job : ReportJob) :
      Advances (.queued id runId isPartial now) job →
      Passage none [.queued id runId isPartial now, job] (some job)
  | stayed (job : ReportJob) : Passage (some job) [job, job] (some job)
  | went (job job' : ReportJob) : Advances job job' → Passage (some job) [job'] (some job')

theorem passage_same (before : Option ReportJob) : Passage before before.toList before := by
  cases before with
  | none => exact .absent
  | some job => exact .went job job (.same job)

theorem Stands.passage (h : w.Stands) (e : Event σ × Moment) (i : Nat) :
    Passage (w.registry.job? i) (w.values e i) ((w.step e).registry.job? i) := by
  cases w.stepped e with
  | kept hr ht =>
    rw [values, hr, job?_of_tasks ht]
    exact passage_same _
  | moved j t x t' pool files hr hc hm ht =>
    rw [values, hr, job?_of_tasks ht]
    rcases Decidable.em (j = i) with rfl | hne
    · rw [List.getElem?_set_self (List.getElem?_eq_some_iff.mp hc).1, job?, hc]
      exact .went t.job t'.job (hm.advances (h j t hc))
    · rw [List.getElem?_set_ne hne]
      exact passage_same _
  | entered r run id isPartial hr hrt ht =>
    rw [values, hr, Option.bind_some, job?_of_tasks hrt, job?_of_tasks ht]
    rcases Nat.lt_trichotomy i w.registry.tasks.length with hi | rfl | hi
    · rw [List.getElem?_append_left hi, List.getElem?_append_left hi, job?,
        List.getElem?_eq_getElem hi]
      exact .stayed _
    · rw [List.getElem?_concat_length, List.getElem?_concat_length, job?,
        List.getElem?_eq_none (Nat.le_refl _)]
      exact .came _ _ _ _ _ (newTask_advances ..)
    · have hout : ∀ t, (w.registry.tasks ++ [t])[i]? = none := fun t =>
        List.getElem?_eq_none (by rw [List.length_append]; exact hi)
      rw [hout, hout, job?, List.getElem?_eq_none (Nat.le_of_lt hi)]
      exact .absent

section
variable {before after : Option ReportJob} {seen rest : List ReportJob}

theorem Passage.isChain (h : Passage before seen after)
    (hrest : (after.toList ++ rest).IsChain Advances) :
    (before.toList ++ (seen ++ rest)).IsChain Advances := by
  cases h with
  | absent => exact hrest
  | came _ _ _ _ _ ha => exact .cons_cons ha hrest
  | stayed job => exact .cons_cons (.same job) (.cons_cons (.same job) hrest)
  | went _ _ ha => exact .cons_cons ha hrest

theorem Passage.getLast? (h : Passage before seen after) (rest : List ReportJob) :
    (before.toList ++ (seen ++ rest)).getLast? = (after.toList ++ rest).getLast? := by
  cases h with
  | absent => rfl
  | came | stayed | went => simp [List.getLast?_cons_cons]

/-- The first value of a job is queued. -/
theorem Passage.head? (h : Passage none seen after)
    (hrest : after = none → ∀ job ∈ rest.head?, ∃ id runId isPartial now,
      job = .queued id runId isPartial now) :
    ∀ job ∈ (seen ++ rest).head?, ∃ id runId isPartial now,
      job = .queued id runId isPartial now := by
  intro job hj
  cases h with
  | absent => exact hrest rfl job hj
  | came id runId isPartial now =>
    cases hj
    exact ⟨id, runId, isPartial, now, rfl⟩

end

/-! ## Runs -/

theorem Stands.course_isChain (h : w.Stands) (i : Nat) (es : List (Event σ × Moment)) :
    ((w.registry.job? i).toList ++ w.course i es).IsChain Advances := by
  induction es generalizing w with
  | nil =>
    cases w.registry.job? i with
    | none => exact .nil
    | some job => exact .singleton job
  | cons e es ih => exact (h.passage e i).isChain (ih (h.step e))

theorem Stands.course_getLast? (h : w.Stands) (i : Nat) (es : List (Event σ × Moment)) :
    ((w.registry.job? i).toList ++ w.course i es).getLast? = (w.play es).registry.job? i := by
  induction es generalizing w with
  | nil =>
    rw [course, List.append_nil]
    show (w.registry.job? i).toList.getLast? = w.registry.job? i
    cases w.registry.job? i <;> rfl
  | cons e es ih => exact ((h.passage e i).getLast? _).trans (ih (h.step e))

theorem Stands.course_head? (h : w.Stands) (i : Nat) (es : List (Event σ × Moment))
    (hb : w.registry.job? i = none) : ∀ job ∈ (w.course i es).head?, ∃ id runId isPartial now,
      job = .queued id runId isPartial now := by
  induction es generalizing w with
  | nil =>
    intro job hj
    cases hj
  | cons e es ih => exact (hb ▸ h.passage e i).head? (ih (h.step e))

/-- **Every job keeps to one course.** Its states are queued, then perhaps rendering, then perhaps
one of done, failed and out of time, where only a job that was rendering is done; at each moment it
has its end, its output and its error exactly if its state has them, and what says which request it
answers never changes. The last value is the one that the run leaves, and a value that a request
shows before it is one that the registry had when it asked for the job's task, so this is all there
is to see of the job. -/
theorem life_cycle (settings : ReportSettings) (correlation : Option Correlation) (files : σ)
    (i : Nat) (es : List (Event σ × Moment)) :
    let w := new settings correlation files
    let course := w.course i es
    course.getLast? = (w.play es).registry.job? i ∧
    (course = [] ∨ JobState.LifeCycle ((course.map (·.state)).destutter (· ≠ ·))) ∧
    (∀ job ∈ course, job.Accounted) ∧
    (∀ job ∈ course, ∀ job' ∈ course, job'.particulars = job.particulars) ∧
    ∀ e r, (w.play es).registry.registered? e.2 e.1 = some r →
      ((w.play es).step e).registry = (r.launch (w.play es).registry.tasks.length e.2).2 := by
  intro w course
  have hstands : w.Stands := stands_new settings correlation files
  have hchain : course.IsChain Advances := hstands.course_isChain i es
  have hhead := hstands.course_head? i es rfl
  refine ⟨hstands.course_getLast? i es, ?_⟩
  cases hc : course with
  | nil =>
    have hnone : ∀ job, job ∉ ([] : List ReportJob) := fun _ => List.not_mem_nil
    exact ⟨.inl rfl, fun job hj => absurd hj (hnone job), fun job hj => absurd hj (hnone job),
      fun _ _ => step_registered⟩
  | cons first rest =>
    rw [hc] at hchain
    obtain ⟨id, runId, isPartial, now, rfl⟩ := hhead first (by
      rw [show w.course i es = _ from hc]
      rfl)
    have hall : ∀ P : ReportJob → Prop, (∀ job job', Advances job job' → P job → P job') →
        P (.queued id runId isPartial now) → ∀ job ∈ .queued id runId isPartial now :: rest,
        P job :=
      fun P hstep hfirst => hchain.induction P _ hstep fun _ => hfirst
    have hsame := hall (·.particulars = (id, runId, isPartial, now))
      (fun _ _ ha hp => ha.particulars_eq.trans hp) rfl
    have haccounted := hall (·.Accounted) (fun _ _ ha hp => hp.advances ha)
      (ReportJob.accounted_queued ..)
    exact ⟨.inr (ReportJob.lifeCycle_of_isChain hchain rfl), haccounted,
      fun a ha b hb => (hsame b hb).trans (hsame a ha).symm, fun _ _ => step_registered⟩

end World
end
end Registry
end AfterAction
