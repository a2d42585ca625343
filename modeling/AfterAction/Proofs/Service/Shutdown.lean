import AfterAction.Proofs.Report.Course
import AfterAction.Proofs.Report.Pool
import AfterAction.Proofs.Service.Host

/-!
# An orderly shutdown

A group is open, then closed, then drained by somebody who waits for the tasks that it had. A task
that has not ended is with its group or with the drain that took it over (`Covers`), so a drain that
returns from a closed group leaves nothing running; `At` says what is known of a group in each phase.

The service has two groups. The group of the reports is open until that of the events is drained;
that is why no task of an event is refused its report (`Orderly`).
-/

namespace AfterAction

namespace TaskGroup

/-- How far a group is on its way to its end. A drain has the tasks that it took over. -/
inductive Phase
  | accepting
  | closed
  | draining (taken : List Nat)
  | drained
  deriving DecidableEq

variable {g g' : TaskGroup Nat} {ended ended' : Nat → Bool} {taken : List Nat} {phase : Phase}

/-- Every task that has not ended is a member, or was taken over by the drain. -/
def Covers (g : TaskGroup Nat) (ended : Nat → Bool) (taken : List Nat) : Prop :=
  ∀ i, ended i = false → i ∈ g.members ∨ i ∈ taken

/-- What is known of a group in a phase. -/
def At (g : TaskGroup Nat) (ended : Nat → Bool) : Phase → Prop
  | .accepting => g.closed = false ∧ g.Covers ended []
  | .closed => g.closed = true ∧ g.Covers ended []
  | .draining taken => g.closed = true ∧ g.members = [] ∧ g.Covers ended taken
  | .drained => g.closed = true ∧ ∀ i, ended i = true

/-- What becomes of a group and its tasks as long as nobody closes or drains it: it stays as it is,
or takes a task in and forgets some that were seen to have ended. -/
inductive Enrolled (g : TaskGroup Nat) (ended : Nat → Bool) (g' : TaskGroup Nat)
    (ended' : Nat → Bool) : Prop
  | same : g' = g → (∀ i, ended' i = false → ended i = false) → Enrolled g ended g' ended'
  | spawned (seen : Nat → Bool) (task : Nat) : g.spawn? seen task = some g' →
      (∀ i, ended' i = false → i = task ∨ seen i = false ∧ ended i = false) →
      Enrolled g ended g' ended'

theorem Covers.enrolled (h : g.Covers ended taken) (he : g.Enrolled ended g' ended') :
    g'.Covers ended' taken := by
  intro i hi
  cases he with
  | same hg hm =>
    subst hg
    exact h i (hm i hi)
  | spawned seen task hs hm =>
    obtain ⟨-, rfl⟩ := spawn?_eq_some hs
    rcases hm i hi with rfl | ⟨hseen, hold⟩
    · exact .inl (List.mem_append_right _ (List.mem_singleton_self i))
    · refine (h i hold).imp_left fun hin => List.mem_append_left _ ?_
      exact List.mem_filter.mpr ⟨hin, by rw [hseen]; rfl⟩

theorem Enrolled.closed_eq (he : g.Enrolled ended g' ended') : g'.closed = g.closed := by
  cases he with
  | same hg => rw [hg]
  | spawned seen task hs =>
    obtain ⟨-, rfl⟩ := spawn?_eq_some hs
    rfl

theorem Enrolled.of_closed (he : g.Enrolled ended g' ended') (hc : g.closed = true) :
    g' = g ∧ ∀ i, ended' i = false → ended i = false := by
  cases he with
  | same hg hm => exact ⟨hg, hm⟩
  | spawned seen task hs => cases (spawn?_eq_some hs).1.symm.trans hc

theorem At.enrolled (h : g.At ended phase) (he : g.Enrolled ended g' ended') :
    g'.At ended' phase := by
  cases phase with
  | accepting | closed => exact ⟨he.closed_eq.trans h.1, h.2.enrolled he⟩
  | draining taken =>
    obtain ⟨hc, hm, hcovers⟩ := h
    exact ⟨he.closed_eq.trans hc, (he.of_closed hc).1 ▸ hm, hcovers.enrolled he⟩
  | drained =>
    obtain ⟨hc, hall⟩ := h
    refine ⟨he.closed_eq.trans hc, fun i => Bool.of_not_eq_false fun hi => ?_⟩
    exact absurd (hall i) (by rw [(he.of_closed hc).2 i hi]; nofun)

theorem At.close (h : g.At ended .accepting) : g.close.At ended .closed := ⟨rfl, h.2⟩

theorem At.drain (h : g.At ended .closed) : g.drain.At ended (.draining g.members) :=
  ⟨h.1, rfl, fun i hi => .inr ((h.2 i hi).resolve_right List.not_mem_nil)⟩

/-- Once a drain may return, all tasks have ended. -/
theorem At.drained (h : g.At ended (.draining taken)) (hd : drained ended taken = true) :
    g.At ended .drained := by
  obtain ⟨hc, hm, hcovers⟩ := h
  refine ⟨hc, fun i => Bool.of_not_eq_false fun hi => ?_⟩
  rcases hcovers i hi with hin | hin
  · rw [hm] at hin
    cases hin
  · exact absurd (List.all_eq_true.mp hd i hin) (by rw [hi]; nofun)

/-- A group with a task that has not ended has not been drained. -/
theorem At.ne_drained (h : g.At ended phase) {i : Nat} (hi : ended i = false) : phase ≠ .drained := by
  rintro rfl
  exact absurd (h.2 i) (by rw [hi]; nofun)

theorem At.closed_eq_false (h : g.At ended .accepting) : g.closed = false := h.1

theorem At.closed_of_drained (h : g.At ended .drained) : g.closed = true := h.1

end TaskGroup

/-! ## Tasks of reports -/

namespace Registry

/-- What becomes of a registry's group and its tasks as long as nobody closes or drains it. -/
def Enrolled (r r' : Registry) : Prop := r.group.Enrolled r.isEnded r'.group r'.isEnded

theorem isEnded_iff {r : Registry} {i : Nat} {t : ReportTask} (hc : r.tasks[i]? = some t) :
    r.isEnded i = true ↔ t.phase = .ended := by
  rw [isEnded, hc]
  cases hp : t.phase <;> simp [hp]

theorem isEnded_append {r r' : Registry} {t : ReportTask} (h : r'.tasks = r.tasks ++ [t]) {i : Nat}
    (hi : r'.isEnded i = false) : i = r.tasks.length ∨ r.isEnded i = false := by
  rw [isEnded, h] at hi
  rcases Nat.lt_trichotomy i r.tasks.length with hlt | rfl | hgt
  · rw [List.getElem?_append_left hlt] at hi
    exact .inr hi
  · exact .inl rfl
  · rw [List.getElem?_eq_none (by rw [List.length_append]; exact hgt)] at hi
    cases hi

theorem launch_enrolled (r : Registry) (run : Run) (job : ReportJob) (m : Moment) :
    Enrolled r ((r.append run job).launch r.tasks.length m).2 := by
  obtain ⟨group, -, hl⟩ := launch_append r run job m
  have htasks : ((r.append run job).launch r.tasks.length m).2.tasks =
      r.tasks ++ [newTask r run job m] := by
    rw [hl]
    rfl
  have happend := fun i => isEnded_append (i := i) htasks
  unfold launch at htasks happend ⊢
  cases hg : (r.append run job).group.spawn? (r.append run job).isEnded r.tasks.length with
  | some g =>
    simp only [hg] at htasks happend ⊢
    exact .spawned _ _ hg fun i hi => (happend i hi).imp_right fun hold => ⟨hi, hold⟩
  | none =>
    simp only [hg] at htasks happend ⊢
    have hclosed : r.group.closed = true := (TaskGroup.spawn?_eq_none_iff ..).mp hg
    refine .same rfl fun i hi => (happend i hi).resolve_left ?_
    rintro rfl
    rw [isEnded, htasks, List.getElem?_concat_length, newTask, if_pos hclosed] at hi
    cases hi

theorem request_enrolled (r : Registry) (run : Run) (id : JobId) (m : Moment) :
    Enrolled r (r.request run id m).2 := by
  have hsame : Enrolled r r := .same rfl fun _ h => h
  unfold request
  split
  · exact hsame
  · rename_i runId _
    split
    · exact hsame
    · dsimp only
      split
      · exact hsame
      · exact launch_enrolled { r with tracked := Table.put runId.text r.tasks.length r.tracked } run
          (.queued id runId.text false m.wall) m

theorem requestPartial_enrolled (r : Registry) (run : Run) (id : JobId) (m : Moment) :
    Enrolled r (r.requestPartial run id m).2 := by
  unfold requestPartial
  split
  · exact .same rfl fun _ h => h
  · rename_i runId _
    exact launch_enrolled { r with partials := r.prune.partials ++ [r.tasks.length] } run
      (.queued id runId.text (!run.isFinished) m.wall) m

variable {σ : Type} [FileStore σ]

theorem World.OneMove.enrolled {w : World σ} {e : Event σ × Moment} (h : w.OneMove e) :
    Enrolled w.registry (w.step e).registry := by
  rcases h with hs | ⟨i, t, x, t', pool, correlation, files, hc, hm, hs⟩
  · rw [hs]
    exact .same rfl fun _ h => h
  · rw [hs]
    refine .same rfl fun j hj => Bool.eq_false_iff.mpr fun he => Bool.eq_false_iff.mp hj ?_
    have hmoved := moved_tasks hc x t' pool correlation files j
    split at hmoved
    · rename_i hij
      subst hij
      exact (isEnded_iff hmoved).mpr (hm.of_ended ((isEnded_iff hc).mp he)).2
    · rw [isEnded, hmoved]
      exact he

/-- Whatever else happens to the reports. -/
theorem World.enrolled_step (w : World σ) (e : Event σ × Moment) (hclose : e.1 ≠ .close)
    (hdrain : e.1 ≠ .drain) : Enrolled w.registry (w.step e).registry := by
  obtain ⟨e, m⟩ := e
  cases e with
  | request run id => exact request_enrolled w.registry run id m
  | requestPartial run id => exact requestPartial_enrolled w.registry run id m
  | begin i => exact (oneMove_begin w i m).enrolled
  | answered i answer => exact (oneMove_answered w i answer m).enrolled
  | queryExpired i => exact (oneMove_queryExpired w i m).enrolled
  | notice i => exact (oneMove_notice w i m).enrolled
  | expire i => exact (oneMove_expire w i m).enrolled
  | discard i => exact (oneMove_discard w i m).enrolled
  | mark i => exact (oneMove_mark w i m).enrolled
  | finish i => exact (oneMove_finish w i m).enrolled
  | work i trouble => exact (oneMove_work w i trouble m).enrolled
  | close => exact absurd rfl hclose
  | drain => exact absurd rfl hdrain
  | elsewhere change => exact .same rfl fun _ h => h

/-! ## Jobs that were refused a task -/

theorem Move.not_of_refused {r : Registry} {m : Moment} {i : Nat} {files files' : σ}
    {t t' : ReportTask} {x : Option Happening} {pool : Slots Nat} (hp : t.phase = .ended)
    (hw : t.worker = none) : ¬ Move r m i files t x t' pool files' := by
  intro hm
  cases hm with
  | worked v v' x files' hv => cases hw.symm.trans hv
  | lined _ _ _ hu | enlisted _ _ _ hu =>
    rw [hp] at hu
    cases hu
  | asking _ he | noticed _ _ he | expiredWaiting _ _ he | expiredRendering _ he
  | discarded _ _ he | marked _ he | done _ he | failed _ _ he => cases hp.symm.trans he

/-- From this place on every job was refused its task. -/
def World.RefusedFrom {σ : Type} (w : World σ) (n : Nat) : Prop :=
  ∀ i t, n ≤ i → w.registry.tasks[i]? = some t →
    t.phase = .ended ∧ t.worker = none ∧ t.job.state = .failed

theorem World.RefusedFrom.step {w : World σ} {n : Nat} (h : w.RefusedFrom n)
    (hclosed : w.registry.group.closed = true) (e : Event σ × Moment) :
    (w.step e).RefusedFrom n := by
  intro i t hn ht
  cases w.stepped e with
  | kept _ hs => exact h i t hn (hs ▸ ht)
  | moved j u x u' pool files _ hc hm hs =>
    rcases Decidable.em (j = i) with rfl | hne
    · obtain ⟨hp, hw, -⟩ := h j u hn hc
      exact absurd hm (Move.not_of_refused hp hw)
    · rw [hs, List.getElem?_set_ne hne] at ht
      exact h i t hn ht
  | entered r run id isPartial _ _ hs =>
    rw [hs] at ht
    rcases Nat.lt_trichotomy i w.registry.tasks.length with hlt | rfl | hgt
    · rw [List.getElem?_append_left hlt] at ht
      exact h i t hn ht
    · rw [List.getElem?_concat_length, newTask, if_pos hclosed] at ht
      cases ht
      exact ⟨rfl, rfl, rfl⟩
    · rw [List.getElem?_eq_none (by rw [List.length_append]; exact hgt)] at ht
      cases ht

end Registry

namespace Tagging.World

variable {σ : Type} [FileStore σ]

/-- A call that has ended stays so, whatever happens. -/
theorem grows_step (w : World σ) (e : Event σ × Moment) :
    ∃ begun, w.client.Grows (w.step e).client begun := by
  obtain ⟨e, m⟩ := e
  cases e with
  | start run =>
    cases hd : TagDocument.ofRun w.client.settings.limits m.wall run with
    | ok document => exact ⟨[document], grows_start hd⟩
    | error fault =>
      rw [step_start, hd]
      exact ⟨[], .refl _⟩
  | notice i => exact ⟨[], (oneMove_notice w i m).grows⟩
  | answered i answer => exact ⟨[], (oneMove_answered w i answer m).grows⟩
  | resume i => exact ⟨[], (oneMove_resume w i m).grows⟩
  | expire i => exact ⟨[], (oneMove_expire w i m).grows⟩
  | keep i suffix => exact ⟨[], (oneMove_keep w i suffix m).grows⟩
  | elsewhere change => exact ⟨[], .refl _⟩

end Tagging.World

/-! ## Tasks of events -/

namespace Service

variable {σ : Type} {s s' : Service σ}

theorem eventEnded_of_grows (hevents : s'.events = s.events) {begun : List TagDocument}
    (hg : s.tagging.Grows s'.tagging begun) {i : Nat} (hi : s'.eventEnded i = false) :
    s.eventEnded i = false := by
  rw [eventEnded, hevents] at hi
  rw [eventEnded]
  cases hc : s.events[i]? with
  | none =>
    rw [hc] at hi
    cases hi
  | some task =>
    obtain ⟨runId, wantsReport, phase⟩ := task
    rw [hc] at hi
    cases phase with
    | fetching => rfl
    | ended => cases hi
    | tagging call =>
      exact Bool.eq_false_iff.mpr fun he => Bool.eq_false_iff.mp hi (callEnded_of_grows hg he)

/-- A task that is answered was still fetching. -/
theorem eventEnded_setEvent {i : Nat} {runId : RunId} {wantsReport : Bool}
    (hi : s.events[i]? = some ⟨runId, wantsReport, .fetching⟩) (phase : EventPhase) {j : Nat}
    (hj : (s.setEvent i phase).eventEnded j = false) : s.eventEnded j = false := by
  rcases Decidable.em (i = j) with rfl | hne
  · rw [eventEnded, hi]
  · have hsame : (s.setEvent i phase).events[j]? = s.events[j]? := by
      simp [setEvent, hne]
    rw [eventEnded, hsame] at hj
    exact hj

/-- A task that is answered goes into a tag call, or ends. -/
theorem eventEnded_fetched {i : Nat} {answer : Except RemoteFault Run} {id : JobId} {m : Moment}
    {begun : List TagDocument} (hg : s.tagging.Grows (s.fetched i answer id m).tagging begun)
    {j : Nat} (hj : (s.fetched i answer id m).eventEnded j = false) : s.eventEnded j = false := by
  obtain ⟨s', hs⟩ : ∃ s', s.fetched i answer id m = s' := ⟨_, rfl⟩
  have hanswered := s.fetched_answered i answer id m
  rw [hs] at hanswered hg hj
  cases hanswered with
  | ignored => exact hj
  | dropped runId wantsReport fault hi => exact eventEnded_setEvent hi _ hj
  | misnamed runId wantsReport run fault hi =>
    exact eventEnded_setEvent (s := { s with registry := s.registryAfter i answer id m }) hi _ hj
  | tagged runId wantsReport run call tagging hi =>
    let s' : Service σ := { s with tagging, registry := s.registryAfter i answer id m }
    have hevents : s'.events = s.events := rfl
    have hold : s'.eventEnded j = false := eventEnded_setEvent (s := s') hi _ hj
    exact eventEnded_of_grows hevents hg hold

/-- What becomes of the events' group and its tasks as long as nobody closes or drains it. -/
def Enrolled (s s' : Service σ) : Prop :=
  s.eventGroup.Enrolled s.eventEnded s'.eventGroup s'.eventEnded

theorem spawn_enrolled (s : Service σ) (runId : RunId) (wantsReport : Bool) :
    s.Enrolled (s.spawn runId wantsReport).2 := by
  unfold spawn
  split
  · exact .same rfl fun _ h => h
  · rename_i eventGroup hg
    refine .spawned _ _ hg fun i hi => ?_
    rcases Nat.lt_trichotomy i s.events.length with hlt | rfl | hgt
    · rw [eventEnded, List.getElem?_append_left hlt] at hi
      exact .inr ⟨hi, hi⟩
    · exact .inl rfl
    · rw [eventEnded, List.getElem?_eq_none (by rw [List.length_append]; exact hgt)] at hi
      cases hi

theorem dispatch_enrolled (s : Service σ) (event : LifecycleEvent) :
    s.Enrolled (s.dispatch event).2 := by
  unfold dispatch
  split
  · exact .same rfl fun _ h => h
  · split
    · exact .same rfl fun _ h => h
    · exact s.spawn_enrolled _ _
    · exact s.spawn_enrolled _ _

theorem fetched_eventGroup (s : Service σ) (i : Nat) (answer : Except RemoteFault Run) (id : JobId)
    (m : Moment) : (s.fetched i answer id m).eventGroup = s.eventGroup := by
  obtain ⟨s', hs⟩ : ∃ s', s.fetched i answer id m = s' := ⟨_, rfl⟩
  have hanswered := s.fetched_answered i answer id m
  rw [hs] at hanswered ⊢
  cases hanswered with
  | ignored | dropped | misnamed | tagged => rfl

namespace Host

variable [FileStore σ]

theorem grows_step (w : Host σ) (e : Event σ × Moment) :
    ∃ begun, w.service.tagging.Grows (w.step e).service.tagging begun := by
  rcases w.tagging_step e with ⟨e', -, ht⟩ | ⟨-, ht⟩
  · rw [ht]
    exact w.service.tags.grows_step (e', e.2)
  · rw [ht]
    exact ⟨[], .refl _⟩

/-- Whatever happens to the events, other than that the host goes on with its shutdown. -/
theorem enrolled_step (w : Host σ) (e : Event σ × Moment) (he : e.1 ≠ .shutDown) :
    w.service.Enrolled (w.step e).service := by
  obtain ⟨begun, hg⟩ := w.grows_step e
  obtain ⟨e, m⟩ := e
  cases e with
  | dispatch event => exact w.service.dispatch_enrolled event
  | fetched i answer id =>
    exact .same (fetched_eventGroup ..) fun j hj => eventEnded_fetched hg hj
  | tag run =>
    obtain ⟨tagging, hs⟩ := w.service.startTag_same run m
    have hevents : (w.step (.tag run, m)).service.events = w.service.events :=
      (congrArg Service.events hs :)
    exact .same (congrArg Service.eventGroup hs :) fun j hj => eventEnded_of_grows hevents hg hj
  | requestReport | requestPartial | elsewhere => exact .same rfl fun _ h => h
  | call i step =>
    refine .same ?_ fun j hj => eventEnded_of_grows ?_ hg hj
    · cases step <;> rfl
    · cases step <;> rfl
  | job i step => cases step <;> exact .same rfl fun _ h => h
  | shutDown => exact absurd rfl he

omit [FileStore σ] in
theorem jobEvent?_ne (w : Host σ) {e : Event σ} {e' : Registry.Event σ} (he : e ≠ .shutDown)
    (hj : w.jobEvent? e = some e') : e' ≠ .close ∧ e' ≠ .drain := by
  cases e with
  | dispatch | tag | call | elsewhere => cases hj
  | fetched i answer id =>
    obtain ⟨run, -, rfl⟩ := Option.map_eq_some_iff.mp hj
    exact ⟨nofun, nofun⟩
  | requestReport | requestPartial =>
    cases hj
    exact ⟨nofun, nofun⟩
  | job i step =>
    cases hj
    cases step <;> exact ⟨nofun, nofun⟩
  | shutDown => exact absurd rfl he

/-- Whatever happens to the reports, other than that the host goes on with its shutdown. -/
theorem enrolled_reports (w : Host σ) (e : Event σ × Moment) (he : e.1 ≠ .shutDown) :
    w.service.registry.Enrolled (w.step e).service.registry := by
  rcases w.reports_step e with ⟨e', hj, hr⟩ | ⟨-, correlation, files, hr⟩
  · have hregistry : (w.step e).service.registry = (w.reports.step (e', e.2)).registry :=
      congrArg Registry.World.registry hr
    rw [hregistry]
    obtain ⟨hclose, hdrain⟩ := w.jobEvent?_ne he hj
    exact w.reports.enrolled_step (e', e.2) hclose hdrain
  · have hregistry : (w.step e).service.registry = w.service.registry :=
      congrArg Registry.World.registry hr
    rw [hregistry]
    exact .same rfl fun _ h => h

/-! ## Stages -/

end Host

/-- Where the group of the events is then. -/
def Stage.events : Stage → TaskGroup.Phase
  | .serving => .accepting
  | .eventsClosed => .closed
  | .drainingEvents taken => .draining taken
  | _ => .drained

/-- Where the group of the reports is then. -/
def Stage.reports : Stage → TaskGroup.Phase
  | .reportsClosed => .closed
  | .drainingReports taken => .draining taken
  | .down => .drained
  | _ => .accepting

/-- Until the events are drained, the reports are open. -/
theorem Stage.reports_of_events {stage : Stage} (h : stage.events ≠ .drained) :
    stage.reports = .accepting := by
  cases stage with
  | serving | eventsClosed | drainingEvents => rfl
  | eventsDrained | reportsClosed | drainingReports | down => exact absurd rfl h

namespace Host

/-- What a shutdown relies on at each stage. -/
structure Orderly (w : Host σ) (places : Nat) : Prop where
  events : w.service.eventGroup.At w.service.eventEnded w.stage.events
  reports : w.service.registry.group.At w.service.registry.isEnded w.stage.reports
  manned : w.reports.Manned places
  answers : ∀ answer ∈ w.answers, answer ≠ .error .closed

theorem orderly_new (tagging : TagSettings) (breaker : Breaker) (correlation : Option Correlation)
    (reports : ReportSettings) (files : σ) :
    (new tagging breaker correlation reports files).Orderly (max reports.workers 1) where
  events := ⟨rfl, fun i hi => by simp [new, Service.new, eventEnded] at hi⟩
  reports := ⟨rfl, fun i hi => by simp [new, Service.new, Registry.new, Registry.isEnded] at hi⟩
  manned := Registry.World.manned_new reports correlation files
  answers := fun _ ha => absurd ha List.not_mem_nil

variable [FileStore σ] {w : Host σ} {places : Nat}

omit [FileStore σ] in
/-- As long as a task has not been answered, the reports are open. -/
theorem Orderly.open_of_fetching (h : w.Orderly places) {i : Nat} {runId : RunId}
    {wantsReport : Bool} (hi : w.service.events[i]? = some ⟨runId, wantsReport, .fetching⟩) :
    w.service.registry.group.closed = false := by
  have hrunning : w.service.eventEnded i = false := by rw [eventEnded, hi]
  have hreports := h.reports
  rw [Stage.reports_of_events (h.events.ne_drained hrunning)] at hreports
  exact hreports.closed_eq_false

omit [FileStore σ] in
theorem Orderly.answer?_ne (h : w.Orderly places) {m : Moment} {e : Event σ}
    {answer : Except ReportFault Nat} (ha : answer? w.service m e = some answer) :
    answer ≠ .error .closed := by
  cases e with
  | fetched i fetched id =>
    obtain ⟨run, hasked, rfl⟩ := Option.map_eq_some_iff.mp ha
    obtain ⟨runId, hi, -⟩ := asked?_eq_some hasked
    intro hc
    obtain ⟨_, _, _, hclosed⟩ := Registry.request_eq_closed hc
    exact absurd hclosed (by rw [h.open_of_fetching hi]; nofun)
  | _ => cases ha

/-- The groups follow the stages of the shutdown. -/
theorem Orderly.step_groups (h : w.Orderly places) (e : Event σ × Moment) :
    (w.step e).service.eventGroup.At (w.step e).service.eventEnded (w.step e).stage.events ∧
    (w.step e).service.registry.group.At (w.step e).service.registry.isEnded
      (w.step e).stage.reports := by
  have hevents := h.events
  have hreports := h.reports
  by_cases he : e.1 = .shutDown
  · have hs : (w.step e).service = (w.service.shutDown w.stage).1 := by
      simp [Host.step, serve, he]
    have hstage : (w.step e).stage = (w.service.shutDown w.stage).2 := by simp [Host.step, he]
    rw [hs, hstage]
    cases hw : w.stage with
    | serving =>
      rw [hw] at hevents hreports
      exact ⟨hevents.close, hreports⟩
    | eventsClosed =>
      rw [hw] at hevents hreports
      exact ⟨hevents.drain, hreports⟩
    | drainingEvents taken =>
      rw [hw] at hevents hreports
      cases hd : TaskGroup.drained w.service.eventEnded taken with
      | true =>
        rw [shutDown, if_pos hd]
        exact ⟨hevents.drained hd, hreports⟩
      | false =>
        rw [shutDown, hd]
        exact ⟨hevents, hreports⟩
    | eventsDrained =>
      rw [hw] at hevents hreports
      exact ⟨hevents, hreports.close⟩
    | reportsClosed =>
      rw [hw] at hevents hreports
      exact ⟨hevents, hreports.drain⟩
    | drainingReports taken =>
      rw [hw] at hevents hreports
      cases hd : TaskGroup.drained w.service.registry.isEnded taken with
      | true =>
        rw [shutDown, if_pos hd]
        exact ⟨hevents, hreports.drained hd⟩
      | false =>
        rw [shutDown, hd]
        exact ⟨hevents, hreports⟩
    | down =>
      rw [hw] at hevents hreports
      exact ⟨hevents, hreports⟩
  · have hstage : (w.step e).stage = w.stage := by
      obtain ⟨e, m⟩ := e
      cases e with
      | shutDown => exact absurd rfl he
      | _ => rfl
    rw [hstage]
    exact ⟨hevents.enrolled (w.enrolled_step e he), hreports.enrolled (w.enrolled_reports e he)⟩

theorem Orderly.step (h : w.Orderly places) (e : Event σ × Moment) :
    (w.step e).Orderly places where
  events := (h.step_groups e).1
  reports := (h.step_groups e).2
  manned := reports_induction (P := (·.Manned places)) (fun _ e h => h.step e)
    (fun _ _ _ h => ⟨h.stands, h.staffed, h.draws⟩) h.manned e
  answers answer ha := (List.mem_append.mp ha).elim (h.answers answer) fun hnew =>
    h.answer?_ne (Option.mem_toList.mp hnew)

theorem Orderly.play (h : w.Orderly places) (es : List (Event σ × Moment)) :
    (w.play es).Orderly places :=
  play_induction (P := (·.Orderly places)) (fun _ e h => h.step e) h es

/-! ## Afterwards -/

/-- The host is down, and the reports that were asked for from this place on were refused. -/
structure Silent (w : Host σ) (places n : Nat) : Prop where
  orderly : w.Orderly places
  down : w.stage = .down
  refused : w.reports.RefusedFrom n

omit [FileStore σ] in
theorem Orderly.closed_of_down (h : w.Orderly places) (hd : w.stage = .down) :
    w.service.eventGroup.closed = true ∧ w.service.registry.group.closed = true := by
  have hevents := h.events
  have hreports := h.reports
  rw [hd] at hevents hreports
  exact ⟨hevents.closed_of_drained, hreports.closed_of_drained⟩

theorem Silent.step {n : Nat} (h : w.Silent places n) (e : Event σ × Moment) :
    (w.step e).Silent places n where
  orderly := h.orderly.step e
  down := by
    obtain ⟨e, m⟩ := e
    cases e with
    | shutDown => simp [Host.step, h.down, shutDown]
    | _ => exact h.down
  refused := by
    have hclosed := (h.orderly.closed_of_down h.down).2
    rcases w.reports_step e with ⟨e', -, hr⟩ | ⟨-, correlation, files, hr⟩
    · rw [hr]
      exact h.refused.step hclosed (e', e.2)
    · rw [hr]
      exact h.refused

theorem Silent.play {n : Nat} (h : w.Silent places n) (es : List (Event σ × Moment)) :
    (w.play es).Silent places n :=
  play_induction (P := (·.Silent places n)) (fun _ e h => h.step e) h es

omit [FileStore σ] in
theorem Silent.drawn_eq_nil {n : Nat} (h : w.Silent places n) {i : Nat} (hn : n ≤ i) :
    w.reports.drawn i = [] := by
  cases ht : w.service.registry.tasks[i]? with
  | some t => exact h.orderly.manned.draws.drawn_eq_nil ht (h.refused i t hn ht).2.1
  | none =>
    have hi := h.orderly.manned.draws i
    rw [show w.reports.registry.tasks[i]? = none from ht] at hi
    exact List.eq_nil_of_length_eq_zero (Nat.le_zero.mp hi)

omit [FileStore σ] in
theorem Orderly.ended_of_down (h : w.Orderly places) (hd : w.stage = .down) :
    (∀ i, w.service.eventEnded i = true) ∧ (∀ i, w.service.registry.isEnded i = true) := by
  have hevents := h.events
  have hreports := h.reports
  rw [hd] at hevents hreports
  exact ⟨hevents.2, hreports.2⟩

omit [FileStore σ] in
theorem Orderly.terminal_of_down (h : w.Orderly places) (hd : w.stage = .down) {job : ReportJob}
    (hj : job ∈ w.service.registry.jobs) : job.state.isTerminal = true := by
  obtain ⟨i, -, hi⟩ := List.mem_filterMap.mp ((List.mergeSort_perm ..).mem_iff.mp hj)
  obtain ⟨t, ht, rfl⟩ := Option.map_eq_some_iff.mp hi
  have hp : t.phase = .ended := (Registry.isEnded_iff ht).mp ((h.ended_of_down hd).2 i)
  have hs : Registry.Standing t := h.manned.stands i t ht
  rw [Registry.Standing, hp] at hs
  exact hs.isTerminal

omit [FileStore σ] in
theorem dispatch_closed {s : Service σ} (hclosed : s.eventGroup.closed = true)
    {event : LifecycleEvent} (hwork : ∀ id, event ≠ .started id)
    (hgood : RunId.wellFormed event.runId = true) : s.dispatch event = (.error .closed, s) := by
  have hspawn : ∀ runId wantsReport, s.spawn runId wantsReport = (.error .closed, s) := by
    intro runId wantsReport
    rw [spawn, (TaskGroup.spawn?_eq_none_iff ..).mpr hclosed]
  have hparse : RunId.parse event.runId = .ok ⟨event.runId, hgood⟩ :=
    RunId.parse_text ⟨event.runId, hgood⟩
  cases event with
  | started id => exact absurd rfl (hwork id)
  | stateChanged id before after =>
    rw [dispatch, hparse]
    exact hspawn _ false
  | finished id =>
    rw [dispatch, hparse]
    exact hspawn _ true

/-- **The host shuts down in order.** The events are looked after before the reports, so no task of
an event is refused its report. When the host is down, every task of an event and of a report has
ended, and so has every job in the registry. From then on an event that wants work is refused, and
so is every request that needs a new job; such a job has failed, never has a worker, and nothing is
drawn for it. -/
theorem orderly_shutdown (tagging : TagSettings) (breaker : Breaker)
    (correlation : Option Correlation) (reports : ReportSettings) (files : σ)
    (es : List (Event σ × Moment)) :
    let w := (new tagging breaker correlation reports files).play es
    (∀ answer ∈ w.answers, answer ≠ .error .closed) ∧
    (w.stage = .down →
      ((∀ i, w.service.eventEnded i = true) ∧ (∀ i, w.service.registry.isEnded i = true) ∧
        ∀ job ∈ w.service.registry.jobs, job.state.isTerminal = true) ∧
      ∀ es', let w' := w.play es'
        w'.stage = .down ∧
        (∀ event, (∀ id, event ≠ .started id) → RunId.wellFormed event.runId = true →
          w'.service.dispatch event = (.error .closed, w'.service)) ∧
        (∀ run id m, RunId.wellFormed run.id = true → run.isFinished = true →
          w'.service.registry.Free run.id →
          (w'.service.requestReport run id m).1 = .error .closed) ∧
        (∀ run id m, RunId.wellFormed run.id = true →
          (w'.service.requestPartial run id m).1 = .error .closed) ∧
        ∀ i, w.service.registry.tasks.length ≤ i → w'.reports.drawn i = [] ∧
          ∀ t, w'.service.registry.tasks[i]? = some t → t.worker = none ∧ t.job.state = .failed) := by
  intro w
  have h : w.Orderly (max reports.workers 1) :=
    (orderly_new tagging breaker correlation reports files).play es
  refine ⟨h.answers, fun hd => ⟨?_, fun es' => ?_⟩⟩
  · obtain ⟨hevents, hreports⟩ := h.ended_of_down hd
    exact ⟨hevents, hreports, fun job hj => h.terminal_of_down hd hj⟩
  · intro w'
    have hnew : w.reports.RefusedFrom w.service.registry.tasks.length := fun i t hn ht =>
      absurd (List.getElem?_eq_some_iff.mp ht).1 (Nat.not_lt.mpr hn)
    have hs : w'.Silent (max reports.workers 1) w.service.registry.tasks.length :=
      Silent.play ⟨h, hd, hnew⟩ es'
    obtain ⟨hevents, hreports⟩ := hs.orderly.closed_of_down hs.down
    refine ⟨hs.down, fun event hw hgood => ?_, fun run id m hgood hfin hfree => ?_,
      fun run id m hgood => ?_, fun i hn => ⟨hs.drawn_eq_nil hn, fun t ht => ?_⟩⟩
    · exact dispatch_closed hevents hw hgood
    · obtain ⟨group, -, hr⟩ := Registry.request_of_free id m hgood hfin hfree
      rw [requestReport, hr, Registry.entryAnswer, if_pos hreports]
    · rcases Registry.requestPartial_cases w'.service.registry run id m with
        ⟨hbad, -⟩ | ⟨-, partials, group, -, hr⟩
      · cases hbad.symm.trans hgood
      · rw [requestPartial, hr, Registry.entryAnswer, if_pos hreports]
    · exact (hs.refused i t hn ht).2

def closingTime : Moment := ⟨⟨20000, Instant.secondOf 61200, Instant.nanoOf 0⟩, 0, 0⟩

def finishedRun (id : String) : Run := ⟨id, "", "", .finished, none, none, []⟩

def openHost : Host MemoryFiles :=
  new ⟨2, 30000, 3, .standard, "kept"⟩ (.new 5 30000000000) none ⟨1, 30000, "out", ""⟩
    MemoryFiles.empty

/-- A report is being drawn when the shutdown begins, and a second event, taken in before, asks for
its own only then. -/
def lateShift : List (Event MemoryFiles × Moment) :=
  [.dispatch (.finished "run-0001"), .dispatch (.finished "run-0002"),
    .fetched 0 (.ok (finishedRun "run-0001")) ⟨1⟩, .job 0 .begin, .job 0 (.work none),
    .shutDown, .shutDown, .fetched 1 (.ok (finishedRun "run-0002")) ⟨2⟩,
    .call 0 (.answered (.ok "run-0001")), .call 1 (.answered (.ok "run-0002")), .shutDown,
    .shutDown, .shutDown, .job 0 (.work none), .job 0 (.work none), .job 0 (.work none),
    .job 0 (.work none), .job 0 .finish, .job 1 .begin, .job 1 (.work none), .job 1 (.work none),
    .job 1 (.work none), .job 1 (.work none), .job 1 (.work none), .job 1 .finish,
    .shutDown].map fun e => (e, closingTime)

/-- Both reports are done when the host is down, and a third is refused. -/
theorem lateShift_orderly :
    let busy := openHost.play (lateShift.take 5)
    let w := openHost.play lateShift
    let later := w.play [(.requestReport (finishedRun "run-0003") ⟨3⟩, closingTime)]
    (busy.stage = .serving ∧ busy.service.eventEnded 1 = false ∧
      busy.service.registry.isEnded 0 = false) ∧
    w.stage = .down ∧ w.service.registry.tasks.map (·.job.state) = [.done, .done] ∧
    (∀ answer ∈ w.answers, answer ≠ .error .closed) ∧
    (∀ i, w.service.eventEnded i = true) ∧ (∀ i, w.service.registry.isEnded i = true) ∧
    later.service.dispatch (.finished "run-0003") = (.error .closed, later.service) ∧
    later.reports.drawn 2 = [] := by
  dsimp only
  obtain ⟨hanswers, hdown⟩ := orderly_shutdown ⟨2, 30000, 3, .standard, "kept"⟩
    (.new 5 30000000000) none ⟨1, 30000, "out", ""⟩ MemoryFiles.empty lateShift
  have hd : (openHost.play lateShift).stage = .down := by decide +kernel
  have htasks : (openHost.play lateShift).service.registry.tasks.length ≤ 2 := by decide +kernel
  obtain ⟨⟨hevents, hreports, -⟩, hlater⟩ := hdown hd
  obtain ⟨-, hdispatch, -, -, hdrawn⟩ :=
    hlater [(.requestReport (finishedRun "run-0003") ⟨3⟩, closingTime)]
  refine ⟨by decide +kernel, hd, by decide +kernel, hanswers, hevents, hreports, ?_, ?_⟩
  · exact hdispatch (.finished "run-0003") nofun (by decide)
  · exact (hdrawn 2 htasks).1

end Host
end Service
end AfterAction
