import AfterAction.Files.Memory
import AfterAction.Proofs.Service.Guards

/-!
# Malformed run ids stay outside

Every way into the service looks at the run id first, before a breaker, a slot or a job is touched,
and so does each of its parts when it is handed a run, whoever that comes from. A malformed id
changes nothing but the task or the request that met it, which ends (`Inert`). What is inside was
let in: the ids of jobs and documents, the ids that are asked for, and the ids in the names of files
are well-formed at all times (`Sound`).
-/

namespace AfterAction.Service.System

variable {σ : Type} {fallbacks reports : String}

/-! ## Calls to the engine and the store -/

/-- A call to the engine or the store that is under way. -/
inductive Outgoing
  | readRun (runId : RunId)
  | put (document : TagDocument)
  | query (runId : RunId)

/-- The run id that a call carries. -/
def Outgoing.runId : Outgoing → String
  | .readRun runId => runId.text
  | .put document => document.fields.operationId
  | .query runId => runId.text

def ofEvent (task : EventTask) : Option Outgoing :=
  match task.phase with
  | .fetching => some (.readRun task.runId)
  | _ => none

def ofInquiry (inquiry : Inquiry) : Option Outgoing :=
  match inquiry.response with
  | none => some (.readRun inquiry.runId)
  | some _ => none

def ofCall (call : TagCall) : Option Outgoing :=
  match call.phase with
  | .writing _ => some (.put call.document)
  | _ => none

def ofJob (task : ReportTask) : Option Outgoing :=
  match task.phase with
  | .asking query => some (.query query.runId)
  | _ => none

def ofFetch (fetch : Fetch) : Option Outgoing :=
  match fetch.phase with
  | .asking query => some (.query query.runId)
  | .ended _ => none

/-- All calls that are under way. -/
def outgoing (w : System σ) : List Outgoing :=
  w.service.events.filterMap ofEvent ++ w.inquiries.filterMap ofInquiry ++
    w.service.tagging.calls.filterMap ofCall ++ w.service.registry.tasks.filterMap ofJob ++
    w.fetches.filterMap ofFetch

/-- What was let in carries well-formed run ids only: the keys of the registry and its jobs, what is
asked for and written, and the names of files. -/
structure Sound (w : System σ) (fallbacks reports : String) : Prop where
  keys : ∀ entry ∈ w.service.registry.tracked, RunId.wellFormed entry.1 = true
  jobs : ∀ task ∈ w.service.registry.tasks, RunId.wellFormed task.job.runId = true
  outgoing : ∀ call ∈ w.outgoing, RunId.wellFormed call.runId = true
  files : ∀ call ∈ w.service.files.calls, call.Own fallbacks reports

/-- Only tag calls write documents. -/
theorem document_of_outgoing {w : System σ} {document : TagDocument}
    (h : .put document ∈ w.outgoing) : document ∈ w.service.tagging.documents := by
  simp only [outgoing, List.mem_append, List.mem_filterMap] at h
  rcases h with (((⟨task, -, h⟩ | ⟨inquiry, -, h⟩) | ⟨call, hcall, h⟩) | ⟨task, -, h⟩) |
    ⟨fetch, -, h⟩
  · unfold ofEvent at h
    split at h <;> cases h
  · unfold ofInquiry at h
    split at h <;> cases h
  · unfold ofCall at h
    split at h
    · cases h
      exact List.mem_map_of_mem hcall
    · cases h
  · unfold ofJob at h
    split at h <;> cases h
  · unfold ofFetch at h
    split at h <;> cases h

theorem sound_of_guarded {w : System σ} (h : Guarded fallbacks reports w.service) :
    w.Sound fallbacks reports where
  keys := h.registry.tracked
  jobs task htask := by
    have hlabel : task.label ∈ w.service.registry.labels := List.mem_map_of_mem htask
    exact (h.registry.labels task.label hlabel).1
  outgoing call hcall := by
    cases call with
    | readRun runId => exact runId.valid
    | query runId => exact runId.valid
    | put document => exact h.tagging.documents document (document_of_outgoing hcall)
  files := h.files

/-! ## What a malformed run id can do -/

/-- The run id in what is asked of the service. -/
def idOfCall : Api.Call → Option String
  | .event event => some event.runId
  | .report request => some request.runId
  | .findReport runId => some runId
  | _ => none

/-- The run id that an event brings in from outside, by itself or in a run. -/
def Event.runId? : Event σ → Option String
  | .incoming request _ _ => (Api.route request).toOption.bind idOfCall
  | .dispatch event => some event.runId
  | .tag run | .fetch run | .requestReport run _ | .requestPartial run _ => some run.id
  | .fetched _ answer _ | .inquired _ answer _ => answer.toOption.map (·.id)
  | _ => none

/-- A task or a request still waits for what the event brings. -/
def awaits (w : System σ) : Event σ → Bool
  | .fetched i _ _ => ((w.service.events[i]?).bind ofEvent).isSome
  | .inquired i _ _ => ((w.inquiries[i]?).bind ofInquiry).isSome
  | _ => false

/-- No breaker, slot, job or file has changed, no task has begun and no call has been made. -/
structure Inert (w w' : System σ) : Prop where
  tagging : w'.service.tagging = w.service.tagging
  correlation : w'.service.correlation = w.service.correlation
  registry : w'.service.registry = w.service.registry
  files : w'.service.files = w.service.files
  group : w'.service.eventGroup = w.service.eventGroup
  tasks : w'.service.events.map (·.runId) = w.service.events.map (·.runId)
  outgoing : w'.outgoing.Sublist w.outgoing

section
variable {α β : Type} {g : α → α}

/-- An entry that no longer counts is left out. -/
theorem sublist_filterMap_modify {f : α → Option β} (hg : ∀ a, f (g a) = none) (l : List α)
    (i : Nat) : ((l.modify i g).filterMap f).Sublist (l.filterMap f) := by
  induction l generalizing i with
  | nil => simp
  | cons a rest ih =>
    cases i with
    | zero =>
      rw [List.modify_zero_cons, List.filterMap_cons_none (hg a)]
      exact (List.sublist_cons_self a rest).filterMap f
    | succ i =>
      rw [List.modify_succ_cons, List.filterMap_cons, List.filterMap_cons]
      cases f a with
      | none => exact ih i
      | some b => exact (ih i).cons_cons b

theorem map_modify_same {f : α → β} (hg : ∀ a, f (g a) = f a) (l : List α) (i : Nat) :
    (l.modify i g).map f = l.map f := by
  induction l generalizing i with
  | nil => simp
  | cons a rest ih =>
    cases i with
    | zero => rw [List.modify_zero_cons, List.map_cons, List.map_cons, hg a]
    | succ i => rw [List.modify_succ_cons, List.map_cons, List.map_cons, ih i]

end

namespace Inert

theorem refl (w : System σ) : Inert w w := ⟨rfl, rfl, rfl, rfl, rfl, rfl, .refl _⟩

/-- An event's task ends. -/
theorem ended (w : System σ) (i : Nat) : Inert w (w.served (w.service.setEvent i .ended)) where
  tagging := rfl
  correlation := rfl
  registry := rfl
  files := rfl
  group := rfl
  tasks := by
    refine map_modify_same ?_ w.service.events i
    exact fun _ => rfl
  outgoing := by
    have hevents := sublist_filterMap_modify (f := ofEvent)
      (g := fun task => { task with phase := .ended }) (fun _ => rfl) w.service.events i
    exact (((hevents.append (.refl _)).append (.refl _)).append (.refl _)).append (.refl _)

/-- A request for a report has its response. -/
theorem responded (w : System σ) (i : Nat) (response : Api.Response) :
    Inert w { w with
      inquiries := w.inquiries.modify i fun inquiry =>
        { inquiry with response := some response } } where
  tagging := rfl
  correlation := rfl
  registry := rfl
  files := rfl
  group := rfl
  tasks := rfl
  outgoing := by
    have hinquiries := sublist_filterMap_modify (f := ofInquiry)
      (g := fun inquiry => { inquiry with response := some response }) (fun _ => rfl)
      w.inquiries i
    exact ((((List.Sublist.refl _).append hinquiries).append (.refl _)).append (.refl _)).append
      (.refl _)

end Inert

/-! ## Looking at the run id first -/

section
variable (s : Service (RecordedFiles σ)) {run : Run} (id : JobId) (m : Moment)

theorem dispatch_malformed {event : LifecycleEvent}
    (hbad : RunId.wellFormed event.runId = false) : (s.dispatch event).2 = s := by
  rw [dispatch, RunId.parse_eq_error_iff.mpr ⟨hbad, rfl⟩]

variable (hbad : RunId.wellFormed run.id = false)
include hbad

theorem requestReport_malformed : (s.requestReport run id m).2 = s := by
  rw [requestReport, Registry.request_of_malformed id m hbad]

theorem requestPartial_malformed : (s.requestPartial run id m).2 = s := by
  rcases Registry.requestPartial_cases s.registry run id m with ⟨-, h⟩ | ⟨hgood, -⟩
  · rw [requestPartial, h]
  · rw [hbad] at hgood
    cases hgood

theorem api_fetched_malformed (allowPartial : Bool) :
    (Api.fetched s allowPartial (.ok run) id m).2 = s := by
  unfold Api.fetched
  dsimp only
  split
  · exact requestPartial_malformed s id m hbad
  · exact requestReport_malformed s id m hbad

end

theorem incoming_malformed (w : System σ) {request : Api.Incoming} {call : Api.Call}
    {runId : String} (hroute : Api.route request = .ok call) (hid : idOfCall call = some runId)
    (hbad : RunId.wellFormed runId = false) (location : String) (suffix : UInt32) (m : Moment) :
    w.incoming request location suffix m = w := by
  have hdoes : (after w.service (Api.handle w.service call location suffix m),
      inquiry? (Api.handle w.service call location suffix m)) = (w.service, none) := by
    rw [handle_does]
    cases call with
    | event event =>
      cases hid
      exact congrArg (·, none) (dispatch_malformed w.service hbad)
    | report request =>
      cases hid
      dsimp only
      rw [RunId.parse_eq_error_iff.mpr ⟨hbad, rfl⟩]
      rfl
    | findReport => rfl
    | health | status | listReports | tagTest => cases hid
  obtain ⟨hservice, hinquiry⟩ := Prod.mk.inj hdoes
  unfold incoming
  rw [hroute]
  dsimp only
  rw [hservice, hinquiry, Option.toList_none, List.append_nil]

/-- A fetch for such a run ends before the breaker is asked. -/
theorem inert_fetch (w : System σ) {run : Run} (hbad : RunId.wellFormed run.id = false)
    (m : Moment) : Inert w (w.correlated (.fetch run, m)) := by
  unfold correlated
  split
  · exact .refl w
  · rename_i correlation hcorrelation
    obtain ⟨p, xs, ds, b, hbegins, hstep, -⟩ :=
      Correlation.World.step_fetch ⟨correlation, w.fetches, []⟩ run m
    rw [hstep]
    cases hbegins with
    | malformed d _ =>
      have hnone : (w.fetches ++ [(⟨run, .ended d⟩ : Fetch)]).filterMap ofFetch =
          w.fetches.filterMap ofFetch := by
        rw [List.filterMap_append]
        exact List.append_nil _
      refine ⟨rfl, hcorrelation.symm, rfl, rfl, rfl, rfl, (List.Sublist.refl _).append ?_⟩
      show List.Sublist ((w.fetches ++ [(⟨run, .ended d⟩ : Fetch)]).filterMap ofFetch) _
      rw [hnone]
    | refused hgood =>
      rw [hbad] at hgood
      cases hgood
    | asked runId a b htext =>
      rw [← htext, runId.valid] at hbad
      cases hbad

/-- The engine answers for the run of a request with such a run. -/
theorem inert_inquired (w : System σ) (i : Nat) {run : Run} (id : JobId) (m : Moment)
    (hbad : RunId.wellFormed run.id = false) :
    Inert w (w.inquired i (.ok run) id m) ∧
      (((w.inquired i (.ok run) id m).inquiries[i]?).bind ofInquiry).isSome = false := by
  unfold inquired
  split
  · rename_i runId allowPartial hinquiry
    have hservice := api_fetched_malformed w.service id m hbad allowPartial
    obtain ⟨response, hfetched⟩ : ∃ response,
        Api.fetched w.service allowPartial (.ok run) id m = (response, w.service) :=
      ⟨_, Prod.ext rfl hservice⟩
    rw [hfetched]
    refine ⟨.responded w i response, ?_⟩
    dsimp only
    rw [List.getElem?_modify_eq, hinquiry]
    rfl
  · rename_i hnot
    refine ⟨.refl w, ?_⟩
    cases hinquiry : w.inquiries[i]? with
    | none => rfl
    | some inquiry =>
      obtain ⟨runId, allowPartial, response⟩ := inquiry
      cases response with
      | none => exact absurd hinquiry (hnot runId allowPartial)
      | some response => rfl

variable [FileStore σ]

theorem startTag_malformed (s : Service (RecordedFiles σ)) {run : Run} (m : Moment)
    (hbad : RunId.wellFormed run.id = false) :
    s.startTag run m = (.error ⟨preview run.id⟩, s) := by
  rcases s.startTag_cases run m with ⟨-, h⟩ | ⟨hgood, -⟩
  · exact h
  · rw [hbad] at hgood
    cases hgood

/-- The task ends to which the engine hands such a run. -/
theorem fetched_malformed (s : Service (RecordedFiles σ)) (i : Nat) {run : Run} (id : JobId)
    (m : Moment) (hbad : RunId.wellFormed run.id = false) : s.fetched i (.ok run) id m =
    if ((s.events[i]?).bind ofEvent).isSome then s.setEvent i .ended else s := by
  unfold Service.fetched
  cases htask : s.events[i]? with
  | none => rfl
  | some task =>
    obtain ⟨runId, wantsReport, phase⟩ := task
    cases phase with
    | fetching =>
      dsimp only
      rw [startTag_malformed s m hbad]
      dsimp only
      rw [requestReport_malformed s id m hbad, ite_self]
      rfl
    | tagging call => rfl
    | ended => rfl

/-- The engine answers an event's task with such a run. -/
theorem inert_fetched (w : System σ) (i : Nat) {run : Run} (id : JobId) (m : Moment)
    (hbad : RunId.wellFormed run.id = false) :
    Inert w (w.step (.fetched i (.ok run) id, m)) ∧
      (w.step (.fetched i (.ok run) id, m)).awaits (.fetched i (.ok run) id) = false := by
  have hstep : w.step (.fetched i (.ok run) id, m) =
      w.served (w.service.fetched i (.ok run) id m) := rfl
  rw [hstep, fetched_malformed w.service i id m hbad]
  split
  · refine ⟨.ended w i, ?_⟩
    have hmodified : (w.service.setEvent i .ended).events[i]? =
        (w.service.events[i]?).map fun task => { task with phase := .ended } := by
      rw [Service.setEvent, List.getElem?_modify_eq]
      rfl
    show (((w.service.setEvent i .ended).events[i]?).bind ofEvent).isSome = false
    rw [hmodified]
    cases w.service.events[i]? with
    | none => rfl
    | some task => rfl
  · rename_i hnot
    exact ⟨.refl w, Bool.eq_false_iff.mpr hnot⟩

/-- Whatever brings a malformed run id in, and whatever the service is at. -/
theorem step_inert (w : System σ) {e : Event σ} {runId : String} (m : Moment)
    (he : e.runId? = some runId) (hbad : RunId.wellFormed runId = false) :
    Inert w (w.step (e, m)) ∧ (w.step (e, m)).awaits e = false := by
  have hsame : ∀ {w' : System σ}, w' = w → Inert w w' := by
    rintro w' rfl
    exact .refl w'
  cases e with
  | incoming request location suffix =>
    obtain ⟨call, hcall, hid⟩ := Option.bind_eq_some_iff.mp he
    cases hroute : Api.route request with
    | error refusal =>
      rw [hroute] at hcall
      cases hcall
    | ok call' =>
      rw [hroute] at hcall
      cases hcall
      exact ⟨hsame (incoming_malformed w hroute hid hbad location suffix m), rfl⟩
  | dispatch event =>
    cases he
    exact ⟨hsame (congrArg w.served (dispatch_malformed w.service hbad)), rfl⟩
  | tag run =>
    cases he
    refine ⟨hsame ?_, rfl⟩
    rw [step, startTag_malformed w.service m hbad]
    rfl
  | fetch run =>
    cases he
    exact ⟨inert_fetch w hbad m, rfl⟩
  | requestReport run id =>
    cases he
    exact ⟨hsame (congrArg w.served (requestReport_malformed w.service id m hbad)), rfl⟩
  | requestPartial run id =>
    cases he
    exact ⟨hsame (congrArg w.served (requestPartial_malformed w.service id m hbad)), rfl⟩
  | fetched i answer id =>
    cases answer with
    | error fault => cases he
    | ok run =>
      cases he
      exact inert_fetched w i id m hbad
  | inquired i answer id =>
    cases answer with
    | error fault => cases he
    | ok run =>
      cases he
      exact inert_inquired w i id m hbad
  | _ => cases he

/-- **Malformed run ids stay outside**: in every run, whatever else happens and wherever they come
from, they change nothing but end the task or the request that met them, and the ids that the
service keeps, asks for and names files for are well-formed. -/
theorem play_gated (settings : TagSettings) (breaker : Breaker) (correlation : Option Correlation)
    (reports : ReportSettings) (files : σ) (es : List (Event σ × Moment)) :
    let w := (new settings breaker correlation reports files).play es
    (∀ e m runId, e.runId? = some runId → RunId.wellFormed runId = false →
      Inert w (w.step (e, m)) ∧ (w.step (e, m)).awaits e = false) ∧
    w.Sound settings.fallbackDirectory reports.directory := by
  intro w
  refine ⟨fun e m runId he hbad => step_inert w m he hbad, sound_of_guarded ?_⟩
  have hnew := guarded_new settings breaker correlation reports files
  exact (stable_guarded settings.fallbackDirectory reports.directory).play hnew es

/-! ## An engine that misnames a run -/

/-- What a path looks like, in place of a run id. -/
def misnamed : Run := ⟨"../op-live-0001", "Live", "acme", .finished, none, none, []⟩

theorem misnamed_gated :
    let m : Moment := ⟨⟨20000, Instant.secondOf 43200, Instant.nanoOf 0⟩, 0, 0⟩
    let w := (new ⟨2, 30000, 3, .standard, "fallback"⟩ (Breaker.new 5 60000) none
      ⟨2, 30000, "out", ""⟩ MemoryFiles.empty).play [(.dispatch (.finished "op-live-0001"), m)]
    let answer : Event MemoryFiles := .fetched 0 (.ok misnamed) ⟨1⟩
    w.awaits answer = true ∧ Inert w (w.step (answer, m)) ∧
      (w.step (answer, m)).awaits answer = false := by
  intro m w answer
  have hbad : RunId.wellFormed misnamed.id = false := by decide +kernel
  obtain ⟨hgate, -⟩ := play_gated ⟨2, 30000, 3, .standard, "fallback"⟩ (Breaker.new 5 60000) none
    ⟨2, 30000, "out", ""⟩ MemoryFiles.empty [(.dispatch (.finished "op-live-0001"), m)]
  exact ⟨by decide +kernel, hgate answer m misnamed.id rfl hbad⟩

end AfterAction.Service.System
