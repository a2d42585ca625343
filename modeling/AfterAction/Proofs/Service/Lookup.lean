import AfterAction.Proofs.Report.Lookup
import AfterAction.Proofs.Service.Partials
import AfterAction.Proofs.Service.Routes
import AfterAction.Remote.Engine

/-!
# Looking up a report that was asked for

A report is asked for under one id and filed under another: the first goes to the engine, the second
is the one that the engine's answer carries, and nothing compares the two. So the job in the response
and the job that is found afterwards go by the id of the answer (`accepted_found`). That is the
requested one wherever the engine answers with the run that it was asked for; where it does not,
nothing is found under the requested id (`swapped_lost`).
-/

namespace AfterAction.Service.System

variable {σ : Type} [FileStore σ] {w : System σ} {i : Nat} {inquiry : Inquiry}

/-! ## Responses -/

/-- The response that a request has at once. -/
def reply? (w : System σ) (request : Api.Incoming) (location : String) (suffix : UInt32)
    (m : Moment) : Option Api.Response :=
  match Api.route request with
  | .error refusal => some (.refused refusal)
  | .ok call =>
    match Api.handle w.service call location suffix m with
    | .answered response _ =>
      some (if request.method = "HEAD" then response.bodiless else response)
    | _ => none

/-- The response that a request for a report has by now. -/
def response? (w : System σ) (i : Nat) : Option Api.Response := (w.inquiries[i]?).bind (·.response)

/-- A request for a report that was answered with a job. -/
structure Accepted (s : Service (RecordedFiles σ)) (run : Run) (response : Api.Response) : Prop where
  valid : RunId.wellFormed run.id = true
  job : ∃ job : ReportJob, job.runId = run.id ∧ response = .value 202 job.toJson
  filed : s.registry.Filed
  known : s.registry.Known run.id

omit [FileStore σ] in
/-- Only a request that has a job is accepted. -/
theorem accepted_reportResponse {s : Service (RecordedFiles σ)} {run : Run}
    {answer : Except ReportFault Nat} (hasked : ∀ i, answer = .ok i → s.registry.Answered run i)
    (hs : (Api.reportResponse answer s).status = 202) :
    Accepted s run (Api.reportResponse answer s) := by
  cases answer with
  | error fault => cases fault <;> cases hs
  | ok i =>
    obtain ⟨hvalid, ⟨job, hjob, hid⟩, hfiled, hknown⟩ := hasked i rfl
    refine ⟨hvalid, ⟨job, hid, ?_⟩, hfiled, hknown⟩
    rw [Api.reportResponse, hjob]
    rfl

omit [FileStore σ] in
theorem accepted_fetched {s : Service (RecordedFiles σ)} (h : s.registry.Filed)
    {allowPartial : Bool} {answer : Except RemoteFault Run} {id : JobId} {m : Moment}
    (hs : (Api.fetched s allowPartial answer id m).1.status = 202) :
    ∃ run, answer = .ok run ∧ Accepted (Api.fetched s allowPartial answer id m).2 run
      (Api.fetched s allowPartial answer id m).1 := by
  cases answer with
  | error fault =>
    simp only [Api.fetched, Api.Response.ofRemote] at hs
    split at hs <;> cases hs
  | ok run =>
    refine ⟨run, rfl, ?_⟩
    simp only [Api.fetched] at hs ⊢
    split
    · rename_i hasks
      rw [if_pos hasks] at hs
      exact accepted_reportResponse (fun i hi => Registry.answered_requestPartial h hi) hs
    · rename_i hasks
      rw [if_neg hasks] at hs
      exact accepted_reportResponse (fun i hi => Registry.answered_request h hi) hs

omit [FileStore σ] in
/-- The report of a run that is known is found under its id. -/
theorem reply_found (h : w.service.registry.Filed) (id : RunId)
    (hk : w.service.registry.Known id.text) (contentType : Option String) (body location : String)
    (suffix : UInt32) (m : Moment) :
    ∃ job : ReportJob, job.runId = id.text ∧
      w.reply? ⟨"GET", "/api/reports/" ++ id.text, contentType, body⟩ location suffix m =
        some (.value 200 job.toJson) := by
  obtain ⟨job, hjob, hid⟩ := h.lookup hk
  refine ⟨job, hid, ?_⟩
  rw [reply?, Api.route_report]
  dsimp only [Api.handle]
  rw [hjob]
  rfl

/-! ## Steps -/

theorem filed_step (h : w.service.registry.Filed) (e : Event σ × Moment) :
    (w.step e).service.registry.Filed := by
  rcases w.registry_step e with ⟨e', -, hs⟩ | ⟨-, hs⟩
  · rw [hs]
    exact Registry.World.filed_step (w := w.service.reports) h (e', e.2)
  · rw [hs]
    exact h

theorem filed_play (h : w.service.registry.Filed) (es : List (Event σ × Moment)) :
    (w.play es).service.registry.Filed := by
  induction es generalizing w with
  | nil => exact h
  | cons e es ih => exact ih (filed_step h e)

/-- A step leaves a request for a report alone, or it is the engine's answer for it. -/
theorem inquiry_step (hi : w.inquiries[i]? = some inquiry) (e : Event σ × Moment) :
    (w.step e).inquiries[i]? = some inquiry ∨
    ∃ answer id, e.1 = .inquired i answer id ∧
      (w.step e).inquiries[i]? = some { inquiry with
        response := some (Api.fetched w.service inquiry.allowPartial answer id e.2).1 } ∧
      (w.step e).service = (Api.fetched w.service inquiry.allowPartial answer id e.2).2 := by
  obtain ⟨e, m⟩ := e
  cases e with
  | incoming request location suffix =>
    refine .inl ?_
    simp only [step, incoming]
    split
    · exact hi
    · exact (List.getElem?_append_left (List.getElem?_eq_some_iff.mp hi).1).trans hi
  | inquired j answer id =>
    simp only [step, inquired]
    split
    · rename_i runId allowPartial hj
      by_cases hij : j = i
      · subst hij
        cases hi.symm.trans hj
        exact .inr ⟨answer, id, rfl, by simp [hi], rfl⟩
      · exact .inl ((List.getElem?_modify_ne _ _ hij).trans hi)
    · exact .inl hi
  | fetch run | evidence j answer | overdue j =>
    refine .inl ?_
    simp only [step, correlated]
    split <;> exact hi
  | _ => exact .inl hi

/-- Whose report was asked for and how stays as it was. -/
theorem inquiry_play (hi : w.inquiries[i]? = some inquiry) (es : List (Event σ × Moment)) :
    ∃ response, (w.play es).inquiries[i]? = some { inquiry with response } := by
  induction es generalizing w inquiry with
  | nil => exact ⟨inquiry.response, hi⟩
  | cons e es ih =>
    rcases inquiry_step hi e with hkept | ⟨answer, id, -, hanswered, -⟩
    · exact ih hkept
    · obtain ⟨response, hi'⟩ := ih hanswered
      exact ⟨response, hi'⟩

/-- A request for the report of a run waits for the engine, at the end of the others. -/
theorem inquiry_incoming {request : Api.Incoming} {runId : RunId} {allowPartial : Bool}
    (hroute : Api.route request = .ok (.report ⟨runId.text, allowPartial⟩)) (location : String)
    (suffix : UInt32) (m : Moment) :
    (w.step (.incoming request location suffix, m)).inquiries[w.inquiries.length]? =
      some ⟨runId, allowPartial, none⟩ := by
  have hdoes := congrArg Prod.snd
    (handle_does w.service (.report ⟨runId.text, allowPartial⟩) location suffix m)
  dsimp only at hdoes
  rw [RunId.parse_text] at hdoes
  simp only [step, incoming, hroute, hdoes]
  exact List.getElem?_concat_length

/-! ## Accepted requests -/

/-- **An accepted request is found under the id that the engine's answer carries.** A request for the
report of a run comes in at any time; later, whatever has happened meanwhile, it gets its response,
and that is an acceptance. Then the engine has answered with a run that has a valid id, the response
has a job of that run, and looking the run up right away, under its id, gives a job of that run. -/
theorem accepted_found (tagging : TagSettings) (breaker : Breaker)
    (correlation : Option Correlation) (reports : ReportSettings) (files : σ)
    (before meanwhile : List (Event σ × Moment)) (e : Event σ × Moment)
    {request : Api.Incoming} {runId : RunId} {allowPartial : Bool}
    (hroute : Api.route request = .ok (.report ⟨runId.text, allowPartial⟩)) (location : String)
    (suffix : UInt32) (m : Moment) {response : Api.Response} :
    let start := (new tagging breaker correlation reports files).play before
    let i := start.inquiries.length
    let asked := (start.step (.incoming request location suffix, m)).play meanwhile
    asked.response? i = none → (asked.step e).response? i = some response →
    response.status = 202 →
    ∃ run id, e.1 = .inquired i (.ok run) id ∧ RunId.wellFormed run.id = true ∧
      (∃ job : ReportJob, job.runId = run.id ∧ response = .value 202 job.toJson) ∧
      ∀ contentType body location suffix m, ∃ job : ReportJob, job.runId = run.id ∧
        (asked.step e).reply? ⟨"GET", "/api/reports/" ++ run.id, contentType, body⟩ location
          suffix m = some (.value 200 job.toJson) := by
  intro start i asked hopen hanswered hstatus
  obtain ⟨waiting, hi⟩ := inquiry_play (inquiry_incoming (w := start) hroute location suffix m)
    meanwhile
  have hnew : (new tagging breaker correlation reports files).service.registry.Filed :=
    Registry.filed_new reports
  have hfiled : asked.service.registry.Filed :=
    filed_play (filed_step (filed_play hnew before) (.incoming request location suffix, m)) meanwhile
  rcases inquiry_step hi e with hkept | ⟨answer, id, he, hfetched, hservice⟩
  · rw [response?, hkept] at hanswered
    rw [response?, hi] at hopen
    cases hopen.symm.trans hanswered
  · rw [response?, hfetched] at hanswered
    cases hanswered
    obtain ⟨run, rfl, hvalid, hjob, hfiled', hknown⟩ := accepted_fetched hfiled hstatus
    refine ⟨run, id, he, hvalid, hjob, fun contentType body location suffix m => ?_⟩
    rw [← hservice] at hfiled' hknown
    exact reply_found hfiled' ⟨run.id, hvalid⟩ hknown contentType body location suffix m

/-! ## Two requests -/

/-- The report of a run is asked for. -/
def askFor (runId : String) : Api.Incoming :=
  ⟨"POST", "/api/reports", some "application/json", "\x7b\"run_id\":\"" ++ runId ++ "\"\x7d"⟩

def later : Moment := ⟨⟨20000, Instant.secondOf 43260, Instant.nanoOf 0⟩, 60000000000, 60000⟩

/-- The report of a run is asked for again while it is being made. It is done before the engine
answers, and it is found. -/
theorem askAgain_found :
    let start := small.play earlyAndLate
    let asked := (start.step (.incoming (askFor "run-0001") "" 0, later)).play
      [(.job 1 .finish, later)]
    let run : Run := ⟨"run-0001", "", "", .finished, none, none, []⟩
    let answered := asked.step (.inquired 1 (.ok run) ⟨3⟩, later)
    (asked.response? 1).isNone = true ∧ (answered.response? 1).map (·.status) = some 202 ∧
    ∃ job : ReportJob, job.runId = "run-0001" ∧
      answered.reply? ⟨"GET", "/api/reports/run-0001", none, ""⟩ "" 0 later =
        some (.value 200 job.toJson) := by
  intro start asked run answered
  let runId : RunId := ⟨"run-0001", by decide⟩
  have hroute : Api.route (askFor "run-0001") = .ok (.report ⟨runId.text, false⟩) := by
    decide +kernel
  have hlength : start.inquiries.length = 1 := by decide +kernel
  have hopen : (asked.response? 1).isNone = true := by decide +kernel
  have hstatus : (answered.response? 1).map (·.status) = some 202 := by decide +kernel
  refine ⟨hopen, hstatus, ?_⟩
  obtain ⟨response, hresponse, h202⟩ := Option.map_eq_some_iff.mp hstatus
  rw [Option.isNone_iff_eq_none, ← hlength] at hopen
  rw [← hlength] at hresponse
  obtain ⟨run', id, he, -, -, hfound⟩ := accepted_found ⟨2, 30000, 3, TagLimits.standard, "kept"⟩
    (.new 5 30000000000) none ⟨2, 30000, "out", ""⟩ MemoryFiles.empty earlyAndLate
    [(.job 1 .finish, later)] (.inquired 1 (.ok run) ⟨3⟩, later) hroute "" 0 later hopen hresponse
    h202
  obtain ⟨-, hanswer, -⟩ := Event.inquired.inj he
  have htarget : "/api/reports/" ++ run.id = "/api/reports/run-0001" := by decide
  rw [← Except.ok.inj hanswer, htarget] at hfound
  exact hfound none "" "" 0 later

/-- The engine answers for one run with another. -/
def swapped : Operation := ⟨"op-live-0002", "Live", "finished", none, none, none, []⟩

/-- The request for the one is accepted, with a job of the other, and nothing is found under the id
that was asked for. -/
theorem swapped_lost :
    let runId : RunId := ⟨"op-live-0001", by decide⟩
    let asked := small.step (.incoming (askFor runId.text) "" 0, later)
    let answer := EngineAccess.readRun runId ⟨200, swapped.toJson.compact⟩
    let answered := asked.step (.inquired 0 answer ⟨1⟩, later)
    Api.route (askFor runId.text) = .ok (.report ⟨runId.text, false⟩) ∧
    (asked.response? 0).isNone = true ∧ (answered.response? 0).map (·.status) = some 202 ∧
    (answered.service.registry.job? 0).map (·.runId) = some "op-live-0002" ∧
    (answered.reply? ⟨"GET", "/api/reports/op-live-0001", none, ""⟩ "" 0 later).map (·.status) =
      some 404 := by
  decide +kernel

end AfterAction.Service.System
