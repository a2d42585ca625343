import AfterAction.Evidence
import AfterAction.Lifecycle
import AfterAction.Operation
import AfterAction.Proofs.Json.Records
import AfterAction.Proofs.Report.JobIds
import AfterAction.Proofs.Time.Reading
import AfterAction.TagDocument

/-!
What goes over the wire comes back as it was. Writers and readers name the fields of a value
separately; that they agree shows field by field: under each name stands what the field's own reader
takes for the field. Fields that may be missing are written all the same, as nothing, so a default
never stands in for a value that was there; and a tag is never a name of the fields it stands with.
-/

namespace AfterAction

open Json

variable {α : Type}

/-- The value comes back from its text, on one line or indented. -/
def RoundTrips (write : α → Json) (decoder : Decoder α) (a : α) : Prop :=
  decode decoder (write a).compact = .ok a ∧ decode decoder ((write a).pretty 0) = .ok a

theorem Json.Conveys.roundTrips {write : α → Json} {decoder : Decoder α} {a : α}
    (h : Conveys decoder (write a) a) : RoundTrips write decoder a :=
  ⟨h.decode_compact, h.decode_pretty⟩

/-! ## Single values -/

theorem Instant.conveys {t : Instant} (h : t.onCalendar = true) :
    Conveys instant (ofInstant t) t :=
  ⟨rfl, by simp [ofInstant, instant, Time.relaxed?_wireText_eq_some_iff.mpr h]⟩

theorem Instant.conveys_optional {t : Option Instant} (h : t.all Instant.onCalendar = true) :
    Conveys (optional instant) (ofOption ofInstant t) t :=
  .optional (fun x hx => x.conveys (by simpa [Option.mem_def.mp hx] using h)) (by simp [ofInstant])

theorem RunId.conveys (id : RunId) : Conveys runId (ofRunId id) id :=
  ⟨rfl, by simp [ofRunId, runId, Json.text, RunId.parse_text, bind, Except.bind, pure, Except.pure]⟩

theorem JobId.conveys (id : JobId) : Conveys ReportJob.jobId (.string id.text) id :=
  ⟨rfl, by
    simp [ReportJob.jobId, Json.text, JobId.parse?_text, bind, Except.bind, pure, Except.pure]⟩

theorem RunState.conveys (state : RunState) :
    Conveys (choice RunState.byName) (.string state.name) state :=
  .choice (by cases state <;> rfl)

theorem RunState.conveysHeld (state : RunState) :
    Conveys (heldChoice RunState.byName) (.string state.name) state :=
  .heldChoice (by cases state <;> rfl)

theorem Outcome.conveys (outcome : Outcome) :
    Conveys (choice Outcome.byName) (.string outcome.name) outcome :=
  .choice (by cases outcome <;> rfl)

theorem DetectionStatus.conveys (status : DetectionStatus) :
    Conveys (choice DetectionStatus.byName) (.string status.name) status :=
  .choice (by cases status <;> rfl)

theorem DetectionStatus.conveysHeld (status : DetectionStatus) :
    Conveys (heldChoice DetectionStatus.byName) (.string status.name) status :=
  .heldChoice (by cases status <;> rfl)

theorem Severity.conveys (severity : Severity) :
    Conveys (choice Severity.byName) (.string severity.name) severity :=
  .choice (by cases severity <;> rfl)

theorem JobState.conveys (state : JobState) :
    Conveys (choice JobState.byName) (.string state.name) state :=
  .choice (by cases state <;> rfl)

/-! ## Runs -/

theorem Step.conveys (step : Step) : Conveys Step.record.decoder step.toJson step := by
  obtain ⟨techniqueId, techniqueName, tactic, outcome, command, output⟩ := step
  apply Record.Reads.conveys
  -- fields come off a record from the last to the first
  · refine .field ?_ (by simp) (.optionalText output)
    refine .field ?_ (by simp) (.text command)
    refine .field ?_ (by simp) outcome.conveys
    refine .field ?_ (by simp) (.text tactic)
    refine .field ?_ (by simp) (.optionalText techniqueName)
    refine .field ?_ (by simp) (.text techniqueId)
    exact .of Step.mk (by simp)
  · simp [Step.record]

/-- Every time of the run can be written down. -/
def Run.onCalendar (run : Run) : Bool :=
  run.startedAt.all Instant.onCalendar && run.finishedAt.all Instant.onCalendar

theorem Run.conveys {run : Run} (h : run.onCalendar = true) :
    Conveys Run.decoder run.toJson run := by
  obtain ⟨id, name, tenant, state, startedAt, finishedAt, steps⟩ := run
  obtain ⟨hstarted, hfinished⟩ := Bool.and_eq_true_iff.mp h
  apply Record.Reads.conveys
  · refine .field ?_ (by simp) (.list fun step _ => step.conveys)
    refine .field ?_ (by simp) (Instant.conveys_optional hfinished)
    refine .field ?_ (by simp) (Instant.conveys_optional hstarted)
    refine .field ?_ (by simp) state.conveys
    refine .field ?_ (by simp) (.text tenant)
    refine .field ?_ (by simp) (.text name)
    refine .field ?_ (by simp) (.text id)
    exact .of Run.mk (by simp)
  · simp [Run.record]

/-! ## Lifecycle events -/

theorem LifecycleEvent.conveys (event : LifecycleEvent) :
    Conveys LifecycleEvent.decoder event.toJson event := by
  cases event with
  | stateChanged id before after =>
    refine .tagged rfl (Record.Reads.conveysHeld ?_ ?_) ?_ ?_
    · refine .field ?_ (by simp) (.optional (fun state _ => state.conveysHeld) (by simp))
      refine .field ?_ (by simp) (.optional (fun state _ => state.conveysHeld) (by simp))
      refine .field ?_ (by simp) (.text id)
      exact .of stateChanged (by simp)
    · simp
    · simp
    · have hflat (state : Option RunState) :
          (ofOption (fun state => .string state.name) state).nesting ≤ 0 :=
        nesting_ofOption_le fun _ _ => Nat.le_refl 0
      simp [nesting, nestingLimit, Nat.le_zero.mp (hflat _)]
  | started id =>
    refine .tagged rfl (Record.Reads.conveysHeld ?_ ?_) ?_ ?_
    · exact .field (.of started (by simp)) (by simp) (.text id)
    · simp
    · simp
    · simp [nesting, nestingLimit]
  | finished id =>
    refine .tagged rfl (Record.Reads.conveysHeld ?_ ?_) ?_ ?_
    · exact .field (.of finished (by simp)) (by simp) (.text id)
    · simp
    · simp
    · simp [nesting, nestingLimit]

/-! ## Detections -/

theorem DetectionRecord.conveysHeld (r : DetectionRecord) :
    Conveys DetectionRecord.record.heldDecoder r.toJson r := by
  obtain ⟨techniqueId, status, ruleName, alertCount⟩ := r
  apply Record.Reads.conveysHeld
  · refine .field ?_ (by simp) (.count alertCount)
    refine .field ?_ (by simp) (.optionalText ruleName)
    refine .field ?_ (by simp) status.conveysHeld
    refine .field ?_ (by simp) (.text techniqueId)
    exact .of DetectionRecord.mk (by simp)
  · simp [DetectionRecord.record]

theorem Detections.conveys (detections : Detections) :
    Conveys Detections.decoder detections.toJson detections := by
  cases detections with
  | available records =>
    refine .tagged rfl (Record.Reads.conveysHeld ?_ ?_) ?_ ?_
    · exact .field (.of available (by simp)) (by simp) (.list fun r _ => r.conveysHeld)
    · simp
    · simp
    · have hrecord (r : DetectionRecord) : r.toJson.nesting ≤ 1 := by
        have hname : (ofOption .string r.ruleName).nesting ≤ 0 :=
          nesting_ofOption_le fun _ _ => Nat.le_refl 0
        simp [DetectionRecord.toJson, nesting, nestingMembers, ofNat, Nat.le_zero.mp hname]
      have hrecords : nestingItems (records.map DetectionRecord.toJson) ≤ 1 :=
        nestingItems_map_le fun r _ => hrecord r
      simp only [List.mem_singleton, forall_eq, nesting, nestingLimit]
      omega
  | unavailable reason =>
    refine .tagged rfl (Record.Reads.conveysHeld ?_ ?_) ?_ ?_
    · exact .field (.of unavailable (by simp)) (by simp) (.text reason)
    · simp
    · simp
    · simp [nesting, nestingLimit]

/-! ## Tag documents -/

theorem TagDocument.conveysFields (f : TagFields) :
    Conveys TagDocument.fieldsRecord.decoder (TagDocument.fieldsToJson f) f := by
  obtain ⟨operationId, operationName, technique, techniques, tactic, tactics, detectionStatus,
    techniqueCount, status⟩ := f
  apply Record.Reads.conveys
  · refine .field ?_ (by simp) status.conveys
    refine .field ?_ (by simp) (.count techniqueCount)
    refine .field ?_ (by simp) detectionStatus.conveys
    refine .field ?_ (by simp) (.texts tactics)
    refine .field ?_ (by simp) (.optionalText tactic)
    refine .field ?_ (by simp) (.texts techniques)
    refine .field ?_ (by simp) (.optionalText technique)
    refine .field ?_ (by simp) (.text operationName)
    refine .field ?_ (by simp) (.text operationId)
    exact .of TagFields.mk (by simp)
  · simp [TagDocument.fieldsRecord]

theorem TagDocument.conveys {document : TagDocument} (h : document.timestamp.onCalendar = true) :
    Conveys TagDocument.record.decoder document.toJson document := by
  obtain ⟨timestamp, fields, tags, exercise, clientId, severity, autoClose⟩ := document
  apply Record.Reads.conveys
  · refine .field ?_ (by simp) (.flag autoClose)
    refine .field ?_ (by simp) severity.conveys
    refine .field ?_ (by simp) (.text clientId)
    refine .field ?_ (by simp) (.flag exercise)
    refine .field ?_ (by simp) (.texts tags)
    refine .field ?_ (by simp) (TagDocument.conveysFields fields)
    refine .field ?_ (by simp) (Instant.conveys h)
    exact .of TagDocument.mk (by simp)
  · simp [TagDocument.record]

/-! ## Report jobs -/

/-- Every time of the job can be written down. -/
def ReportJob.onCalendar (job : ReportJob) : Bool :=
  job.requestedAt.onCalendar && job.finishedAt.all Instant.onCalendar

theorem ReportJob.conveys {job : ReportJob} (h : job.onCalendar = true) :
    Conveys ReportJob.record.decoder job.toJson job := by
  obtain ⟨id, runId, state, isPartial, requestedAt, finishedAt, output, error⟩ := job
  obtain ⟨hrequested, hfinished⟩ := Bool.and_eq_true_iff.mp h
  apply Record.Reads.conveys
  · refine .field ?_ (by simp) (.optionalText error)
    refine .field ?_ (by simp) (.optionalText output)
    refine .field ?_ (by simp) (Instant.conveys_optional hfinished)
    refine .field ?_ (by simp) (Instant.conveys hrequested)
    refine .field ?_ (by simp) (.flag isPartial)
    refine .field ?_ (by simp) state.conveys
    refine .field ?_ (by simp) (.text runId)
    refine .field ?_ (by simp) id.conveys
    exact .of ReportJob.mk (by simp)
  · simp [ReportJob.record]

/-! ## Operations -/

theorem Ability.conveys (ability : Ability) :
    Conveys Ability.record.decoder ability.toJson ability := by
  obtain ⟨techniqueId, techniqueName, tactic, name⟩ := ability
  apply Record.Reads.conveys
  · refine .field ?_ (by simp) (.optionalText name)
    refine .field ?_ (by simp) (.text tactic)
    refine .field ?_ (by simp) (.optionalText techniqueName)
    refine .field ?_ (by simp) (.text techniqueId)
    exact .of Ability.mk (by simp)
  · simp [Ability.record]

/-- The status code is a number of 32 bits with sign. -/
def Link.statusFits (link : Link) : Bool := -0x80000000 ≤ link.status && link.status < 0x80000000

theorem Link.conveys {link : Link} (h : link.statusFits = true) :
    Conveys Link.record.decoder link.toJson link := by
  obtain ⟨status, command, output, ability⟩ := link
  simp only [Link.statusFits, Bool.and_eq_true, decide_eq_true_eq] at h
  apply Record.Reads.conveys
  · refine .field ?_ (by simp) (.optional (fun ability _ => ability.conveys) (by simp [Ability.toJson]))
    refine .field ?_ (by simp) (.optionalText output)
    refine .field ?_ (by simp) (.text command)
    refine .field ?_ (by simp) (.small h.1 h.2)
    exact .of Link.mk (by simp)
  · simp [Link.record]

theorem Operation.conveys {op : Operation} (h : ∀ link ∈ op.chain, link.statusFits = true) :
    Conveys Operation.decoder op.toJson op := by
  obtain ⟨id, name, state, start, finish, group, chain⟩ := op
  apply Record.Reads.conveys
  · refine .field ?_ (by simp) (.list fun link hlink => Link.conveys (h link hlink))
    refine .field ?_ (by simp) (.optionalText group)
    refine .field ?_ (by simp) (.optionalText finish)
    refine .field ?_ (by simp) (.optionalText start)
    refine .field ?_ (by simp) (.text state)
    refine .field ?_ (by simp) (.text name)
    refine .field ?_ (by simp) (.text id)
    exact .of Operation.mk (by simp)
  · simp [Operation.record]

/-! ## Answers of the store -/

theorem KeyCount.conveys (k : KeyCount) : Conveys KeyCount.record.decoder k.toJson k := by
  obtain ⟨key, count⟩ := k
  apply Record.Reads.conveys
  · refine .field ?_ (by simp) (.count count)
    refine .field ?_ (by simp) (.text key)
    exact .of KeyCount.mk (by simp)
  · simp [KeyCount.record]

theorem groupsToJson_conveys {write : α → Json} {decoder : Decoder α} {groups : List α}
    (h : ∀ group, Conveys decoder (write group) group) :
    Conveys (groupsRecord decoder).decoder (groupsToJson write groups) groups := by
  apply Record.Reads.conveys
  · change (groupsRecord decoder).Reads _ (id groups)
    refine .field ?_ (by simp) (.list fun group _ => h group)
    exact .of id (by simp)
  · simp [groupsRecord]

theorem TechniqueGroup.conveys (group : TechniqueGroup) :
    Conveys TechniqueGroup.record.decoder group.toJson group := by
  obtain ⟨key, count, statuses, rules⟩ := group
  apply Record.Reads.conveys
  · refine .field ?_ (by simp) (groupsToJson_conveys KeyCount.conveys)
    refine .field ?_ (by simp) (groupsToJson_conveys KeyCount.conveys)
    refine .field ?_ (by simp) (.count count)
    refine .field ?_ (by simp) (.text key)
    exact .of TechniqueGroup.mk (by simp)
  · simp [TechniqueGroup.record]

theorem SearchAnswer.conveysGrouping (groups : List TechniqueGroup) :
    Conveys SearchAnswer.groupingRecord.decoder (SearchAnswer.groupingToJson groups) groups := by
  apply Record.Reads.conveys
  · change SearchAnswer.groupingRecord.Reads _ (id groups)
    refine .field ?_ (by simp) (groupsToJson_conveys TechniqueGroup.conveys)
    exact .of id (by simp)
  · simp [SearchAnswer.groupingRecord]

theorem SearchAnswer.conveys (answer : SearchAnswer) :
    Conveys SearchAnswer.decoder answer.toJson answer := by
  obtain ⟨groups⟩ := answer
  apply Record.Reads.conveys
  · refine .field ?_ (by simp) (.optional (fun groups _ => SearchAnswer.conveysGrouping groups)
      (by simp [SearchAnswer.groupingToJson]))
    exact .of SearchAnswer.mk (by simp)
  · simp [SearchAnswer.record]

theorem IndexReceipt.conveys (receipt : IndexReceipt) :
    Conveys IndexReceipt.decoder receipt.toJson receipt := by
  obtain ⟨id, index, result⟩ := receipt
  apply Record.Reads.conveys
  · refine .field ?_ (by simp) (.optionalText result)
    refine .field ?_ (by simp) (.text index)
    refine .field ?_ (by simp) (.text id)
    exact .of IndexReceipt.mk (by simp)
  · simp [IndexReceipt.record]

/-! ## The wire as a whole -/

/-- A text with nothing but a string in it is read as a run id exactly when the string is one. -/
theorem decode_runId_iff {text s : String} (h : scan text = ⟨.string s, false⟩) (id : RunId) :
    decode runId text = .ok id ↔ RunId.parse s = .ok id := by
  unfold decode runId
  simp only [h, Json.text]
  cases hparse : RunId.parse s with
  | ok parsed => simp [bind, Except.bind, pure, Except.pure, hparse]
  | error e => simp [bind, Except.bind, hparse]

/-- Nothing is lost on the wire. Times must be ones a calendar can have, since no others read back
(`Time.relaxed?_wireText_eq_some_iff`), and status codes ones the wire has room for. -/
structure WireRoundTrips : Prop where
  run : ∀ run : Run, run.onCalendar = true → RoundTrips Run.toJson Run.decoder run
  event : ∀ event, RoundTrips LifecycleEvent.toJson LifecycleEvent.decoder event
  document : ∀ document : TagDocument, document.timestamp.onCalendar = true →
    RoundTrips TagDocument.toJson TagDocument.record.decoder document
  detections : ∀ detections, RoundTrips Detections.toJson Detections.decoder detections
  job : ∀ job : ReportJob, job.onCalendar = true →
    RoundTrips ReportJob.toJson ReportJob.record.decoder job
  operation : ∀ op : Operation, (∀ link ∈ op.chain, link.statusFits = true) →
    RoundTrips Operation.toJson Operation.decoder op
  answer : ∀ answer, RoundTrips SearchAnswer.toJson SearchAnswer.decoder answer
  receipt : ∀ receipt, RoundTrips IndexReceipt.toJson IndexReceipt.decoder receipt
  runId : ∀ id, RoundTrips ofRunId runId id
  /-- However the string is written, the check decides about it. -/
  runIdText : ∀ text s, scan text = ⟨.string s, false⟩ →
    ∀ id, decode Json.runId text = .ok id ↔ RunId.parse s = .ok id

theorem wire_round_trips : WireRoundTrips where
  run _ h := (Run.conveys h).roundTrips
  event event := event.conveys.roundTrips
  document _ h := (TagDocument.conveys h).roundTrips
  detections detections := detections.conveys.roundTrips
  job _ h := (ReportJob.conveys h).roundTrips
  operation _ h := (Operation.conveys h).roundTrips
  answer answer := answer.conveys.roundTrips
  receipt receipt := receipt.conveys.roundTrips
  runId id := id.conveys.roundTrips
  runIdText _ _ h := decode_runId_iff h

/-- Half way through the leap second at the end of 2016. -/
def Instant.leapSecond : Instant := ⟨17166, Instant.secondOf 86399, Instant.nanoOf 1500000000⟩

/-- A run that began inside a leap second and has not ended. -/
def Run.sinceLeapSecond : Run where
  id := "abcd-1234"
  name := "\"quoted\"\n\u0001"
  tenant := ""
  state := .running
  startedAt := some Instant.leapSecond
  finishedAt := none
  steps := [⟨"T1033", none, "discovery", .timeout, "whoami", some ""⟩]

/-- An operation whose only link ran out of time on an older engine and names no ability. -/
def Operation.timedOut : Operation :=
  ⟨"abcd-1234", "", "running", none, none, some "acme", [⟨-2, "sleep", none, none⟩]⟩

theorem wire_round_trips_leapSecond :
    let document := TagDocument.assemble Instant.leapSecond "abcd-1234" "Unknown" "acme" .running
      ["T1033"] []
    let job := ReportJob.queued ⟨7⟩ "abcd-1234" true Instant.leapSecond
    let id : RunId := ⟨"abcd-1234", by decide⟩
    Run.sinceLeapSecond.onCalendar = true ∧
      RoundTrips Run.toJson Run.decoder Run.sinceLeapSecond ∧
      RoundTrips TagDocument.toJson TagDocument.record.decoder document ∧
      RoundTrips ReportJob.toJson ReportJob.record.decoder job ∧
      RoundTrips Operation.toJson Operation.decoder Operation.timedOut ∧
      decode Json.runId (Json.string "abcd-1234").compact = .ok id := by
  intro document job id
  have hrun : Run.sinceLeapSecond.onCalendar = true := by decide
  have hinstant : Instant.leapSecond.onCalendar = true := by decide
  have hjob : job.onCalendar = true := by simp [job, ReportJob.onCalendar, ReportJob.queued, hinstant]
  have hop : ∀ link ∈ Operation.timedOut.chain, link.statusFits = true := by decide
  have hscan : scan (Json.string "abcd-1234").compact = ⟨.string "abcd-1234", false⟩ :=
    scan_compact rfl
  exact ⟨hrun, wire_round_trips.run _ hrun, wire_round_trips.document document hinstant,
    wire_round_trips.job job hjob, wire_round_trips.operation _ hop,
    (wire_round_trips.runIdText _ _ hscan id).mpr id.parse_text⟩

end AfterAction
