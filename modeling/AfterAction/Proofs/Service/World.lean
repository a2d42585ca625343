import AfterAction.Proofs.Tagging.Documents
import AfterAction.Service

/-!
# The service between the engine and the store

`World` is a service with the engine's runs, as these come to look, and with the documents that the
store has acknowledged. Events arrive, their tasks fetch, and their tag calls wait, write, pause and
write again, each of it one step and in any order. `Turn` says once what a step can do: a run comes
to look different, a call begins with what its run looks like now, the store takes the document of a
call that has not ended, or the tasks and calls go on among themselves.
-/

namespace AfterAction

/-- A document speaks of its run, in the state that the run was in. -/
theorem TagDocument.of_ofRun {limits : TagLimits} {now : Instant} {run : Run}
    {document : TagDocument} (h : ofRun limits now run = .ok document) :
    document.fields.operationId = run.id ∧ document.fields.status = run.state := by
  unfold ofRun at h
  cases hid : RunId.parse run.id with
  | error fault =>
    rw [hid] at h
    cases h
  | ok id =>
    rw [hid] at h
    cases h
    exact ⟨RunId.text_of_parse hid, rfl⟩

namespace Service

variable {σ : Type}

/-- What can happen. Tasks and calls are known by their places. -/
inductive Event (σ : Type)
  /-- A run of the engine comes to look like this. -/
  | snapshot (run : Run)
  | dispatch (event : LifecycleEvent)
  /-- The engine answers an event's task, with a fault or with what the run looks like. A new
  report job gets the identifier. -/
  | fetch (i : Nat) (fault : Option RemoteFault) (id : JobId)
  | notice (call : Nat)
  | answered (call : Nat) (answer : Except RemoteFault String)
  | resume (call : Nat)
  | expire (call : Nat)
  | keep (call : Nat) (suffix : UInt32)
  | closeEvents
  | drainEvents
  /-- The reports, the correlation or somebody else's files change. -/
  | elsewhere (change : Registry × Option Correlation × σ → Registry × Option Correlation × σ)

structure World (σ : Type) where
  service : Service σ
  /-- What the engine's runs came to look like, the latest first. -/
  snapshots : List Run
  /-- The documents that the store acknowledged, with the places of their calls, the latest
  first. -/
  acknowledged : List (Nat × TagDocument)

namespace World

def new (service : Service σ) : World σ := ⟨service, [], []⟩

/-- What a run looks like now. -/
def run? (w : World σ) (id : String) : Option Run := w.snapshots.find? (·.id = id)

/-- The store keeps of each run the document that was acknowledged last. -/
def stored? (w : World σ) (id : String) : Option (Nat × TagDocument) :=
  w.acknowledged.find? (·.2.fields.operationId = id)

theorem id_of_run? {w : World σ} {id : String} {run : Run} (h : w.run? id = some run) :
    run.id = id := by
  have hid := List.find?_some h
  exact of_decide_eq_true hid

theorem id_of_stored? {w : World σ} {id : String} {call : Nat} {document : TagDocument}
    (h : w.stored? id = some (call, document)) : document.fields.operationId = id := by
  have hid := List.find?_some h
  exact of_decide_eq_true hid

/-- What the engine knows of a task's run. -/
def answer (w : World σ) (i : Nat) : Option RemoteFault → Except RemoteFault Run
  | some fault => .error fault
  | none =>
    match w.service.events[i]? with
    | some task =>
      match w.run? task.runId.text with
      | some run => .ok run
      | none => .error (.notFound ("run " ++ task.runId.text))
    | none => .error (.notFound "run")

theorem answer_ok {w : World σ} {i : Nat} {fault : Option RemoteFault} {run : Run}
    (h : w.answer i fault = .ok run) : w.run? run.id = some run := by
  unfold answer at h
  split at h
  · cases h
  · split at h
    · split at h
      · rename_i hrun
        cases h
        rwa [id_of_run? hrun]
      · cases h
    · cases h

/-- The document that the store acknowledges with an answer: that of a call whose write is under
way. -/
def receipt? (w : World σ) (call : Nat) : Except RemoteFault String → Option (Nat × TagDocument)
  | .ok _ =>
    match w.service.tagging.calls[call]? with
    | some ⟨document, .writing _⟩ => some (call, document)
    | _ => none
  | .error _ => none

def served (w : World σ) (service : Service σ) : World σ := { w with service }

variable [FileStore σ]

def step (w : World σ) : Event σ × Moment → World σ
  | (.snapshot run, _) => { w with snapshots := run :: w.snapshots }
  | (.dispatch event, _) => w.served (w.service.dispatch event).2
  | (.fetch i fault id, m) => w.served (w.service.fetched i (w.answer i fault) id m)
  | (.notice call, m) => w.served (w.service.tagged (·.notice call m))
  | (.answered call answer, m) =>
    { w with
      service := w.service.tagged (·.answered call answer m)
      acknowledged := (w.receipt? call answer).toList ++ w.acknowledged }
  | (.resume call, m) => w.served (w.service.tagged (·.resume call m))
  | (.expire call, m) => w.served (w.service.tagged (·.expire call m))
  | (.keep call suffix, m) => w.served (w.service.keep call suffix m)
  | (.closeEvents, _) => w.served w.service.closeEvents
  | (.drainEvents, _) => w.served w.service.drainEvents
  | (.elsewhere change, _) =>
    let (registry, correlation, files) :=
      change (w.service.registry, w.service.correlation, w.service.files)
    w.served { w.service with registry, correlation, files }

def play (w : World σ) (es : List (Event σ × Moment)) : World σ := es.foldl step w

end World

/-! ## What a step can do -/

theorem callEnded_iff {s : Service σ} {call : Nat} :
    s.callEnded call = true ↔ ∃ result, s.tagging.phase? call = some (.ended result) := by
  unfold callEnded
  split
  · rename_i result hp
    exact ⟨fun _ => ⟨result, hp⟩, fun _ => rfl⟩
  · rename_i hp
    exact ⟨nofun, fun ⟨result, h⟩ => absurd h (hp result)⟩

theorem callEnded_of_grows {s s' : Service σ} {begun : List TagDocument} {call : Nat}
    (h : s.tagging.Grows s'.tagging begun) (he : s.callEnded call = true) :
    s'.callEnded call = true := by
  obtain ⟨result, hp⟩ := callEnded_iff.mp he
  exact callEnded_iff.mpr ⟨result, h.ended call result hp⟩

theorem dispatch_tagging (s : Service σ) (event : LifecycleEvent) :
    (s.dispatch event).2.tagging = s.tagging := by
  have hspawn : ∀ runId wantsReport, (s.spawn runId wantsReport).2.tagging = s.tagging := by
    intro runId wantsReport
    unfold spawn
    split <;> rfl
  unfold dispatch
  split
  · rfl
  · split
    · rfl
    · exact hspawn _ false
    · exact hspawn _ true

/-- An answered task begins a tag call, or none. -/
theorem fetched_tagging (s : Service σ) (i : Nat) (answer : Except RemoteFault Run) (id : JobId)
    (m : Moment) :
    (s.fetched i answer id m).tagging = s.tagging ∨
    ∃ run call, answer = .ok run ∧
      s.tagging.start run m = .ok (call, (s.fetched i answer id m).tagging) := by
  unfold fetched
  split
  · rename_i runId wantsReport run _
    cases hs : s.tagging.start run m with
    | error fault =>
      left
      simp only [startTag, hs]
      split <;> rfl
    | ok begun =>
      obtain ⟨call, tagging⟩ := begun
      right
      refine ⟨run, call, rfl, ?_⟩
      simp only [startTag, hs]
      split <;> rfl
  · exact .inl rfl
  · exact .inl rfl

namespace World

variable {w w' : World σ} {m : Moment}

/-- The documents of all tag calls, in the order in which their runs were fetched. -/
def documents (w : World σ) : List TagDocument := w.service.tagging.documents

/-- What one step makes of a world. -/
inductive Turn (w w' : World σ) : Prop
  /-- Tasks and calls go on among themselves. -/
  | went : w.service.tagging.Grows w'.service.tagging [] → w'.snapshots = w.snapshots →
      w'.acknowledged = w.acknowledged → Turn w w'
  /-- A run comes to look different. -/
  | looked (run : Run) : w'.service = w.service → w'.snapshots = run :: w.snapshots →
      w'.acknowledged = w.acknowledged → Turn w w'
  /-- A call begins, with what its run looks like now. -/
  | began (run : Run) (document : TagDocument) : w.run? run.id = some run →
      document.fields.operationId = run.id → document.fields.status = run.state →
      w.service.tagging.Grows w'.service.tagging [document] → w'.snapshots = w.snapshots →
      w'.acknowledged = w.acknowledged → Turn w w'
  /-- The store takes the document of a call that has not ended. -/
  | stored (call : Nat) (document : TagDocument) : w.documents[call]? = some document →
      w.service.callEnded call = false → w.service.tagging.Grows w'.service.tagging [] →
      w'.snapshots = w.snapshots → w'.acknowledged = (call, document) :: w.acknowledged →
      Turn w w'

/-- The tag calls and the files, without the rest of the service. -/
def tagged (w : World σ) : Tagging.World σ := ⟨w.service.tagging, w.service.files, []⟩

theorem receipt?_some {call : Nat} {answer : Except RemoteFault String} {entry : Nat × TagDocument}
    (h : w.receipt? call answer = some entry) : ∃ document attempt,
      w.service.tagging.calls[call]? = some ⟨document, .writing attempt⟩ ∧
      entry = (call, document) := by
  unfold receipt? at h
  split at h
  · split at h
    · rename_i document attempt hc
      cases h
      exact ⟨document, attempt, hc, rfl⟩
    · cases h
  · cases h

variable [FileStore σ]

theorem turn_fetch (w : World σ) (i : Nat) (fault : Option RemoteFault) (id : JobId) (m : Moment) :
    Turn w (w.step (.fetch i fault id, m)) := by
  rcases fetched_tagging w.service i (w.answer i fault) id m with hsame | ⟨run, call, hans, hs⟩
  · refine .went ?_ rfl rfl
    show w.service.tagging.Grows (w.service.fetched i (w.answer i fault) id m).tagging []
    rw [hsame]
    exact .refl _
  · rcases TagDocument.ofRun_cases w.service.tagging.settings.limits m.wall run with
      ⟨-, hd⟩ | ⟨-, document, hd⟩
    · rw [Tagging.start, hd] at hs
      cases hs
    · obtain ⟨hid, hstatus⟩ := TagDocument.of_ofRun hd
      refine .began run document (answer_ok hans) hid hstatus ?_ rfl rfl
      have hgrows := Tagging.World.grows_start (w := w.tagged) hd
      rw [Tagging.World.step, Tagging.World.happen] at hgrows
      simp only [tagged, hs] at hgrows
      exact hgrows

theorem turn_answered (w : World σ) (call : Nat) (answer : Except RemoteFault String) (m : Moment) :
    Turn w (w.step (.answered call answer, m)) := by
  have hgrows := (Tagging.World.oneMove_answered w.tagged call answer m).grows
  cases hr : w.receipt? call answer with
  | none =>
    refine .went hgrows rfl ?_
    show (w.receipt? call answer).toList ++ w.acknowledged = w.acknowledged
    rw [hr]
    rfl
  | some entry =>
    obtain ⟨document, attempt, hc, rfl⟩ := receipt?_some hr
    refine .stored call document ?_ ?_ hgrows rfl ?_
    · rw [documents, Tagging.documents, List.getElem?_map, hc]
      rfl
    · rw [callEnded, Tagging.phase?, hc]
      rfl
    · show (w.receipt? call answer).toList ++ w.acknowledged = (call, document) :: w.acknowledged
      rw [hr]
      rfl

theorem step_turn (w : World σ) (e : Event σ × Moment) : Turn w (w.step e) := by
  obtain ⟨e, m⟩ := e
  cases e with
  | snapshot run => exact .looked run rfl rfl rfl
  | dispatch event =>
    refine .went ?_ rfl rfl
    show w.service.tagging.Grows (w.service.dispatch event).2.tagging []
    rw [dispatch_tagging]
    exact .refl _
  | fetch i fault id => exact turn_fetch w i fault id m
  | notice call => exact .went (Tagging.World.oneMove_notice w.tagged call m).grows rfl rfl
  | answered call answer => exact turn_answered w call answer m
  | resume call => exact .went (Tagging.World.oneMove_resume w.tagged call m).grows rfl rfl
  | expire call => exact .went (Tagging.World.oneMove_expire w.tagged call m).grows rfl rfl
  | keep call suffix => exact .went (Tagging.World.oneMove_keep w.tagged call suffix m).grows rfl rfl
  | closeEvents => exact .went (.refl _) rfl rfl
  | drainEvents => exact .went (.refl _) rfl rfl
  | elsewhere change => exact .went (.refl _) rfl rfl

end World
end Service
end AfterAction
