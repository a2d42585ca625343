import AfterAction.Files.Memory
import AfterAction.Proofs.Fallback.Records
import AfterAction.Proofs.Files.Calls
import AfterAction.Proofs.Tagging.World
import AfterAction.Remote.Store
import Mathlib.Data.List.Forall2

/-!
# What tagging does not tell

Two runs are `Alike` if they differ only in what was executed with which outcome, when, and what it
printed. Their documents are the same, a call carries nothing else of its run, and so the two
cannot be told apart by anything a call does: `step_alike` says so of one step, `play_alike` of any
two runs of a client whose events are alike one by one. What leaves the process on behalf of a call
(`outgoing`) and what its caller learns are read off the world, retries, error texts and fallback
records included.
-/

namespace AfterAction

namespace Run

/-- The same but for commands, outputs, names of techniques, outcomes and times. -/
structure Alike (a b : Run) : Prop where
  id : a.id = b.id
  name : a.name = b.name
  tenant : a.tenant = b.tenant
  state : a.state = b.state
  techniqueIds : a.steps.map (·.techniqueId) = b.steps.map (·.techniqueId)
  tactics : a.steps.map (·.tactic) = b.steps.map (·.tactic)

/-- A step of which only the technique and its tactic are left. -/
def redactStep (s : Step) : Step := ⟨s.techniqueId, none, s.tactic, .success, "", none⟩

/-- The run without what is kept secret. -/
def redacted (run : Run) : Run :=
  { run with startedAt := none, finishedAt := none, steps := run.steps.map redactStep }

theorem map_redactStep_eq {ss ts : List Step}
    (hids : ss.map (·.techniqueId) = ts.map (·.techniqueId))
    (htactics : ss.map (·.tactic) = ts.map (·.tactic)) :
    ss.map redactStep = ts.map redactStep := by
  induction ss generalizing ts with
  | nil =>
    cases ts with
    | nil => rfl
    | cons t ts => cases hids
  | cons s ss ih =>
    cases ts with
    | nil => cases hids
    | cons t ts =>
      obtain ⟨hid, hids⟩ := List.cons.inj hids
      obtain ⟨htactic, htactics⟩ := List.cons.inj htactics
      have hs : redactStep s = redactStep t := by
        simp only [redactStep, hid, htactic]
      rw [List.map_cons, List.map_cons, hs, ih hids htactics]

/-- Runs are alike exactly if nothing is left of their difference. -/
theorem alike_iff_redacted (a b : Run) : Alike a b ↔ a.redacted = b.redacted := by
  constructor
  · intro h
    simp only [redacted, h.id, h.name, h.tenant, h.state,
      map_redactStep_eq h.techniqueIds h.tactics]
  · intro h
    obtain ⟨hid, hname, htenant, hstate, -, -, hsteps⟩ := Run.mk.inj h
    have hids := congrArg (List.map (·.techniqueId)) hsteps
    have htactics := congrArg (List.map (·.tactic)) hsteps
    simp only [List.map_map, Function.comp_def, redactStep] at hids htactics
    exact ⟨hid, hname, htenant, hstate, hids, htactics⟩

end Run

/-- A document is made of what alike runs share. -/
theorem TagDocument.ofRun_alike {a b : Run} (h : Run.Alike a b) (limits : TagLimits)
    (now : Instant) : ofRun limits now a = ofRun limits now b := by
  simp only [ofRun, h.id, h.name, h.tenant, h.state, h.techniqueIds, h.tactics]

namespace Tagging

variable {σ : Type}

/-- The same event, or the beginnings of calls for alike runs. -/
inductive Event.Alike : Event σ → Event σ → Prop
  | start {a b : Run} : Run.Alike a b → Event.Alike (.start a) (.start b)
  | same (e : Event σ) : Event.Alike e e

/-- What leaves the process on behalf of a call. -/
inductive Outgoing
  | request (request : Request)
  /-- A file with this text, at this path. -/
  | record (path text : String)

/-- What leaves with an encounter, if anything does. -/
def Encounter.outgoing? (store : StoreAccess) (directory : String) : Encounter σ → Option Outgoing
  | .put document => some (.request (store.putRequest document))
  | .fallback k => some (.record (Fallback.recordPath directory k.now k.suffix k.document)
      (Fallback.recordText k.now k.document))
  | _ => none

namespace World

/-- In order. -/
def outgoing (w : World σ) (store : StoreAccess) (i : Nat) : List Outgoing :=
  (w.met i).filterMap (Encounter.outgoing? store w.client.settings.fallbackDirectory)

/-- What the caller gets in the end. -/
def result? (w : World σ) (i : Nat) : Option (Except TagFault TagOutcome) :=
  (w.client.calls[i]?).bind TagCall.result?

variable [FileStore σ]

/-- A call for an alike run begins in the same way, or is refused with the same words. -/
theorem start_alike (t : Tagging) {a b : Run} (h : Run.Alike a b) (m : Moment) :
    t.start a m = t.start b m := by
  simp only [Tagging.start, TagDocument.ofRun_alike h]

theorem step_alike (w : World σ) {e e' : Event σ} (h : Event.Alike e e') (m : Moment) :
    w.step (e, m) = w.step (e', m) := by
  cases h with
  | start hruns => rw [step_start, step_start, TagDocument.ofRun_alike hruns]
  | same e => rfl

/-- The clock, what others do and what the store answers are the same, event by event. -/
def AlikeEvents (es es' : List (Event σ × Moment)) : Prop :=
  List.Forall₂ (fun x y => Event.Alike x.1 y.1 ∧ x.2 = y.2) es es'

theorem play_alike (w : World σ) {es es' : List (Event σ × Moment)} (h : AlikeEvents es es') :
    w.play es = w.play es' := by
  induction h generalizing w with
  | nil => rfl
  | @cons x y xs ys hhead _ ih =>
    have hstep : w.step x = w.step y :=
      calc w.step (x.1, x.2) = w.step (y.1, x.2) := step_alike w hhead.1 x.2
        _ = w.step (y.1, y.2) := by rw [hhead.2]
    calc (w.step x).play xs = (w.step y).play xs := by rw [hstep]
      _ = (w.step y).play ys := ih _

/-- **What stays secret.** Whatever a client's calls go through, with alike runs their callers get
the same results, the same requests go to the store, and the same records to the same files: the
world is the same at the end, and begins its next call for alike runs in the same way. -/
theorem play_confined (store : StoreAccess) (settings : TagSettings) (breaker : Breaker) (files : σ)
    {es es' : List (Event (RecordedFiles σ) × Moment)} (h : AlikeEvents es es') (i : Nat) :
    let w := (new settings breaker (RecordedFiles.fresh files)).play es
    let w' := (new settings breaker (RecordedFiles.fresh files)).play es'
    w.result? i = w'.result? i ∧ w.outgoing store i = w'.outgoing store i ∧
    w.files.calls = w'.files.calls ∧
    ∀ a b m, Run.Alike a b → w.client.start a m = w'.client.start b m := by
  intro w w'
  have hworld : w = w' := play_alike _ h
  rw [hworld]
  exact ⟨rfl, rfl, rfl, fun a b m hruns => start_alike w'.client hruns m⟩

/-! ## A run with something to hide -/

def telling : Run :=
  ⟨"op-live-0001", "Live", "acme", .finished, some ⟨20000, Instant.secondOf 3600, Instant.nanoOf 0⟩,
    some ⟨20000, Instant.secondOf 7200, Instant.nanoOf 0⟩,
    [⟨"T1078", some "Valid Accounts", "persistence", .failure, "net use /user:admin hunter2",
      some "Access is denied."⟩]⟩

/-- The store refuses the document, and it goes to a file. -/
def refusal (run : Run) : List (Event (RecordedFiles MemoryFiles) × Moment) :=
  [.start run, .answered 0 (.error (.refused 400 "mapping")), .keep 0 7].map fun e =>
    (e, ⟨⟨20001, Instant.secondOf 0, Instant.nanoOf 0⟩, 0, 0⟩)

/-- The run and what is left of it differ, and the one request and the one record do not. -/
theorem telling_confined :
    telling ≠ telling.redacted ∧ AlikeEvents (refusal telling) (refusal telling.redacted) ∧
    (let w := (new ⟨2, 30000, 3, TagLimits.standard, "kept"⟩ (.new 5 30000000000)
        (RecordedFiles.fresh MemoryFiles.empty)).play (refusal telling)
      let w' := (new ⟨2, 30000, 3, TagLimits.standard, "kept"⟩ (.new 5 30000000000)
        (RecordedFiles.fresh MemoryFiles.empty)).play (refusal telling.redacted)
      let store : StoreAccess := ⟨"http://store", .none, "tags", "alerts", 100⟩
      w.outgoing store 0 = w'.outgoing store 0 ∧ (w.outgoing store 0).length = 2) := by
  have hruns : Run.Alike telling telling.redacted := (Run.alike_iff_redacted _ _).mpr rfl
  have hevents : AlikeEvents (refusal telling) (refusal telling.redacted) :=
    .cons ⟨.start hruns, rfl⟩ (.cons ⟨.same _, rfl⟩ (.cons ⟨.same _, rfl⟩ .nil))
  refine ⟨by decide, hevents, ?_, by decide +kernel⟩
  exact (play_confined _ _ _ _ hevents 0).2.1

end World
end Tagging
end AfterAction
