import AfterAction.Proofs.Fallback.Naming
import AfterAction.Proofs.Files.Failing
import AfterAction.Proofs.RoundTrip

/-!
# Fallback records last

Records go into one directory, one call after another, and any step of any call may fail. A call
that ends well has put its record under a name of its own, where it stays whole and reads back; a
call that does not has left nothing under its name. Both come from one step lemma: a call changes
nothing but its own record's path and a temporary file, and calls whose random parts differ where
run and second agree have different names.
-/

namespace AfterAction.Fallback

open Json Field

/-! ## The text of a record -/

/-- When the record was made, and its document. -/
def record : Record (Instant × TagDocument) :=
  Record.of Prod.mk
    |>.field (required "generated_at" instant)
    |>.field (required "document" TagDocument.record.decoder)

theorem decode_recordText {now : Instant} {d : TagDocument} (hnow : now.onCalendar = true)
    (hd : d.timestamp.onCalendar = true) :
    decode record.decoder (recordText now d) = .ok (now, d) := by
  have hconveys : Conveys record.decoder (recordJson now d) (now, d) := by
    apply Record.Reads.conveys
    · refine .field ?_ (by simp) (TagDocument.conveys hd)
      refine .field ?_ (by simp) (Instant.conveys hnow)
      exact .of Prod.mk (by simp)
    · simp [record]
  exact hconveys.decode_pretty

/-! ## Calls -/

/-- A call for a document of a well-formed run, with what it takes from the clock and from chance.
Its times are ones that a calendar can have. -/
structure Request where
  document : TagDocument
  generatedAt : Instant
  suffix : UInt32
  runId_wellFormed : RunId.wellFormed document.fields.operationId = true
  document_onCalendar : document.timestamp.onCalendar = true
  generatedAt_onCalendar : generatedAt.onCalendar = true

namespace Request

def name (r : Request) : String := fileName r.generatedAt r.document.fields.operationId r.suffix

def path (r : Request) (directory : String) : String := Path.join directory r.name

def text (r : Request) : String := recordText r.generatedAt r.document

def call (r : Request) (directory : String) (f : FailingDisk) : Kept × FailingDisk :=
  keep directory r.generatedAt r.suffix r.document f

/-- Records of one run and second have different random parts. -/
def Apart (r r' : Request) : Prop :=
  r.document.fields.operationId = r'.document.fields.operationId →
    r.generatedAt.SameSecond r'.generatedAt → r.suffix ≠ r'.suffix

theorem lasting_name (r : Request) : Disk.Lasting r.name.toList :=
  lasting_fileName r.runId_wellFormed

theorem Apart.name_ne {r r' : Request} (h : r.Apart r') : r.name ≠ r'.name := by
  intro hname
  obtain ⟨hstamp, hrun, hsuffix⟩ :=
    (fileName_inj r.runId_wellFormed r'.runId_wellFormed).mp hname
  have hsecond := (Instant.stamp_eq_iff r.generatedAt_onCalendar r'.generatedAt_onCalendar).mp hstamp
  exact h hrun hsecond hsuffix

end Request

/-- What one call does, whatever fails in it. -/
structure Called (directory : String) (r : Request) (kept : Kept) (d d' : Disk) : Prop where
  shows {path : String} : kept = .at path →
    path = r.path directory ∧ Disk.Shows path (some (.text r.text)) d'
  lost : (∀ path, kept ≠ .at path) → ∀ shown, Disk.Shows (r.path directory) shown d →
    Disk.Shows (r.path directory) shown d'
  apart {r' : Request} : r'.name ≠ r.name → ∀ shown, Disk.Shows (r'.path directory) shown d →
    Disk.Shows (r'.path directory) shown d'

theorem called (directory : String) (r : Request) (f : FailingDisk) :
    Called directory r (r.call directory f).1 f.disk (r.call directory f).2.disk := by
  have hsibling := r.lasting_name.ne_sibling r.lasting_name directory
  have hpath : ∀ {r' : Request}, r'.name ≠ r.name →
      Disk.wayOf (r'.path directory) ≠ Disk.wayOf (r.path directory) := fun {r'} hne =>
    mt (r'.lasting_name.wayOf_inj r.lasting_name).mp hne
  have hother (r' : Request) := r.lasting_name.ne_sibling r'.lasting_name directory
  obtain ⟨⟨kept, f'⟩, hcall⟩ : ∃ result, r.call directory f = result := ⟨_, rfl⟩
  rw [hcall]
  cases keep_keeps hcall with
  | noDirectory hmade htrouble =>
    exact {
      shows := fun hkept => absurd hkept (htrouble.ne_at _)
      lost := fun _ _ hs => FailingDisk.createDirectories_keeps hmade hs
      apart := fun _ _ hs => FailingDisk.createDirectories_keeps hmade hs }
  | noRecord hmade hwritten htrouble =>
    exact {
      shows := fun hkept => absurd hkept (htrouble.ne_at _)
      lost := fun _ _ hs => FailingDisk.write_failed hwritten htrouble.ne_ok hsibling
        (FailingDisk.createDirectories_keeps hmade hs)
      apart := fun {r'} hne _ hs => FailingDisk.write_apart hwritten (hpath hne) (hother r')
        (FailingDisk.createDirectories_keeps hmade hs) }
  | record hmade hwritten =>
    exact {
      shows := fun {path} hkept => by
        obtain rfl := Kept.at.inj hkept
        exact ⟨rfl, FailingDisk.write_ok hwritten⟩
      lost := fun hlost => absurd rfl (hlost _)
      apart := fun {r'} hne _ hs => FailingDisk.write_apart hwritten (hpath hne) (hother r')
        (FailingDisk.createDirectories_keeps hmade hs) }

/-! ## Sequences of calls -/

/-- The calls one after another. -/
def callAll (directory : String) (requests : List Request) (f : FailingDisk) : FailingDisk :=
  requests.foldl (fun f r => (r.call directory f).2) f

/-- Calls for other names leave a record's path as it is. -/
theorem shows_callAll {directory : String} {r : Request} {requests : List Request}
    (hne : ∀ r' ∈ requests, r.name ≠ r'.name) {shown : Option FileContent} {f : FailingDisk}
    (hs : Disk.Shows (r.path directory) shown f.disk) :
    Disk.Shows (r.path directory) shown (callAll directory requests f).disk := by
  induction requests generalizing f with
  | nil => exact hs
  | cons first rest ih =>
    have hfirst := hne first List.mem_cons_self
    refine ih (fun r' hr' => hne r' (List.mem_cons_of_mem _ hr')) ?_
    exact (called directory first f).apart hfirst shown hs

/-- A call among others: the disk before all of them, just before this one, just after it, and after
all of them. -/
structure Durable (directory : String) (r : Request) (kept : Kept)
    (start before after finish : Disk) : Prop where
  /-- Nobody else writes to the path: a file that is there after the call was made by it. -/
  untouched (shown : Option FileContent) : Disk.Shows (r.path directory) shown start →
    Disk.Shows (r.path directory) shown before
  /-- The record is an entry of the directory, stays there whole, and reads back. -/
  kept_at {path : String} : kept = .at path → path = r.path directory ∧
    ∃ name text, path = Path.join directory name ∧ Disk.Lasting name.toList ∧
      decode record.decoder text = .ok (r.generatedAt, r.document) ∧
      Disk.Shows path (some (.text text)) after ∧ Disk.Shows path (some (.text text)) finish
  /-- A record that was not kept has left nothing. -/
  not_kept : (∀ path, kept ≠ .at path) → ∀ shown, Disk.Shows (r.path directory) shown start →
    Disk.Shows (r.path directory) shown after ∧ Disk.Shows (r.path directory) shown finish

/-- **Fallback records last**, in every sequence of calls whose random parts tell records of one run
and second apart, wherever it starts and whatever fails on the way. -/
theorem calls_durable (directory : String) (start : FailingDisk) (earlier : List Request)
    (r : Request) (later : List Request)
    (hapart : (earlier ++ r :: later).Pairwise Request.Apart) :
    Durable directory r (r.call directory (callAll directory earlier start)).1 start.disk
      (callAll directory earlier start).disk
      (r.call directory (callAll directory earlier start)).2.disk
      (callAll directory (earlier ++ r :: later) start).disk := by
  obtain ⟨-, hlater, hearlier⟩ := List.pairwise_append.mp hapart
  have hbefore : ∀ r' ∈ earlier, r.name ≠ r'.name := fun r' hr' =>
    (hearlier r' hr' r List.mem_cons_self).name_ne.symm
  have hafter : ∀ r' ∈ later, r.name ≠ r'.name := fun r' hr' =>
    ((List.pairwise_cons.mp hlater).1 r' hr').name_ne
  have hfinish : callAll directory (earlier ++ r :: later) start =
      callAll directory later (r.call directory (callAll directory earlier start)).2 := by
    rw [callAll, List.foldl_append]
    rfl
  have hcalled := called directory r (callAll directory earlier start)
  rw [hfinish]
  refine ⟨fun shown hs => shows_callAll hbefore hs, fun {path} hat => ?_, fun hlost shown hs => ?_⟩
  · obtain ⟨rfl, hs⟩ := hcalled.shows hat
    exact ⟨rfl, r.name, r.text, rfl, r.lasting_name,
      decode_recordText r.generatedAt_onCalendar r.document_onCalendar, hs,
      shows_callAll hafter hs⟩
  · have hs := hcalled.lost hlost shown (shows_callAll hbefore hs)
    exact ⟨hs, shows_callAll hafter hs⟩

def noon : Instant := ⟨20000, Instant.secondOf 43200, Instant.nanoOf 0⟩

/-- Requests of one run in one second. -/
def Request.sample (suffix : UInt32) : Request where
  document := TagDocument.assemble noon "abcd1234" "Nightly" "acme" .finished ["T1078"] []
  generatedAt := noon
  suffix
  runId_wellFormed := by decide
  document_onCalendar := by decide
  generatedAt_onCalendar := by decide

/-- An empty disk that takes only a part of the first file and does not name the last one. -/
def fullDisk : FailingDisk where
  disk := ⟨.directory []⟩
  troubles := [none, some (.writing (some (.text "\x7b")) "No space left on device (os error 28)"),
    none, none, none, some (.renaming false "Input/output error (os error 5)")]

theorem calls_durable_fullDisk :
    [Request.sample 1, Request.sample 2, Request.sample 3].Pairwise Request.Apart ∧
    Durable "logs" (Request.sample 2)
      ((Request.sample 2).call "logs" (callAll "logs" [Request.sample 1] fullDisk)).1
      fullDisk.disk (callAll "logs" [Request.sample 1] fullDisk).disk
      ((Request.sample 2).call "logs" (callAll "logs" [Request.sample 1] fullDisk)).2.disk
      (callAll "logs" [Request.sample 1, Request.sample 2, Request.sample 3] fullDisk).disk := by
  have hapart : [Request.sample 1, Request.sample 2, Request.sample 3].Pairwise Request.Apart := by
    simp [Request.Apart, Request.sample]
  exact ⟨hapart, calls_durable "logs" fullDisk [Request.sample 1] (Request.sample 2)
    [Request.sample 3] hapart⟩

end AfterAction.Fallback
