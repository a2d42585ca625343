import AfterAction.Proofs.Tagging.Ending
import AfterAction.Proofs.Tagging.Handling

/-!
# No document is lost or delivered twice

A call that has ended has its document in one place. Either the store took it, and no record was
begun; or the fallback was given it, once, and the result says where it is and why, or that it is
lost. The files tell the same: of all the steps of the call, only the one that gave the record to the
fallback has touched them, and it left them as the fallback's calls did. This holds among any number
of calls, from any state of the breaker and of the line for slots, for all answers of the store and
all troubles of the files.
-/

namespace AfterAction.Tagging

variable {σ : Type}

/-- The fault of the last attempt that had an answer. -/
def lastFault? (met : List (Encounter σ)) : Option RemoteFault :=
  (met.filterMap fun
    | .answer (.error fault) => some fault
    | _ => none).getLast?

/-- The reason fits what the call has met. -/
structure KeptFor (met : List (Encounter σ)) (reason : KeptReason) : Prop where
  refused : reason = .breakerOpen ↔ .refused ∈ met
  unwritten : .refused ∈ met → ∀ d, .put d ∉ met
  timeout : reason = .timeout ↔ .ceiling ∈ met
  fault : ∀ text, reason = .storeFault text ↔
    .refused ∉ met ∧ .ceiling ∉ met ∧ (lastFault? met).map RemoteFault.message = some text

/-- The files answered so when the directory was made, or when the record was written. -/
def Keeping.Answered [FileStore σ] (k : Keeping σ) (directory : String) (answer : FileAnswer) :
    Prop :=
  FileStore.createDirectories directory k.before = (answer, k.after) ∨
  ∃ made, FileStore.createDirectories directory k.before = (.ok, made) ∧
    FileStore.write (k.path directory) (.text (Fallback.recordText k.now k.document)) made =
      (answer, k.after)

/-- Where the document of a call is that has ended, by what the call met and what its steps did to
the files. -/
structure Accounted [FileStore σ] [FileView σ] (directory : String) (i : Nat)
    (document : TagDocument) (met : List (Encounter σ)) (hs : List (Handling σ))
    (result : Except TagFault TagOutcome) : Prop where
  /-- Nothing else was ever written to the store. -/
  written : ∀ d, .put d ∈ met → d = document
  stored : ∀ id, result = .ok (.stored id) ↔ .answer (.ok id) ∈ met
  unkept : ∀ id, result = .ok (.stored id) → keepings met = [] ∧ ∀ h ∈ hs, h.Idle
  kept : ∀ path reason, result = .ok (.kept path reason) → KeptFor met reason ∧
    ∃ k, keepings met = [k] ∧ k.document = document ∧ k.Faithful directory ∧ k.Filed i hs ∧
      k.kept = .at path
  /-- The files refused the directory or the record. -/
  lost : ∀ fault, result = .error fault →
    ∃ k answer, keepings met = [k] ∧ k.document = document ∧ k.Faithful directory ∧ k.Filed i hs ∧
      k.Answered directory answer ∧
      ((∃ f, answer = .fault f ∧ fault = .lost f) ∨
        ∃ message, answer = .crashed message ∧ fault = .interrupted (crashReport i message))

variable {settings : TagSettings} {i : Nat} {document : TagDocument} {met : List (Encounter σ)}
  {reason : KeptReason} {faults : List RemoteFault}

theorem refused_not_mem_attempts : .refused ∉ (attempts document faults : List (Encounter σ)) :=
  fun h => by rcases mem_attempts h with h | ⟨_, _, h⟩ <;> cases h

theorem ceiling_not_mem_attempts : .ceiling ∉ (attempts document faults : List (Encounter σ)) :=
  fun h => by rcases mem_attempts h with h | ⟨_, _, h⟩ <;> cases h

theorem stored_not_mem_attempts {id : String} :
    .answer (.ok id) ∉ (attempts document faults : List (Encounter σ)) :=
  fun h => by rcases mem_attempts h with h | ⟨_, _, h⟩ <;> cases h

theorem keepings_attempts : keepings (attempts document faults : List (Encounter σ)) = [] := by
  refine List.filterMap_eq_nil_iff.mpr fun x hx => ?_
  rcases mem_attempts hx with rfl | ⟨_, _, rfl⟩ <;> rfl

theorem lastFault?_failed (met : List (Encounter σ)) (fault : RemoteFault) :
    lastFault? (met ++ [.put document, .answer (.error fault)]) = some fault := by
  rw [lastFault?, List.filterMap_append]
  exact List.getLast?_concat

theorem put_eq_of_mem_attempts {d : TagDocument}
    (h : .put d ∈ (attempts document faults : List (Encounter σ))) : d = document := by
  rcases mem_attempts h with h | ⟨_, _, h⟩
  · cases h; rfl
  · cases h

theorem put_eq_of_mem_append {rest : List (Encounter σ)}
    (hrest : ∀ d, .put d ∈ rest → d = document) {d : TagDocument}
    (h : .put d ∈ attempts document faults ++ rest) : d = document := by
  rcases List.mem_append.mp h with h | h
  · exact put_eq_of_mem_attempts h
  · exact hrest d h

/-! ## A document that is kept back -/

theorem Diverted.put_eq (h : Diverted settings document met reason) {d : TagDocument}
    (hd : .put d ∈ met) : d = document := by
  cases h with
  | refused => simp at hd
  | _ => exact put_eq_of_mem_append (by simp) hd

theorem Diverted.unstored (h : Diverted settings document met reason) (id : String) :
    .answer (.ok id) ∉ met := by
  intro hm
  cases h with
  | refused => simp at hm
  | _ =>
    rcases List.mem_append.mp hm with hm | hm
    · exact stored_not_mem_attempts hm
    · simp at hm

theorem Diverted.keepings_eq (h : Diverted settings document met reason) : keepings met = [] := by
  cases h with
  | refused => rfl
  | _ =>
    rw [keepings_append, keepings_attempts]
    rfl

theorem Diverted.keptFor (h : Diverted settings document met reason) : KeptFor met reason := by
  cases h with
  | refused =>
    exact ⟨by simp, fun _ d => by simp, by simp, fun text => by simp⟩
  | failed faults fault _ _ =>
    have hr : .refused ∉ (attempts document faults ++ [.put document, .answer (.error fault)] :
        List (Encounter σ)) := by simp [refused_not_mem_attempts]
    have hc : .ceiling ∉ (attempts document faults ++ [.put document, .answer (.error fault)] :
        List (Encounter σ)) := by simp [ceiling_not_mem_attempts]
    refine ⟨by simp [hr], fun h => absurd h hr, by simp [hc], fun text => ?_⟩
    rw [lastFault?_failed]
    simp [hr, hc]
  | lateWriting | latePausing =>
    exact ⟨by simp [refused_not_mem_attempts], fun h => by simp [refused_not_mem_attempts] at h,
      by simp, fun text => by simp⟩

/-- The record that is begun afterwards changes no reason. -/
theorem KeptFor.concat (h : KeptFor met reason) (k : Keeping σ) :
    KeptFor (met ++ [.fallback k]) reason := by
  have hlast : lastFault? (met ++ [.fallback k]) = lastFault? met := by
    simp [lastFault?, List.filterMap_append]
  refine ⟨?_, ?_, ?_, fun text => ?_⟩
  · rw [h.refused]
    simp
  · simpa using h.unwritten
  · rw [h.timeout]
    simp
  · rw [h.fault text, hlast]
    simp

theorem lost_of_troubled {answer : FileAnswer} {kept : Fallback.Kept} {fault : TagFault}
    (ht : Fallback.Troubled answer kept) (hlost : conclude i reason kept = .error fault) :
    (∃ f, answer = .fault f ∧ fault = .lost f) ∨
      ∃ message, answer = .crashed message ∧ fault = .interrupted (crashReport i message) := by
  cases ht with
  | fault f =>
    cases hlost
    exact .inl ⟨f, rfl, rfl⟩
  | crashed message =>
    cases hlost
    exact .inr ⟨message, rfl, rfl⟩

variable [FileStore σ] [FileView σ]

/-- A record that was not kept met trouble with the files. -/
theorem Keeping.Faithful.answered {k : Keeping σ} {directory : String} {fault : TagFault}
    (hf : k.Faithful directory) (hlost : conclude i reason k.kept = .error fault) :
    ∃ answer, k.Answered directory answer ∧
      ((∃ f, answer = .fault f ∧ fault = .lost f) ∨
        ∃ message, answer = .crashed message ∧ fault = .interrupted (crashReport i message)) := by
  obtain ⟨document, now, suffix, before, kept, after⟩ := k
  have hcalls : Fallback.Keeps directory now suffix document before kept after := hf.calls
  cases hcalls with
  | noDirectory hmade ht => exact ⟨_, .inl hmade, lost_of_troubled ht hlost⟩
  | noRecord hmade hwritten ht => exact ⟨_, .inr ⟨_, hmade, hwritten⟩, lost_of_troubled ht hlost⟩
  | record => cases hlost

/-- A call whose record was begun is accounted for by how that ended. -/
theorem accounted_of_kept {k : Keeping σ} {hs : List (Handling σ)}
    (hd : Diverted settings document met reason) (hdoc : k.document = document)
    (hf : k.Faithful settings.fallbackDirectory)
    (hhs : Follows i (keepings (met ++ [.fallback k])) hs) :
    Accounted settings.fallbackDirectory i document (met ++ [.fallback k]) hs
      (conclude i reason k.kept) := by
  have hone : keepings (met ++ [.fallback k]) = [k] := by
    rw [keepings_append, hd.keepings_eq]
    rfl
  have hfiled : k.Filed i hs := hhs.filed hone
  have hunstored : ∀ id, .answer (.ok id) ∉ met ++ [.fallback k] := fun id => by
    simp [hd.unstored id]
  have hnever : ∀ id, conclude i reason k.kept ≠ .ok (.stored id) := fun id => by
    cases k.kept <;> nofun
  refine ⟨fun d hm => hd.put_eq (by simpa using hm), fun id => ?_, fun id he => ?_,
    fun path reason' he => ?_, fun fault he => ?_⟩
  · exact ⟨fun he => absurd he (hnever id), fun hm => absurd hm (hunstored id)⟩
  · exact absurd he (hnever id)
  · cases hk : k.kept with
    | «at» there =>
      rw [hk] at he
      cases he
      exact ⟨hd.keptFor.concat k, k, hone, hdoc, hf, hfiled, hk⟩
    | fault | crashed => simp [hk, conclude] at he
  · obtain ⟨answer, hanswer, hfault⟩ := hf.answered he
    exact ⟨k, answer, hone, hdoc, hf, hfiled, hanswer, hfault⟩

theorem Passed.accounted {hs : List (Handling σ)} {result : Except TagFault TagOutcome}
    (h : Passed settings i document met (.ended result)) (hhs : Follows i (keepings met) hs) :
    Accounted settings.fallbackDirectory i document met hs result := by
  cases h with
  | stored faults id _ =>
    have hnone : keepings (attempts document faults ++ [.put document, .answer (.ok id)] :
        List (Encounter σ)) = [] := by
      rw [keepings_append, keepings_attempts]
      rfl
    refine ⟨fun d hd => ?_, fun id' => ?_, fun _ _ => ?_, nofun, nofun⟩
    · exact put_eq_of_mem_append (by simp) hd
    · simp [stored_not_mem_attempts, eq_comm]
    · exact ⟨hnone, hhs.idle_of_nil hnone⟩
  | kept met reason k hd hdoc hf => exact accounted_of_kept hd hdoc hf hhs

/-- A call that has not ended has begun no record. -/
theorem Passed.keepings_eq {p : TagPhase} (h : Passed settings i document met p)
    (hp : ∀ result, p ≠ .ended result) : keepings met = [] := by
  cases h with
  | waiting => rfl
  | writing faults a _ _ =>
    rw [keepings_append, keepings_attempts]
    rfl
  | pausing => exact keepings_attempts
  | keeping _ _ hd => exact hd.keepings_eq
  | stored | kept => exact absurd rfl (hp _)

namespace World

/-- What becomes of a call that began: it keeps its document, meets little, leaves the files alone
until it ends, can be brought to its end by the client alone, and is accounted for when it has
ended. -/
structure CallKept (w : World σ) (settings : TagSettings) (i : Nat) (document : TagDocument)
    (hs : List (Handling σ)) : Prop where
  present : ∃ p, w.client.calls[i]? = some ⟨document, p⟩
  bounded : (w.met i).length ≤ 2 * settings.maxRetries + 3
  idle : (∀ result, w.client.phase? i ≠ some (.ended result)) → ∀ h ∈ hs, h.Idle
  ends : ∀ t, ∃ es, OwnRun t es ∧
    ∃ result, (w.play es).client.calls[i]? = some ⟨document, .ended result⟩
  accounted : ∀ result, w.client.calls[i]? = some ⟨document, .ended result⟩ →
    Accounted settings.fallbackDirectory i document (w.met i) hs result

theorem Recorded.callKept {w : World σ} {hs : List (Handling σ)} (h : w.Recorded settings)
    (hh : w.Held) (hc : ∃ p, w.client.calls[i]? = some ⟨document, p⟩)
    (hhs : Follows i (keepings (w.met i)) hs) : w.CallKept settings i document hs := by
  obtain ⟨p, hp⟩ := hc
  have hpassed := h.call i document p hp
  refine ⟨⟨p, hp⟩, hpassed.length_le, fun hending => ?_, hh.ends ⟨p, hp⟩, fun result hr => ?_⟩
  · refine hhs.idle_of_nil (hpassed.keepings_eq fun result he => hending result ?_)
    rw [phase?_of_call hp, he]
  · exact (h.call i document _ hr).accounted hhs

/-- **No document is lost or delivered twice by one call.** From any state that any calls have led
to, a run is refused exactly for its id, and then nothing is touched; any other call is accounted
for, whatever happens afterwards. -/
theorem play_accounts (settings : TagSettings) (breaker : Breaker) (files : σ)
    (before after : List (Event σ × Moment)) (run : Run) (m : Moment) :
    let w := (new settings breaker files).play before
    match w.client.start run m with
    | .error fault =>
      RunId.wellFormed run.id = false ∧ fault = ⟨preview run.id⟩ ∧ w.step (.start run, m) = w
    | .ok (i, _) =>
      RunId.wellFormed run.id = true ∧ w.met i = [] ∧ ∃ document,
        TagDocument.ofRun settings.limits m.wall run = .ok document ∧
        (w.play ((.start run, m) :: after)).CallKept settings i document
          (w.handlings i ((.start run, m) :: after)) := by
  intro w
  have hr : w.Recorded settings := (recorded_new settings breaker files).play before
  have hh : w.Held := (held_new settings breaker files).play before
  rcases TagDocument.ofRun_cases w.client.settings.limits m.wall run with
    ⟨hbad, hd⟩ | ⟨hgood, document, hd⟩
  · have hs : w.client.start run m = .error ⟨preview run.id⟩ := by
      rw [start, hd]
      rfl
    rw [hs]
    refine ⟨hbad, rfl, ?_⟩
    rw [step_start, hd]
  · obtain ⟨client, hs⟩ : ∃ client,
        w.client.start run m = .ok (w.client.calls.length, client) := by
      rw [start, hd]
      exact ⟨_, rfl⟩
    have hnone : w.met w.client.calls.length = [] := hr.none _ (Nat.le_refl _)
    rw [hs]
    refine ⟨hgood, hnone, document, hr.same ▸ hd, ?_⟩
    have hstart := step_start_calls hd
    obtain ⟨ks, hks, hhs⟩ := w.follows_play w.client.calls.length ((.start run, m) :: after)
    rw [hnone] at hks
    exact (hr.play _).callKept (hh.play _) (play_calls after hstart) (hks ▸ hhs)

/-- Six o'clock, with the timer at this reading. -/
def sixOf (timer : Nat) : Moment := ⟨⟨20000, Instant.secondOf 21600, Instant.nanoOf 0⟩, 0, timer⟩

def drill (id : String) : Run := ⟨id, "Drill", "acme", .finished, none, none, []⟩

def drillDocument (timer : Nat) (id : String) : TagDocument :=
  .assemble (sixOf timer).wall id "Drill" "acme" .finished [] []

/-- Two calls at a time, with no retries. -/
def unrepeated : TagSettings := ⟨2, 30000, 0, .standard, "fallback"⟩

/-- The store takes neither document. Between the two records somebody puts a file where their
directory is. -/
def diskFails : List (Event Disk × Moment) :=
  [(.start (drill "drill-0001"), sixOf 0), (.start (drill "drill-0002"), sixOf 10),
    (.answered 0 (.error (.refused 400 "bad")), sixOf 20), (.keep 0 7, sixOf 30),
    (.elsewhere fun _ => ⟨.directory [("fallback", .file (.text ""))]⟩, sixOf 40),
    (.answered 1 (.error (.refused 400 "bad")), sixOf 50), (.keep 1 8, sixOf 60)]

/-- One call is kept on the disk, and the other is lost to it. -/
theorem diskFails_accounted :
    let start : World Disk := new unrepeated (.new 5 60000000000) ⟨.directory []⟩
    let next := start.play (diskFails.take 1)
    let w := start.play diskFails
    w.client.calls.map TagCall.result? =
      [some (.ok (.kept "fallback/fallback_20241004_060000_drill-0001_00000007.json"
        (.storeFault "API error (status 400): bad"))),
      some (.error (.lost ⟨.createDirectory, "fallback", "File exists (os error 17)"⟩))] ∧
    w.CallKept unrepeated 0 (drillDocument 0 "drill-0001") (start.handlings 0 diskFails) ∧
    w.CallKept unrepeated 1 (drillDocument 10 "drill-0002")
      (next.handlings 1 (diskFails.drop 1)) := by
  intro start next w
  obtain ⟨-, -, first, hfirst, hkept⟩ := play_accounts unrepeated (.new 5 60000000000)
    (⟨.directory []⟩ : Disk) [] (diskFails.drop 1) (drill "drill-0001") (sixOf 0)
  obtain ⟨-, -, second, hsecond, hlost⟩ := play_accounts unrepeated (.new 5 60000000000)
    (⟨.directory []⟩ : Disk) (diskFails.take 1) (diskFails.drop 2) (drill "drill-0002") (sixOf 10)
  obtain rfl : drillDocument 0 "drill-0001" = first := Except.ok.inj hfirst
  obtain rfl : drillDocument 10 "drill-0002" = second := Except.ok.inj hsecond
  have hw : w = next.play (diskFails.drop 1) := by
    rw [← play_append, List.take_append_drop]
  refine ⟨by decide +kernel, hkept, ?_⟩
  rw [hw]
  exact hlost

end World
end AfterAction.Tagging
