import AfterAction.Proofs.Fallback.Records
import AfterAction.Proofs.Tagging.World

/-!
# What a call has met

`Passed` lists the histories that lead a call to a phase: attempts that failed and were retried,
then whatever brought it there. Every world that was played from a new one has for each of its calls
such a history, whatever all the calls do and in whichever order.
-/

namespace AfterAction.Tagging

variable {σ : Type}

/-- Where the record goes. -/
def Keeping.path (k : Keeping σ) (directory : String) : String :=
  Fallback.recordPath directory k.now k.suffix k.document

/-- The record was given to the fallback. It shows whole at its path, or the path shows what it
showed before; other names of other files are left alone. -/
structure Keeping.Faithful [FileStore σ] [FileView σ] (k : Keeping σ) (directory : String) :
    Prop where
  calls : Fallback.Keeps directory k.now k.suffix k.document k.before k.kept k.after
  kept : ∀ path, k.kept = .at path → path = k.path directory ∧
    FileView.Shows path (some (.text (Fallback.recordText k.now k.document))) k.after
  lost : (∀ path, k.kept ≠ .at path) → ∀ shown,
    FileView.Shows (k.path directory) shown k.before →
      FileView.Shows (k.path directory) shown k.after
  apart : ∀ other, ¬ FileView.touches σ (k.path directory) other → ∀ shown,
    FileView.Shows other shown k.before → FileView.Shows other shown k.after

/-- Attempts that failed, one after the other. -/
def attempts (document : TagDocument) (faults : List RemoteFault) : List (Encounter σ) :=
  faults.flatMap fun fault => [.put document, .answer (.error fault)]

theorem attempts_concat (document : TagDocument) (faults : List RemoteFault) (fault : RemoteFault) :
    (attempts document (faults ++ [fault]) : List (Encounter σ)) =
      attempts document faults ++ [.put document, .answer (.error fault)] := by
  simp [attempts]

theorem length_attempts (document : TagDocument) (faults : List RemoteFault) :
    (attempts document faults : List (Encounter σ)).length = 2 * faults.length := by
  induction faults with
  | nil => rfl
  | cons fault rest ih =>
    rw [attempts, List.flatMap_cons, List.length_append]
    rw [attempts] at ih
    rw [ih]
    simp only [List.length_cons, List.length_nil]
    omega

theorem mem_attempts {document : TagDocument} {faults : List RemoteFault} {x : Encounter σ}
    (h : x ∈ attempts document faults) :
    x = .put document ∨ ∃ fault ∈ faults, x = .answer (.error fault) := by
  obtain ⟨fault, hf, hx⟩ := List.mem_flatMap.mp h
  rcases List.mem_cons.mp hx with rfl | hx
  · exact .inl rfl
  · exact .inr ⟨fault, hf, List.mem_singleton.mp hx⟩

/-- Faults after which a call tries once more. -/
structure Retried (settings : TagSettings) (faults : List RemoteFault) : Prop where
  retryable : ∀ fault ∈ faults, fault.isRetryable = true
  length_le : faults.length ≤ settings.maxRetries

theorem retried_nil (settings : TagSettings) : Retried settings [] := ⟨nofun, Nat.zero_le _⟩

theorem Retried.concat {settings : TagSettings} {faults : List RemoteFault} {fault : RemoteFault}
    (h : Retried settings faults) (hf : fault.isRetryable = true)
    (hl : faults.length < settings.maxRetries) : Retried settings (faults ++ [fault]) := by
  refine ⟨fun f hm => ?_, ?_⟩
  · rcases List.mem_append.mp hm with hm | hm
    · exact h.retryable f hm
    · rwa [List.mem_singleton.mp hm]
  · rw [List.length_append]
    exact hl

section
variable (settings : TagSettings) (i : Nat) (document : TagDocument)

/-- Histories after which the document is kept back, with the reason. -/
inductive Diverted : List (Encounter σ) → KeptReason → Prop
  | refused : Diverted [.refused] .breakerOpen
  | failed (faults : List RemoteFault) (fault : RemoteFault) : Retried settings faults →
      (fault.isRetryable = true → settings.maxRetries ≤ faults.length) →
      Diverted (attempts document faults ++ [.put document, .answer (.error fault)])
        (.storeFault fault.message)
  | lateWriting (faults : List RemoteFault) : Retried settings faults →
      Diverted (attempts document faults ++ [.put document, .ceiling]) .timeout
  | latePausing (faults : List RemoteFault) : Retried settings faults →
      Diverted (attempts document faults ++ [.ceiling]) .timeout

/-- Histories that lead the call at place `i` to a phase. -/
inductive Passed [FileStore σ] [FileView σ] : List (Encounter σ) → TagPhase → Prop
  | waiting : Passed [] .waiting
  | writing (faults : List RemoteFault) (a : Attempt) : Retried settings faults →
      faults.length = a.retries →
      Passed (attempts document faults ++ [.put document]) (.writing a)
  | pausing (faults : List RemoteFault) (a : Attempt) (wake : Nat) : Retried settings faults →
      faults.length = a.retries → Passed (attempts document faults) (.pausing a wake)
  | keeping (met : List (Encounter σ)) (reason : KeptReason) :
      Diverted settings document met reason → Passed met (.keeping reason)
  | stored (faults : List RemoteFault) (id : String) : Retried settings faults →
      Passed (attempts document faults ++ [.put document, .answer (.ok id)])
        (.ended (.ok (.stored id)))
  | kept (met : List (Encounter σ)) (reason : KeptReason) (k : Keeping σ) :
      Diverted settings document met reason → k.document = document →
      k.Faithful settings.fallbackDirectory →
      Passed (met ++ [.fallback k]) (.ended (conclude i reason k.kept))

end

variable {settings : TagSettings} {i : Nat} {document : TagDocument} {met : List (Encounter σ)}
  {reason : KeptReason} {p p' : TagPhase}

theorem Retried.length_append_le {faults : List RemoteFault} (h : Retried settings faults)
    (rest : List (Encounter σ)) :
    (attempts document faults ++ rest).length ≤ 2 * settings.maxRetries + rest.length := by
  have hl := h.length_le
  rw [List.length_append, length_attempts]
  omega

theorem Diverted.length_le (h : Diverted settings document met reason) :
    met.length ≤ 2 * settings.maxRetries + 2 := by
  cases h with
  | refused => simp
  | failed faults fault hr _ => exact hr.length_append_le _
  | lateWriting faults hr => exact hr.length_append_le _
  | latePausing faults hr => exact Nat.le_succ_of_le (hr.length_append_le _)

variable [FileStore σ] [FileView σ]

theorem faithful_of_keep {directory : String} {now : Instant} {suffix : UInt32}
    {before after : σ} {kept : Fallback.Kept}
    (h : Fallback.keep directory now suffix document before = (kept, after)) :
    Keeping.Faithful ⟨document, now, suffix, before, kept, after⟩ directory where
  calls := Fallback.keep_keeps h
  kept path hpath := by
    cases hpath
    exact (Fallback.keep_keeps h).shows
  lost hlost _ hs := (Fallback.keep_keeps h).lost hlost hs
  apart _ ho _ hs := (Fallback.keep_keeps h).apart ho hs

/-- A call meets little: two things for each attempt, and one more for its record. -/
theorem Passed.length_le (h : Passed settings i document met p) :
    met.length ≤ 2 * settings.maxRetries + 3 := by
  cases h with
  | waiting => simp
  | writing faults a hr _ =>
    exact Nat.le_succ_of_le (Nat.le_trans (hr.length_append_le _) (by simp))
  | pausing faults a wake hr _ =>
    have hl := hr.length_le
    rw [length_attempts]
    omega
  | keeping _ _ hd => exact Nat.le_succ_of_le hd.length_le
  | stored faults id hr =>
    exact Nat.le_succ_of_le (Nat.le_trans (hr.length_append_le _) (by simp))
  | kept met reason k hd _ _ =>
    rw [List.length_append]
    exact Nat.succ_le_succ hd.length_le

/-- A move adds what was met. -/
theorem Passed.move {w : World σ} {m : Moment} {x : Encounter σ} {b : Breaker}
    (h : Passed w.client.settings i document met p) (hm : World.Move w m i document p x p' b) :
    Passed w.client.settings i document (met ++ [x]) p' := by
  cases hm with
  | refused _ _ =>
    cases h
    exact .keeping _ _ .refused
  | admitted a b _ _ =>
    cases h
    exact .writing [] _ (retried_nil _) rfl
  | stored a id =>
    cases h with
    | writing faults a hr _ =>
      rw [List.append_assoc]
      exact .stored faults id hr
  | retried a fault hf hl =>
    cases h with
    | writing faults a hr hn =>
      rw [List.append_assoc]
      show Passed _ _ _ (attempts document faults ++ [.put document, .answer (.error fault)]) _
      rw [← attempts_concat]
      refine .pausing _ _ _ (hr.concat hf (hn ▸ hl)) ?_
      rw [List.length_append, hn]
      rfl
  | gaveUp a fault hf =>
    cases h with
    | writing faults a hr hn =>
      rw [List.append_assoc]
      exact .keeping _ _ (.failed faults fault hr fun h => hn ▸ hf h)
  | resumed a wake _ =>
    cases h with
    | pausing faults a wake hr hn => exact .writing faults a hr hn
  | expiredWriting a _ =>
    cases h with
    | writing faults a hr _ =>
      rw [List.append_assoc]
      exact .keeping _ _ (.lateWriting faults hr)
  | expiredPausing a wake _ =>
    cases h with
    | pausing faults a wake hr _ => exact .keeping _ _ (.latePausing faults hr)
  | kept reason suffix kept after hk =>
    cases h with
    | keeping met reason hd =>
      exact .kept met reason ⟨document, m.wall, suffix, w.files, kept, after⟩ hd rfl
        (faithful_of_keep hk)

namespace World

variable {w : World σ}

/-- Each call has a history, and there is none without a call. -/
structure Recorded (settings : TagSettings) (w : World σ) : Prop where
  same : w.client.settings = settings
  call : ∀ i document p, w.client.calls[i]? = some ⟨document, p⟩ →
    Passed settings i document (w.met i) p
  none : ∀ i, w.client.calls.length ≤ i → w.met i = []

theorem recorded_new (settings : TagSettings) (breaker : Breaker) (files : σ) :
    (new settings breaker files).Recorded settings :=
  ⟨rfl, fun i document p hc => by simp [new, Tagging.new] at hc, fun _ _ => rfl⟩

theorem Recorded.joined (h : w.Recorded settings) (document : TagDocument) :
    (w.joined document).Recorded settings := by
  refine ⟨h.same, fun j d p hc => ?_, fun j hj => h.none j ?_⟩
  · rw [joined_calls] at hc
    split at hc
    · rename_i hj
      cases hc
      have hmet : (w.joined document).met j = [] := h.none j (Nat.le_of_eq hj.symm)
      rw [hmet]
      exact .waiting
    · exact h.call j d p hc
  · have : (w.joined document).client.calls.length = w.client.calls.length + 1 := by
      simp [World.joined]
    omega

theorem Recorded.moved {m : Moment} {x : Encounter σ} {b : Breaker} (h : w.Recorded settings)
    (hc : w.client.calls[i]? = some ⟨document, p⟩) (hm : Move w m i document p x p' b) :
    (w.moved i x p p' b).Recorded settings := by
  refine ⟨h.same, fun j d q hd => ?_, fun j hj => ?_⟩
  · rw [moved_met]
    rcases Decidable.em (i = j) with rfl | hne
    · cases (moved_calls_self hc).symm.trans hd
      rw [if_pos rfl]
      have hp := h.call i document p hc
      rw [← h.same] at hp ⊢
      exact hp.move hm
    · rw [if_neg hne, List.append_nil]
      exact h.call j d q ((moved_calls_ne w (Ne.symm hne)).symm.trans hd)
  · have hlen : (w.moved i x p p' b).client.calls.length = w.client.calls.length := by
      simp [World.moved]
    have hi := (List.getElem?_eq_some_iff.mp hc).1
    rw [moved_met, h.none j (by omega), if_neg (by omega)]
    rfl

theorem Recorded.step (h : w.Recorded settings) (e : Event σ × Moment) :
    (w.step e).Recorded settings :=
  step_induction (fun _ _ _ document h _ => h.joined document)
    (fun _ _ _ _ _ _ _ _ h hc hm => h.moved hc hm)
    (fun _ _ h => ⟨h.same, h.call, h.none⟩) h e

theorem Recorded.play (h : w.Recorded settings) (es : List (Event σ × Moment)) :
    (w.play es).Recorded settings :=
  play_induction (fun _ e h => h.step e) h es

end World
end AfterAction.Tagging
