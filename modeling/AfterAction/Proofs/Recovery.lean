import AfterAction.Files.Memory
import AfterAction.Proofs.Correlation.Recovery
import AfterAction.Proofs.Tagging.Recovery

/-!
# Breakers and slots come free again

Tagging and correlation each share a breaker among their calls, and tagging its slots as well.
Whatever the store and the files do to the calls, and however these overlap, nothing that was lent to
a call stays with it after its end, and a breaker at rest is never shut for good.
-/

namespace AfterAction

/-- **Neither breakers nor slots are ever wedged.** After any run of a tagging client, and after any
run of a correlation: what the calls did with slots and breaker is all that became of them; a call
that is refused, answered for good or out of time hands its slot and its admission back in that step,
and all calls can be brought to their ends without the store; a call that has ended gave its slot back
once, before its record, and its admission once, with success exactly if the store answered well in
time; with no call under way no trial is in flight and all slots are idle; and then a call that begins
a cooldown after the last failure reaches the store, and its success closes the breaker with nothing
counted. -/
theorem calls_recover {σ : Type} [FileStore σ] (settings : TagSettings) (files : σ)
    (timeout window threshold cooldown : Nat) (tags : List (Tagging.Event σ × Moment))
    (fetches : List (Correlation.Event × Moment)) :
    let breaker := Breaker.new threshold cooldown
    let client := Tagging.World.new settings breaker files
    let correlation := Correlation.World.new timeout window breaker
    (client.play tags).Unwedged settings threshold cooldown (client.trace tags) ∧
    (correlation.play fetches).Unwedged threshold cooldown (correlation.trace fetches) :=
  ⟨Tagging.World.unwedged_play settings threshold cooldown files tags,
    Correlation.World.unwedged_play timeout window threshold cooldown fetches⟩

/-- Noon, this many seconds later. -/
def noonAfter (seconds : Nat) : Moment :=
  ⟨⟨20000, Instant.secondOf 43200, Instant.nanoOf 0⟩, seconds * 1000000000, seconds * 1000⟩

def sweep : Run := ⟨"sweep-0001", "Sweep", "acme", .finished, none, none, []⟩

/-- One call at a time, with no retries. -/
def oneByOne : TagSettings := ⟨1, 30000, 0, .standard, "fallback"⟩

def refusedTag : List (Tagging.Event MemoryFiles × Moment) :=
  [(.start sweep, noonAfter 0), (.answered 0 (.error (.refused 503 "busy")), noonAfter 1),
    (.keep 0 7, noonAfter 2)]

def refusedFetch : List (Correlation.Event × Moment) :=
  [(.fetch sweep, noonAfter 0), (.answered 0 (.error (.refused 503 "busy")), noonAfter 1)]

/-- The first failure opens the breaker for a minute. From the rest after it a trial begins, and its
success closes the breaker. -/
theorem sweep_recovers :
    let breaker := Breaker.new 1 60000000000
    let client := Tagging.World.new oneByOne breaker MemoryFiles.empty
    let rest := client.play refusedTag
    let trial := rest.step (.start sweep, noonAfter 61)
    let closed := trial.step
      (.answered rest.client.calls.length (.ok "sweep-0001"), noonAfter 62)
    let correlation := Correlation.World.new 10000 300 breaker
    let idle := correlation.play refusedFetch
    let asked := idle.step (.fetch sweep, noonAfter 61)
    let told := asked.step (.answered idle.fetches.length (.ok []), noonAfter 62)
    (rest.Quiet ∧ rest.client.breaker.isOpen = true ∧ trial.client.breaker.trialInFlight = true ∧
      closed.client.breaker.isOpen = false ∧ closed.client.breaker.failures = 0) ∧
    idle.Quiet ∧ idle.correlation.breaker.isOpen = true ∧
      asked.correlation.breaker.trialInFlight = true ∧
      told.correlation.breaker.isOpen = false ∧ told.correlation.breaker.failures = 0 := by
  intro breaker client rest trial closed correlation idle asked told
  obtain ⟨htags, hfetches⟩ := calls_recover oneByOne MemoryFiles.empty 10000 300 1 60000000000
    refusedTag refusedFetch
  have hgood : RunId.wellFormed sweep.id = true := by decide
  refine ⟨?_, ?_⟩
  · have hquiet : rest.Quiet := by decide +kernel
    have hopen : rest.client.breaker.isOpen = true := by decide +kernel
    have hfailed : Breaker.lastFailed? ((client.trace refusedTag).filterMap (·.2.breaker?)) =
        some (noonAfter 1).steady := by decide +kernel
    have hreaches : rest.Reaches sweep (noonAfter 61) := by
      refine htags.reaches hquiet sweep (noonAfter 61) hgood fun last hlast => ?_
      cases hfailed.symm.trans hlast
      decide
    obtain ⟨document, attempt, -, hwriting, -, hcloses⟩ := hreaches
    obtain ⟨-, hclosed⟩ :=
      hcloses [] (.inl hopen) document attempt hwriting "sweep-0001" (noonAfter 62)
    rw [Tagging.World.play_nil] at hclosed
    refine ⟨hquiet, hopen, by decide +kernel, ?_⟩
    simp only [closed, trial]
    exact hclosed
  · have hquiet : idle.Quiet := by decide +kernel
    have hopen : idle.correlation.breaker.isOpen = true := by decide +kernel
    have hfailed : Breaker.lastFailed? ((correlation.trace refusedFetch).map (·.2)) =
        some (noonAfter 1).steady := by decide +kernel
    have hreaches : idle.Reaches sweep (noonAfter 61) := by
      refine hfetches.reaches hquiet sweep (noonAfter 61) hgood fun last hlast => ?_
      cases hfailed.symm.trans hlast
      decide
    obtain ⟨query, -, hasking, -, hcloses⟩ := hreaches
    exact ⟨hquiet, hopen, by decide +kernel,
      hcloses [] (.inl hopen) sweep query hasking [] (noonAfter 62)⟩

end AfterAction
