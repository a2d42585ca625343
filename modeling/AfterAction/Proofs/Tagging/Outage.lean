import AfterAction.Files.Memory
import AfterAction.Proofs.Breaker.Outage
import AfterAction.Proofs.Tagging.Recovery
import AfterAction.Proofs.Tagging.Smooth
import Mathlib.Data.List.Perm.Subperm

/-!
# Traffic to a store that takes nothing

While no write succeeds, a client sends few documents before its breaker opens, however many calls
there are and however they overlap: as long as the breaker is closed, fewer calls have failed than
its threshold, and those that have not failed yet are on slots. Afterwards every call is refused,
or is the one trial that is out.
-/

namespace AfterAction.Tagging

/-- What the calls did to the breaker. -/
def breakerDealings (trace : List (Nat × Dealing)) : List Breaker.Dealing :=
  trace.filterMap (·.2.breaker?)

theorem breakerDealings_append (trace trace' : List (Nat × Dealing)) :
    breakerDealings (trace ++ trace') = breakerDealings trace ++ breakerDealings trace' :=
  List.filterMap_append

theorem breakerDealings_map (ds : List Dealing) (i : Nat) :
    breakerDealings (ds.map (Prod.mk i)) = ds.filterMap Dealing.breaker? := by
  rw [breakerDealings, List.filterMap_map]
  rfl

/-- The calls that were admitted, as trials or as ordinary calls. -/
def admitted (trial : Bool) (trace : List (Nat × Dealing)) : List Nat :=
  (trace.filter fun e => e.2.breaker?.any (·.grants trial)).map (·.1)

theorem length_admitted (trial : Bool) (trace : List (Nat × Dealing)) :
    (admitted trial trace).length = (breakerDealings trace).countP (Breaker.Dealing.grants trial) := by
  rw [admitted, List.length_map, ← List.countP_eq_length_filter, breakerDealings,
    List.countP_filterMap]
  refine List.countP_congr fun e _ => ?_
  cases e.2.breaker? <;> simp

theorem mem_admitted {trial : Bool} {trace : List (Nat × Dealing)} {i now : Nat} {a : Admission}
    (h : .breaker (.granted a now) ∈ ofCall trace i) (ha : a.trial = trial) :
    i ∈ admitted trial trace := by
  obtain ⟨⟨j, d⟩, he, rfl⟩ := List.mem_map.mp h
  obtain ⟨hmem, hj⟩ := List.mem_filter.mp he
  refine List.mem_map.mpr ⟨(j, _), List.mem_filter.mpr ⟨hmem, ?_⟩, of_decide_eq_true hj⟩
  simp [Dealing.breaker?, Breaker.Dealing.grants, ha]

/-- All that a call has done that the breaker refused. -/
inductive TurnedAway (i : Nat) : TagPhase → List Dealing → Prop
  | keeping (now : Nat) :
      TurnedAway i (.keeping .breakerOpen) [.asked, .breaker (.refused now), .released]
  | ended (kept : Fallback.Kept) (now : Nat) :
      TurnedAway i (.ended (conclude i .breakerOpen kept))
        [.asked, .breaker (.refused now), .released, .recorded]

/-- Past the line a call was admitted or turned away. -/
theorem Done.past {i : Nat} {p : TagPhase} {ds : List Dealing} (h : Done i p ds)
    (hp : p ≠ .waiting) :
    (∃ a now, .breaker (.granted a now) ∈ ds) ∨ TurnedAway i p ds := by
  cases h with
  | waiting => exact absurd rfl hp
  | writing a now | pausing a wake now => exact .inl ⟨a.admission, now, by simp⟩
  | stored a id now | failed a reason now later _ => exact .inl ⟨a, now, by simp⟩
  | refused now => exact .inr (.keeping now)
  | recorded reason kept ds hkeeping =>
    cases hkeeping with
    | refused now => exact .inr (.ended kept now)
    | failed a reason now later _ => exact .inl ⟨a, now, by simp⟩

namespace World

variable {σ : Type} {w : World σ} {i : Nat} {document : TagDocument} {p p' : TagPhase}
  {x : Encounter σ} {b : Breaker} {m : Moment}

/-! ## Who is sending -/

/-- The calls that work on their attempts, with their admissions. -/
def sending (w : World σ) : List (Nat × Admission) :=
  w.client.calls.zipIdx.filterMap fun (call, i) => (admission? call.phase).map (i, ·)

theorem sending_admissions (w : World σ) : w.sending.map (·.2) = w.out := by
  have hcalls : w.out = (w.client.calls.zipIdx.map (·.1)).filterMap
      fun call => admission? call.phase := by rw [List.zipIdx_map_fst]; rfl
  rw [hcalls, sending, List.map_filterMap, List.filterMap_map]
  refine List.filterMap_congr fun e _ => ?_
  cases h : admission? e.1.phase <;> simp [h]

theorem sending_nodup (w : World σ) : (w.sending.map (·.1)).Nodup := by
  have hplaces : (w.client.calls.zipIdx.map (·.2)).Nodup := by
    rw [List.zipIdx_map_snd]
    exact List.nodup_range'
  rw [List.Nodup, List.pairwise_map] at hplaces ⊢
  rw [sending, List.pairwise_filterMap]
  refine hplaces.imp fun hne => ?_
  intro e he e' he'
  obtain ⟨a, -, rfl⟩ := Option.map_eq_some_iff.mp he
  obtain ⟨a', -, rfl⟩ := Option.map_eq_some_iff.mp he'
  exact hne

theorem onSlot_of_admission? {a : Admission} (h : admission? p = some a) :
    onSlot p = true ∧ p ≠ .waiting := by
  cases p with
  | writing | pausing => exact ⟨rfl, nofun⟩
  | waiting | keeping | ended => cases h

/-- Whoever is sending has a slot. -/
theorem Held.sending_length_le (h : w.Held) : w.sending.length ≤ w.client.slots.total := by
  have hsub : w.sending.map (·.1) ⊆ w.client.slots.holders := by
    intro i hi
    obtain ⟨e, he, rfl⟩ := List.mem_map.mp hi
    obtain ⟨⟨call, i⟩, hcall, hentry⟩ := List.mem_filterMap.mp he
    obtain ⟨a, ha, rfl⟩ := Option.map_eq_some_iff.mp hentry
    obtain ⟨hslot, hnot⟩ := onSlot_of_admission? ha
    have hc := List.mem_zipIdx_iff_getElem?.mp hcall
    exact (h.busy i call.document call.phase hc hslot).resolve_right fun hw => hnot hw.1
  have hlen := (w.sending_nodup.subperm hsub).length_le
  rw [List.length_map] at hlen
  have hheld := h.balanced.held
  omega

/-! ## While no write succeeds -/

/-- The ordinary admissions that were granted. -/
def ordinary (trace : List (Nat × Dealing)) : Nat :=
  (breakerDealings trace).countP (Breaker.Dealing.grants false)

/-- No call has handed its admission back with success. -/
def Unsuccessful (trace : List (Nat × Dealing)) : Prop :=
  ∀ d ∈ breakerDealings trace, d.succeeds = false

/-- What the calls of a client did to its breaker adds up: what they were granted and have not handed
back they have, and without a success the breaker has counted all that failed. -/
structure Tallied (threshold : Nat) (w : World σ) (trace : List (Nat × Dealing)) : Prop where
  held : w.Held
  lends : Breaker.Lends threshold w.client.breaker w.out
  balance : ordinary trace =
    (breakerDealings trace).countP (Breaker.Dealing.returns false) + w.out.countP (·.trial == false)
  counted : Unsuccessful trace → w.client.breaker.failures =
    min (Breaker.failuresOf (breakerDealings trace)) Breaker.failureCap

theorem tallied_new (settings : TagSettings) (threshold cooldown : Nat) (files : σ) :
    (new settings (Breaker.new threshold cooldown) files).Tallied threshold [] where
  held := held_new settings (Breaker.new threshold cooldown) files
  lends := Breaker.lends_new threshold cooldown
  balance := rfl
  counted := fun _ => (Nat.zero_min _).symm

variable {threshold places : Nat} {trace : List (Nat × Dealing)}

/-- A closed breaker has heard of fewer failures than its threshold, and the other ordinary calls
that it let through are on slots. -/
theorem Tallied.ordinary_lt (h : w.Tallied threshold trace)
    (hcap : max threshold 1 ≤ Breaker.failureCap) (hnone : Unsuccessful trace)
    (hclosed : w.client.breaker.isOpen = false) :
    ordinary trace < max threshold 1 + w.client.slots.total := by
  have hfew := h.lends.failures_lt hclosed
  have hcounted := h.counted hnone
  have hreturns := Breaker.returns_le_failuresOf hnone false
  have hbalance := h.balance
  have hout : w.out.countP (·.trial == false) ≤ w.client.slots.total := by
    refine Nat.le_trans List.countP_le_length ?_
    rw [← sending_admissions, List.length_map]
    exact h.held.sending_length_le
  omega

theorem breakerDealings_joined (trace : List (Nat × Dealing)) (i : Nat) :
    breakerDealings (trace ++ [(i, .asked)]) = breakerDealings trace := by
  rw [breakerDealings_append]
  exact List.append_nil _

theorem Tallied.joined (h : w.Tallied threshold trace) (document : TagDocument) :
    (w.joined document).Tallied threshold (trace ++ [(w.client.calls.length, .asked)]) := by
  refine ⟨h.held.joined document, ?_, ?_, ?_⟩
  · rw [out_joined]
    exact h.lends
  · rw [ordinary, breakerDealings_joined, out_joined]
    exact h.balance
  · rw [Unsuccessful, breakerDealings_joined]
    exact h.counted

theorem breakerDealings_moved (trace : List (Nat × Dealing)) (ds : List Dealing) (i : Nat) :
    breakerDealings (trace ++ ds.map (Prod.mk i)) =
      breakerDealings trace ++ ds.filterMap Dealing.breaker? := by
  rw [breakerDealings_append, breakerDealings_map]

theorem Unsuccessful.before {trace' : List (Nat × Dealing)} (h : Unsuccessful (trace ++ trace')) :
    Unsuccessful trace := by
  intro d hd
  refine h d ?_
  rw [breakerDealings_append]
  exact List.mem_append_left _ hd

variable [FileStore σ]

theorem Tallied.moved (h : w.Tallied threshold trace)
    (hc : w.client.calls[i]? = some ⟨document, p⟩) (hm : Move w m i document p x p' b) :
    (w.moved i x p p' b).Tallied threshold (trace ++ (dealt m p p').map (Prod.mk i)) := by
  obtain ⟨hreplay, hturn⟩ := hm.turn
  obtain ⟨rest, hbefore, hafter⟩ :=
    Breaker.filterMap_modify (fun call : TagCall => admission? call.phase) hc
  have hout : w.out.Perm ((admission? p).toList ++ rest) := hbefore
  have hout' : (w.moved i x p p' b).out.Perm ((admission? p').toList ++ rest) :=
    hafter fun call => { call with phase := p' }
  refine ⟨h.held.moved hc hm, lends_moved h.lends hc hm, ?_, fun hnone => ?_⟩
  · have hbalance := h.balance
    have hone := hturn.balance false
    rw [hout.countP_eq, List.countP_append, ordinary] at hbalance
    rw [ordinary, hout'.countP_eq, breakerDealings_moved, List.countP_append, List.countP_append,
      List.countP_append]
    omega
  · have hcount := Breaker.failures_of_replay? hreplay (fun d hd => hnone d ?_)
      (h.counted hnone.before)
    · rw [breakerDealings_moved, Breaker.failuresOf, List.countP_append]
      exact hcount
    · rw [breakerDealings_moved]
      exact List.mem_append_right _ hd

/-- Without a success, ordinary calls are few. -/
structure Curbed (threshold places : Nat) (w : World σ) (trace : List (Nat × Dealing)) : Prop where
  tallied : w.Tallied threshold trace
  total : w.client.slots.total = places
  few : Unsuccessful trace → ordinary trace < max threshold 1 + places

/-- While the breaker is closed the tally bounds the ordinary calls; from then on it grants none. -/
theorem Curbed.moved (hcap : max threshold 1 ≤ Breaker.failureCap)
    (h : w.Curbed threshold places trace) (hc : w.client.calls[i]? = some ⟨document, p⟩)
    (hm : Move w m i document p x p' b) :
    (w.moved i x p p' b).Curbed threshold places (trace ++ (dealt m p p').map (Prod.mk i)) := by
  have htallied := h.tallied.moved hc hm
  have htotal := (total_moved w i x p p' b).trans h.total
  refine ⟨htallied, htotal, fun hnone => ?_⟩
  cases hopen : b.isOpen with
  | false =>
    rw [← htotal]
    exact htallied.ordinary_lt hcap hnone hopen
  | true =>
    obtain ⟨hreplay, hturn⟩ := hm.turn
    have hgrants : ((dealt m p p').filterMap Dealing.breaker?).countP
        (Breaker.Dealing.grants false) = 0 := by
      rcases Nat.eq_zero_or_pos _ with hzero | hpos
      · exact hzero
      · exact absurd (hturn.closed_of_grants hreplay hpos) (by simp [hopen])
    rw [ordinary, breakerDealings_moved, List.countP_append, hgrants]
    exact h.few hnone.before

theorem Curbed.step (hcap : max threshold 1 ≤ Breaker.failureCap)
    (h : w.Curbed threshold places trace) (e : Event σ × Moment) :
    (w.step e).Curbed threshold places (trace ++ w.dealings e) := by
  refine dealings_induction (P := Curbed threshold places) ?_ ?_ ?_ h e
  · intro w document trace h
    refine ⟨h.tallied.joined document, (Slots.total_ask _ _).trans h.total, fun hnone => ?_⟩
    rw [ordinary, breakerDealings_joined]
    exact h.few hnone.before
  · intro w m i document p x p' b trace h hc hm
    exact h.moved hcap hc hm
  · intro w change trace h
    obtain ⟨⟨hheld, hlends, hbalance, hcounted⟩, htotal, hfew⟩ := h
    exact ⟨⟨hheld.elsewhere _, hlends, hbalance, hcounted⟩, htotal, hfew⟩

theorem Curbed.play (hcap : max threshold 1 ≤ Breaker.failureCap)
    (h : w.Curbed threshold places trace) (es : List (Event σ × Moment)) :
    (w.play es).Curbed threshold places (trace ++ w.trace es) :=
  trace_induction (P := Curbed threshold places) (fun _ _ e h => h.step hcap e) h es

omit [FileStore σ] in
/-- Calls hand their admissions back with success only when the store takes a document. -/
theorem Told.unsuccessful (h : w.Told trace) (hnone : ∀ i id, .answer (.ok id) ∉ w.met i) :
    Unsuccessful trace := by
  intro d hd
  obtain ⟨⟨i, dealing⟩, hmem, hd⟩ := List.mem_filterMap.mp hd
  cases dealing with
  | breaker d' =>
    cases hd
    cases d with
    | succeeded a =>
      have hof : .breaker (.succeeded a) ∈ ofCall trace i :=
        List.mem_map.mpr ⟨_, List.mem_filter.mpr ⟨hmem, by simp⟩, rfl⟩
      obtain ⟨id, hmet⟩ := (h.answered i).mp ⟨a, hof⟩
      exact absurd hmet (hnone i id)
    | _ => rfl
  | _ => cases hd

/-- What the traffic of a client comes to at any moment of an outage, for what its calls did. -/
structure Throttled (settings : TagSettings) (threshold : Nat) (w : World σ)
    (trace : List (Nat × Dealing)) : Prop where
  /-- Calls that were ever let through to the store as ordinary calls. -/
  ordinary : (admitted false trace).length ≤ max threshold 1 + max settings.concurrency 1 - 1
  sending : w.sending.length ≤ max settings.concurrency 1
  trial : (w.sending.filter (·.2.trial)).length ≤ 1
  past : ∀ i document p, w.client.calls[i]? = some ⟨document, p⟩ → p ≠ .waiting →
    i ∈ admitted false trace ∨ i ∈ admitted true trace ∨ TurnedAway i p (ofCall trace i)

/-- **The traffic of an outage is bounded.** After any run of a new client in which the store took no
document: fewer calls than threshold and slots together were let through as ordinary ones; no more
calls than slots are sending; and every other call that got past the line was turned away by the
breaker, or let through as a trial, of which one at most is out. -/
theorem play_throttled (settings : TagSettings) (threshold : UInt32) (cooldown : Nat) (files : σ)
    (es : List (Event σ × Moment)) :
    let w := new settings (Breaker.new threshold.toNat cooldown) files
    (∀ i id, .answer (.ok id) ∉ (w.play es).met i) →
      (w.play es).Throttled settings threshold.toNat (w.trace es) := by
  intro w hnone
  have hcap : max threshold.toNat 1 ≤ Breaker.failureCap := by
    have := threshold.toNat_lt
    unfold Breaker.failureCap
    omega
  have htold : (w.play es).Told (w.trace es) :=
    (told_new settings (Breaker.new threshold.toNat cooldown) files).play es
  have hcurbed : (w.play es).Curbed threshold.toNat (max settings.concurrency 1) (w.trace es) :=
    Curbed.play hcap ⟨tallied_new settings threshold.toNat cooldown files, rfl, fun _ => by
      show 0 < _
      omega⟩ es
  refine ⟨?_, ?_, ?_, fun i document p hc hp => ?_⟩
  · have hfew := hcurbed.few (htold.unsuccessful hnone)
    rw [World.ordinary, ← length_admitted] at hfew
    omega
  · rw [← hcurbed.total]
    exact hcurbed.tallied.held.sending_length_le
  · have htrials := hcurbed.tallied.lends.trials_le_one
    rwa [← sending_admissions, List.filter_map, List.length_map] at htrials
  · refine (htold.call i document p hc).past hp |>.elim (fun ⟨a, now, ha⟩ => ?_) (.inr ∘ .inr)
    cases htrial : a.trial with
    | false => exact .inl (mem_admitted ha htrial)
    | true => exact .inr (.inl (mem_admitted ha htrial))

/-! ## Five calls while the store is down -/

/-- A call meets the answers that it is given, and no others. -/
theorem answered_of_mem_met {es : List (Event σ × Moment)} {answer : Except RemoteFault String}
    (h : .answer answer ∈ (w.play es).met i) :
    .answer answer ∈ w.met i ∨ ∃ e ∈ es, e.1 = .answered i answer := by
  induction es generalizing w with
  | nil => exact .inl h
  | cons e es ih =>
    rcases ih h with hmet | ⟨e', he', hgiven⟩
    · obtain ⟨entry, hentry, hx⟩ := List.mem_map.mp hmet
      obtain ⟨hmem, hi⟩ := List.mem_filter.mp hentry
      rcases List.mem_append.mp hmem with hold | hnew
      · exact .inl (List.mem_map.mpr ⟨entry, List.mem_filter.mpr ⟨hold, hi⟩, hx⟩)
      · have henc := Option.mem_toList.mp hnew
        obtain rfl : entry = (i, .answer answer) := Prod.ext (of_decide_eq_true hi) hx
        exact .inr ⟨e, List.mem_cons_self, answered_of_encounter? henc⟩
    · exact .inr ⟨e', List.mem_cons_of_mem _ he', hgiven⟩

/-- The store takes a document. -/
def takes : Event σ → Bool
  | .answered _ answer => answer.isOk
  | _ => false

def someRun : Run := ⟨"op-live-0001", "Live", "acme", .running, none, none, []⟩

/-- Two calls at a time, which try once. -/
def twoSlots : TagSettings := ⟨2, 30000, 0, .standard, "fallback"⟩

def atNoon : Moment := ⟨⟨20000, Instant.secondOf 43200, Instant.nanoOf 0⟩, 0, 0⟩

/-- The store is busy, and after two failures the breaker opens for no time at all. The third call
has been let through by then, the fourth comes as a trial, and the fifth finds the trial out. -/
def outage : List (Event MemoryFiles × Moment) :=
  [.start someRun, .start someRun, .start someRun, .start someRun,
    .answered 0 (.error (.refused 503 "busy")), .notice 2,
    .answered 1 (.error (.refused 503 "busy")), .notice 3, .start someRun,
    .answered 2 (.error (.refused 503 "busy")), .notice 4].map (·, atNoon)

/-- The bound is met: of five calls three are let through as ordinary ones. -/
theorem outage_throttled :
    let w : World MemoryFiles := new twoSlots (Breaker.new 2 0) MemoryFiles.empty
    (∀ i id, .answer (.ok id) ∉ (w.play outage).met i) ∧
    admitted false (w.trace outage) = [0, 1, 2] ∧ admitted true (w.trace outage) = [3] ∧
    (w.play outage).sending = [(3, ⟨true⟩)] ∧
    (w.play outage).Throttled twoSlots 2 (w.trace outage) := by
  intro w
  have hbusy : ∀ e ∈ outage, takes e.1 = false := by decide
  have hnone : ∀ i id, .answer (.ok id) ∉ (w.play outage).met i := by
    intro i id hmet
    rcases answered_of_mem_met hmet with hmet | ⟨e, he, hgiven⟩
    · cases hmet
    · have htakes := hbusy e he
      rw [hgiven] at htakes
      cases htakes
  refine ⟨hnone, by decide +kernel, by decide +kernel, by decide +kernel,
    play_throttled twoSlots 2 0 MemoryFiles.empty outage hnone⟩

end World
end AfterAction.Tagging
