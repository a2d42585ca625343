import AfterAction.Files.Memory
import AfterAction.Proofs.Service.World

/-!
# What the store comes to say of a run

Each call begins with what its run looks like then, so the documents of a run that only advances are
in the order of its states when they are taken in the order of their calls. The store is not told of
that order. It keeps what it acknowledged last, and a call that began early and retries for long puts
an older state over a newer one (`running_over_finished`). There is no other way back: a call that
begins after the stored document's call can only bring the same state or a later one.
-/

namespace AfterAction

/-- How far a run is. -/
def RunState.rank : RunState → Nat
  | .pending => 0
  | .running => 1
  | .finished => 2

theorem RunState.eq_finished {state : RunState} (h : RunState.finished.rank ≤ state.rank) :
    state = .finished := by
  cases state with
  | finished => rfl
  | pending => simp [rank] at h
  | running => simp [rank] at h

def TagDocument.rank (document : TagDocument) : Nat := document.fields.status.rank

namespace Service.World

variable {σ : Type} {w w' w'' : World σ} {id : String}

/-! ## Documents in the order of their calls -/

/-- A run never goes back to an earlier state. -/
def Advancing (w : World σ) (id : String) : Prop :=
  (w.snapshots.filter (·.id = id)).Pairwise fun later earlier =>
    earlier.state.rank ≤ later.state.rank

instance (w : World σ) (id : String) : Decidable (w.Advancing id) :=
  inferInstanceAs (Decidable (List.Pairwise _ _))

/-- The documents of a run follow its states. -/
structure Aligned (w : World σ) (id : String) : Prop where
  behind : ∀ d ∈ w.documents, d.fields.operationId = id →
    ∃ run, w.run? id = some run ∧ d.rank ≤ run.state.rank
  ordered : w.documents.Pairwise fun d d' =>
    d.fields.operationId = id → d'.fields.operationId = id → d.rank ≤ d'.rank

theorem Turn.advancing (ht : Turn w w') (h : w'.Advancing id) : w.Advancing id := by
  cases ht with
  | looked run hservice hsnapshots hacknowledged =>
    rw [Advancing, hsnapshots] at h
    exact h.sublist ((List.sublist_cons_self run w.snapshots).filter _)
  | went _ hsnapshots _ | began _ _ _ _ _ _ hsnapshots _ | stored _ _ _ _ _ hsnapshots _ =>
    rwa [Advancing, hsnapshots] at h

/-- What a run looked like at some time is not past what it looks like now. -/
theorem Advancing.le_of_looked {run before : Run} (h : w'.Advancing run.id)
    (hsnapshots : w'.snapshots = run :: w.snapshots) (hbefore : w.run? run.id = some before) :
    before.state.rank ≤ run.state.rank := by
  have hmem : before ∈ w.snapshots.filter (·.id = run.id) :=
    List.mem_filter.mpr ⟨List.mem_of_find?_eq_some hbefore, decide_eq_true (id_of_run? hbefore)⟩
  rw [Advancing, hsnapshots, List.filter_cons_of_pos (by simp)] at h
  exact List.rel_of_pairwise_cons h hmem

theorem Turn.aligned (ht : Turn w w') (hadvancing : w'.Advancing id) (h : w.Aligned id) :
    w'.Aligned id := by
  cases ht with
  | went hgrows hsnapshots _ | stored _ _ _ _ hgrows hsnapshots _ =>
    have hdocuments : w'.documents = w.documents := by
      have := hgrows.documents
      rwa [List.append_nil] at this
    have hrun : w'.run? id = w.run? id := by rw [run?, run?, hsnapshots]
    refine ⟨fun d hd hid => ?_, ?_⟩
    · rw [hrun]
      exact h.behind d (hdocuments ▸ hd) hid
    · rw [hdocuments]
      exact h.ordered
  | looked run hservice hsnapshots _ =>
    have hdocuments : w'.documents = w.documents := by rw [documents, hservice, documents]
    refine ⟨fun d hd hid => ?_, ?_⟩
    · obtain ⟨before, hbefore, hle⟩ := h.behind d (hdocuments ▸ hd) hid
      by_cases hrun : run.id = id
      · subst hrun
        have hnow : w'.run? run.id = some run := by simp [run?, hsnapshots]
        exact ⟨run, hnow, Nat.le_trans hle (hadvancing.le_of_looked hsnapshots hbefore)⟩
      · have hsame : w'.run? id = w.run? id := by simp [run?, hsnapshots, hrun]
        exact ⟨before, hsame.trans hbefore, hle⟩
    · rw [hdocuments]
      exact h.ordered
  | began run document hrun hid hstatus hgrows hsnapshots _ =>
    have hsame : w'.run? id = w.run? id := by rw [run?, run?, hsnapshots]
    have hdocuments : w'.documents = w.documents ++ [document] := hgrows.documents
    have hrank : document.rank = run.state.rank := congrArg RunState.rank hstatus
    -- The new document says what the run looks like now, and no older one is past that.
    have hnew : ∀ d ∈ w.documents, d.fields.operationId = id → run.id = id →
        d.rank ≤ document.rank := by
      intro d hd hdid hrid
      obtain ⟨now, hnow, hle⟩ := h.behind d hd hdid
      rw [hrid, hnow] at hrun
      cases hrun
      rwa [hrank]
    refine ⟨fun d hd hdid => ?_, ?_⟩
    · rw [hsame]
      rw [hdocuments] at hd
      rcases List.mem_append.mp hd with hd | hd
      · exact h.behind d hd hdid
      · rw [List.mem_singleton.mp hd] at hdid ⊢
        have hrid : run.id = id := hid.symm.trans hdid
        exact ⟨run, hrid ▸ hrun, Nat.le_of_eq hrank⟩
    · rw [hdocuments, List.pairwise_append]
      refine ⟨h.ordered, List.pairwise_singleton _ _, fun d hd d' hd' hdid hdid' => ?_⟩
      rw [List.mem_singleton.mp hd'] at hdid' ⊢
      exact hnew d hd hdid (hid.symm.trans hdid')

theorem aligned_new {service : Service σ} (h : (new service).documents = []) (id : String) :
    (new service).Aligned id := by
  refine ⟨fun d hd => ?_, ?_⟩
  · rw [h] at hd
    cases hd
  · rw [h]
    exact .nil

/-- Of two calls for a run, the one that began later has the later document. -/
theorem Aligned.le (h : w.Aligned id) {i j : Nat} {d d' : TagDocument} (hij : i ≤ j)
    (hd : w.documents[i]? = some d) (hd' : w.documents[j]? = some d')
    (hid : d.fields.operationId = id) (hid' : d'.fields.operationId = id) : d.rank ≤ d'.rank := by
  rcases Nat.eq_or_lt_of_le hij with rfl | hlt
  · cases hd.symm.trans hd'
    exact Nat.le_refl _
  · obtain ⟨hi, rfl⟩ := List.getElem?_eq_some_iff.mp hd
    obtain ⟨hj, rfl⟩ := List.getElem?_eq_some_iff.mp hd'
    exact List.pairwise_iff_getElem.mp h.ordered i j hi hj hlt hid hid'

/-! ## Documents in the order of their acknowledgement -/

/-- The store has documents of calls only. -/
def Sourced (w : World σ) : Prop :=
  ∀ call document, (call, document) ∈ w.acknowledged → w.documents[call]? = some document

theorem sourced_new (service : Service σ) : (new service).Sourced :=
  fun _ _ hmem => absurd hmem List.not_mem_nil

theorem Turn.sourced (ht : Turn w w') (h : w.Sourced) : w'.Sourced := by
  intro call document hmem
  cases ht with
  | went hgrows _ hacknowledged | began _ _ _ _ _ hgrows _ hacknowledged =>
    rw [hacknowledged] at hmem
    exact hgrows.document (h call document hmem)
  | looked run hservice _ hacknowledged =>
    rw [hacknowledged] at hmem
    rw [documents, hservice]
    exact h call document hmem
  | stored call' document' hd _ hgrows _ hacknowledged =>
    rw [hacknowledged] at hmem
    rcases List.mem_cons.mp hmem with heq | hmem
    · cases heq
      exact hgrows.document hd
    · exact hgrows.document (h call document hmem)

theorem Sourced.document (h : w.Sourced) {call : Nat} {document : TagDocument}
    (hs : w.stored? id = some (call, document)) :
    w.documents[call]? = some document :=
  h call document (List.mem_of_find?_eq_some hs)

/-- A later world: its store shows of a run the same as before, or the document of a call that had
not ended. -/
structure Later (w w' : World σ) : Prop where
  grows : ∃ begun, w.service.tagging.Grows w'.service.tagging begun
  stored : ∀ id, w'.stored? id = w.stored? id ∨
    ∃ call document, w'.stored? id = some (call, document) ∧ w.service.callEnded call = false

theorem Later.refl (w : World σ) : w.Later w := ⟨⟨[], .refl _⟩, fun _ => .inl rfl⟩

theorem Later.trans (h : w.Later w') (h' : w'.Later w'') : w.Later w'' := by
  obtain ⟨begun, hgrows⟩ := h.grows
  obtain ⟨begun', hgrows'⟩ := h'.grows
  refine ⟨⟨begun ++ begun', hgrows.trans hgrows'⟩, fun id => ?_⟩
  rcases h'.stored id with hsame | ⟨call, document, hs, hopen⟩
  · rw [hsame]
    exact h.stored id
  · refine .inr ⟨call, document, hs, Bool.eq_false_iff.mpr fun hended => ?_⟩
    rw [callEnded_of_grows hgrows hended] at hopen
    cases hopen

theorem Turn.later (ht : Turn w w') : w.Later w' := by
  have hsame : w'.acknowledged = w.acknowledged → ∀ id, w'.stored? id = w.stored? id :=
    fun hacknowledged id => by rw [stored?, stored?, hacknowledged]
  cases ht with
  | went hgrows _ hacknowledged =>
    exact ⟨⟨_, hgrows⟩, fun id => .inl (hsame hacknowledged id)⟩
  | looked run hservice _ hacknowledged =>
    refine ⟨⟨[], ?_⟩, fun id => .inl (hsame hacknowledged id)⟩
    rw [hservice]
    exact .refl _
  | began _ _ _ _ _ hgrows _ hacknowledged =>
    exact ⟨⟨_, hgrows⟩, fun id => .inl (hsame hacknowledged id)⟩
  | stored call document _ hopen hgrows _ hacknowledged =>
    refine ⟨⟨_, hgrows⟩, fun id => ?_⟩
    rw [stored?, stored?, hacknowledged]
    by_cases hid : document.fields.operationId = id
    · exact .inr ⟨call, document, by simp [hid], hopen⟩
    · exact .inl (by simp [hid])

/-- What becomes of the document that the store shows of a run. -/
structure Onward (w w' : World σ) (id : String) (call : Nat) (document : TagDocument) : Prop where
  /-- It stays, or another is in its place. That one's state is an earlier one only if its call
  began, and so fetched the run, before the other call did, and had not ended. -/
  shown : ∃ call' document', w'.stored? id = some (call', document') ∧
    (document.rank ≤ document'.rank ∨
      call' < call ∧ w.documents[call']? = some document' ∧ w.service.callEnded call' = false)
  /-- When the run's calls that began before have ended, a finished run stays finished. -/
  finished : document.fields.status = .finished →
    (∀ i < call, ∀ d, w.documents[i]? = some d → d.fields.operationId = id →
      w.service.callEnded i = true) →
    ∃ call' document', w'.stored? id = some (call', document') ∧
      document'.fields.status = .finished

theorem Later.onward (h : w.Later w') (hsourced : w.Sourced) (hsourced' : w'.Sourced)
    (haligned : w'.Aligned id) {call : Nat} {document : TagDocument}
    (hs : w.stored? id = some (call, document)) : w.Onward w' id call document := by
  obtain ⟨begun, hgrows⟩ := h.grows
  have hd := hsourced.document hs
  obtain ⟨call', document', hs', hshown⟩ : ∃ call' document',
      w'.stored? id = some (call', document') ∧ (document.rank ≤ document'.rank ∨
        call' < call ∧ w.documents[call']? = some document' ∧
          w.service.callEnded call' = false) := by
    rcases h.stored id with hsame | ⟨call', document', hs', hopen⟩
    · exact ⟨call, document, hsame.trans hs, .inl (Nat.le_refl _)⟩
    · have hd' := hsourced'.document hs'
      refine ⟨call', document', hs', ?_⟩
      rcases Nat.lt_or_ge call' call with hlt | hge
      · have hi : call' < w.documents.length :=
          Nat.lt_trans hlt (List.getElem?_eq_some_iff.mp hd).1
        have hold : w.documents[call']? = some w.documents[call'] := List.getElem?_eq_getElem hi
        have hkept := (hgrows.document hold).symm.trans hd'
        exact .inr ⟨hlt, hold.trans hkept, hopen⟩
      · exact .inl (haligned.le hge (hgrows.document hd) hd' (id_of_stored? hs) (id_of_stored? hs'))
  refine ⟨⟨call', document', hs', hshown⟩, fun hfinished hended => ⟨call', document', hs', ?_⟩⟩
  rcases hshown with hle | ⟨hlt, hold, hopen⟩
  · rw [TagDocument.rank, hfinished] at hle
    exact RunState.eq_finished hle
  · rw [hended call' hlt document' hold (id_of_stored? hs')] at hopen
    cases hopen

/-! ## Runs -/

variable [FileStore σ]

theorem later_play (w : World σ) (es : List (Event σ × Moment)) : w.Later (w.play es) := by
  induction es generalizing w with
  | nil => exact .refl w
  | cons e es ih => exact (step_turn w e).later.trans (ih (w.step e))

theorem Sourced.play (h : w.Sourced) (es : List (Event σ × Moment)) : (w.play es).Sourced := by
  induction es generalizing w with
  | nil => exact h
  | cons e es ih => exact ih ((step_turn w e).sourced h)

theorem advancing_of_play (es : List (Event σ × Moment)) (h : (w.play es).Advancing id) :
    w.Advancing id := by
  induction es generalizing w with
  | nil => exact h
  | cons e es ih => exact (step_turn w e).advancing (ih h)

theorem Aligned.play (h : w.Aligned id) (es : List (Event σ × Moment))
    (hadvancing : (w.play es).Advancing id) : (w.play es).Aligned id := by
  induction es generalizing w with
  | nil => exact h
  | cons e es ih =>
    exact ih ((step_turn w e).aligned (advancing_of_play es hadvancing) h) hadvancing

section
variable (settings : TagSettings) (breaker : Breaker) (correlation : Option Correlation)
  (registry : Registry)

/-- **The store goes back only for a call that began before and had not ended.** Whatever becomes
of a run's tasks and calls, once the store shows a document of the run, it shows one, and an earlier
state of an advancing run only by such a call. -/
theorem play_stored_onward (files : σ) (es es' : List (Event σ × Moment)) (id : String) :
    let w := (new (Service.new (Tagging.new settings breaker) correlation registry files)).play es
    (w.play es').Advancing id →
    ∀ call document, w.stored? id = some (call, document) →
      w.Onward (w.play es') id call document := by
  intro w hadvancing call document hs
  have hdocuments : (new (Service.new (Tagging.new settings breaker) correlation registry
    files)).documents = [] := rfl
  have hsourced : w.Sourced := (sourced_new _).play es
  have haligned : w.Aligned id :=
    (aligned_new hdocuments id).play es (advancing_of_play es' hadvancing)
  exact (later_play w es').onward hsourced (hsourced.play es') (haligned.play es' hadvancing) hs

end

/-! ## A run that finishes -/

def dayAt (timer : Nat) : Moment := ⟨⟨20000, Instant.secondOf 43200, Instant.nanoOf 0⟩, 0, timer⟩

def looking (state : RunState) : Run := ⟨"op-live-0001", "Live", "acme", state, none, none, []⟩

/-- A client that writes two documents at a time and retries each three times. -/
def freshService : World MemoryFiles :=
  new (Service.new (Tagging.new ⟨2, 30000, 3, .standard, "fallback"⟩ (Breaker.new 5 60000)) none
    (Registry.new ⟨2, 30000, "out", ""⟩) MemoryFiles.empty)

/-- What the store shows of the run. -/
def showing (w : World MemoryFiles) : Option (Nat × RunState) :=
  (w.stored? "op-live-0001").map fun (call, document) => (call, document.fields.status)

/-- The run is tagged while it is running and once more when it has finished, one after the other. -/
def inTurn : List (Event MemoryFiles × Moment) :=
  [(.snapshot (looking .running), dayAt 0),
    (.dispatch (.stateChanged "op-live-0001" none (some .running)), dayAt 0),
    (.fetch 0 none ⟨1⟩, dayAt 0), (.answered 0 (.ok "op-live-0001"), dayAt 0),
    (.snapshot (looking .finished), dayAt 0), (.dispatch (.finished "op-live-0001"), dayAt 0),
    (.fetch 1 none ⟨2⟩, dayAt 0), (.answered 1 (.ok "op-live-0001"), dayAt 0)]

/-- The first event comes again. -/
def again : List (Event MemoryFiles × Moment) :=
  [(.dispatch (.stateChanged "op-live-0001" none (some .running)), dayAt 100),
    (.fetch 2 none ⟨3⟩, dayAt 100), (.answered 2 (.ok "op-live-0001"), dayAt 100)]

/-- The store is busy when the running run is tagged. While that call pauses the run finishes, and
it is tagged once more. -/
def whileBusy : List (Event MemoryFiles × Moment) :=
  [(.snapshot (looking .running), dayAt 0),
    (.dispatch (.stateChanged "op-live-0001" none (some .running)), dayAt 0),
    (.fetch 0 none ⟨1⟩, dayAt 0), (.answered 0 (.error (.refused 503 "busy")), dayAt 0),
    (.snapshot (looking .finished), dayAt 100), (.dispatch (.finished "op-live-0001"), dayAt 100),
    (.fetch 1 none ⟨2⟩, dayAt 100), (.answered 1 (.ok "op-live-0001"), dayAt 100)]

/-- The first call goes on after its pause. -/
def afterwards : List (Event MemoryFiles × Moment) :=
  [(.resume 0, dayAt 250), (.answered 0 (.ok "op-live-0001"), dayAt 250)]

theorem inTurn_stays_finished :
    ((freshService.play inTurn).play again).Advancing "op-live-0001" ∧
    showing (freshService.play inTurn) = some (1, .finished) ∧
    (freshService.play inTurn).service.callEnded 0 = true ∧
    ∃ call document, ((freshService.play inTurn).play again).stored? "op-live-0001" =
      some (call, document) ∧ document.fields.status = .finished := by
  have hadvancing : ((freshService.play inTurn).play again).Advancing "op-live-0001" := by decide
  have hshown : showing (freshService.play inTurn) = some (1, .finished) := rfl
  have hended : (freshService.play inTurn).service.callEnded 0 = true := rfl
  refine ⟨hadvancing, hshown, hended, ?_⟩
  obtain ⟨⟨call, document⟩, hs, heq⟩ := Option.map_eq_some_iff.mp hshown
  obtain ⟨rfl, hfinished⟩ := Prod.mk.inj heq
  have honward : (freshService.play inTurn).Onward ((freshService.play inTurn).play again)
      "op-live-0001" 1 document :=
    play_stored_onward _ _ _ _ _ inTurn again _ hadvancing 1 document hs
  refine honward.finished hfinished ?_
  intro i hi _ _ _
  obtain rfl : i = 0 := by omega
  exact hended

/-- The first call writes what it fetched over what the second has written since. -/
theorem running_over_finished :
    ((freshService.play whileBusy).play afterwards).Advancing "op-live-0001" ∧
    showing (freshService.play whileBusy) = some (1, .finished) ∧
    showing ((freshService.play whileBusy).play afterwards) = some (0, .running) :=
  ⟨by decide, rfl, rfl⟩

end Service.World
end AfterAction
