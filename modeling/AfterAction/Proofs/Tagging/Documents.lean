import AfterAction.Proofs.Tagging.World

/-!
# The documents of a client's calls

No call leaves the list, changes its document or goes on after its end. `Grows` says so of a client
and a later one, with the documents of the calls that began in between, and every step of a client
is one of these: it begins at most one call.
-/

namespace AfterAction.Tagging

/-- In the order in which the calls began. -/
def documents (t : Tagging) : List TagDocument := t.calls.map (·.document)

/-- A client and a later one, with the documents of the calls that began in between. -/
structure Grows (t t' : Tagging) (begun : List TagDocument) : Prop where
  documents : t'.documents = t.documents ++ begun
  ended : ∀ i result, t.phase? i = some (.ended result) → t'.phase? i = some (.ended result)

theorem Grows.refl (t : Tagging) : t.Grows t [] := ⟨(List.append_nil _).symm, fun _ _ h => h⟩

theorem Grows.trans {t t' t'' : Tagging} {begun begun' : List TagDocument}
    (h : t.Grows t' begun) (h' : t'.Grows t'' begun') : t.Grows t'' (begun ++ begun') := by
  refine ⟨?_, fun i result he => h'.ended i result (h.ended i result he)⟩
  rw [h'.documents, h.documents, List.append_assoc]

/-- A call keeps its place and its document. -/
theorem Grows.document {t t' : Tagging} {begun : List TagDocument} (h : t.Grows t' begun) {i : Nat}
    {document : TagDocument} (hd : t.documents[i]? = some document) :
    t'.documents[i]? = some document := by
  rw [h.documents, List.getElem?_append_left (List.getElem?_eq_some_iff.mp hd).1]
  exact hd

namespace World

variable {σ : Type} {w : World σ} {i : Nat} {document : TagDocument} {p p' : TagPhase}
  {x : Encounter σ} {b : Breaker} {m : Moment}

theorem documents_moved (w : World σ) (i : Nat) (x : Encounter σ) (p p' : TagPhase) (b : Breaker) :
    (w.moved i x p p' b).client.documents = w.client.documents := by
  refine List.ext_getElem? fun j => ?_
  simp only [documents, List.getElem?_map, moved_calls]
  split
  · rw [Option.map_map]
    rfl
  · rfl

theorem grows_joined (w : World σ) (document : TagDocument) :
    w.client.Grows (w.joined document).client [document] := by
  refine ⟨by simp [documents, joined], fun j result he => ?_⟩
  obtain ⟨d, hc⟩ := call_of_phase? he
  have hlt := (List.getElem?_eq_some_iff.mp hc).1
  have hkept : (w.joined document).client.calls[j]? = some ⟨d, .ended result⟩ := by
    rwa [joined_calls, if_neg (Nat.ne_of_lt hlt)]
  exact phase?_of_call hkept

variable [FileStore σ]

/-- No move begins at a call's end. -/
theorem Move.not_ended (hm : Move w m i document p x p' b) (result : Except TagFault TagOutcome) :
    p ≠ .ended result := by
  rintro rfl
  cases hm

theorem OneMove.grows {e : Event σ × Moment} (h : w.OneMove e) :
    w.client.Grows (w.step e).client [] := by
  rcases h with ⟨hs, -⟩ | ⟨i, document, p, x, p', b, hc, hm, hs, -⟩
  · rw [hs]
    exact .refl _
  · rw [hs]
    refine ⟨by rw [documents_moved, List.append_nil], fun j result he => ?_⟩
    obtain ⟨d, hd⟩ := call_of_phase? he
    have hne : j ≠ i := by
      rintro rfl
      cases hc.symm.trans hd
      exact hm.not_ended result rfl
    exact phase?_of_call ((moved_calls_ne w hne).trans hd)

/-- A call that begins comes last. -/
theorem grows_start {run : Run}
    (hd : TagDocument.ofRun w.client.settings.limits m.wall run = .ok document) :
    w.client.Grows (w.step (.start run, m)).client [document] := by
  rw [step_start, hd]
  exact (grows_joined w document).trans (oneMove_notice _ _ _).grows

end World
end AfterAction.Tagging
