import AfterAction.Text.Quoted

/-!
Run identifiers. A value of `RunId` is a text that passed the check, so wherever one is used (a
store query, a document id, a file name) the text holds nothing but letters, digits and hyphens.
-/

namespace AfterAction

/-- The first sixteen characters, enough to recognise a refused value in a log. -/
def preview (raw : String) : String := .ofList (raw.toList.take 16)

namespace RunId

/-- ASCII letters, ASCII digits and the hyphen. -/
def allowed (c : Char) : Bool := c.isAlphanum || c == '-'

/-- Between 8 and 64 allowed characters. -/
def wellFormed (raw : String) : Bool :=
  8 ≤ raw.toList.length && raw.toList.length ≤ 64 && raw.toList.all allowed

end RunId

structure RunId where
  text : String
  valid : RunId.wellFormed text = true
  deriving DecidableEq

/-- A refused identifier: what is left of it is safe to show. -/
structure InvalidRunId where
  preview : String
  deriving DecidableEq, Repr

def InvalidRunId.message (e : InvalidRunId) : String :=
  "invalid run identifier: " ++ Text.quote e.preview

namespace RunId

def parse (raw : String) : Except InvalidRunId RunId :=
  if h : RunId.wellFormed raw = true then .ok ⟨raw, h⟩ else .error ⟨preview raw⟩

theorem parse_text (id : RunId) : parse id.text = .ok id := by
  simp [parse, id.valid]

theorem text_of_parse {raw : String} {id : RunId} (h : parse raw = .ok id) : id.text = raw := by
  unfold parse at h
  split at h
  · cases h; rfl
  · cases h

theorem parse_eq_error_iff {raw : String} {e : InvalidRunId} :
    parse raw = .error e ↔ RunId.wellFormed raw = false ∧ e = ⟨AfterAction.preview raw⟩ := by
  unfold parse
  split <;> rename_i h
  · simp [h]
  · simp only [Bool.not_eq_true] at h
    simp [h, eq_comm]

end RunId
end AfterAction
