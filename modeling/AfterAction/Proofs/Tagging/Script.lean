import AfterAction.Tagging

/-!
# The script of a retry loop

What the store answers to a document, first to last, and how many retries a call has say all that a
retry loop does: it writes, pauses and writes again until an answer is decisive or no retry is left.
`script` writes this down for a number of attempts, and `attemptCount` is that number. The pauses
double up to the longest one.
-/

namespace AfterAction.Tagging

/-- What a call does, and what it meets, on its slot. -/
inductive Act
  | put (document : TagDocument)
  | answered (answer : Except RemoteFault String)
  /-- For so many milliseconds. -/
  | pause (length : Nat)
  | refused
  | ceiling

def Act.answer? : Act → Option (Except RemoteFault String)
  | .answered answer => some answer
  | _ => none

def Act.put? : Act → Option TagDocument
  | .put document => some document
  | _ => none

/-! ## How many attempts there are -/

/-- An answer after which there is nothing to try again. -/
def decisive : Except RemoteFault String → Bool
  | .ok _ => true
  | .error fault => !fault.isRetryable

/-- The position of the first decisive answer, counted from one, if any is. -/
def FirstDecisive (results : Nat → Except RemoteFault String) : Option Nat → Prop
  | some k => 0 < k ∧ decisive (results (k - 1)) = true ∧
      ∀ j, j + 1 < k → decisive (results j) = false
  | none => ∀ j, decisive (results j) = false

def attemptCount (maxRetries : Nat) : Option Nat → Nat
  | some k => min k (maxRetries + 1)
  | none => maxRetries + 1

/-- So many answers have been retried: none of them was decisive, and there were retries for all. -/
structure Undecided (results : Nat → Except RemoteFault String) (maxRetries n : Nat) : Prop where
  retryable (j : Nat) : j < n → decisive (results j) = false
  le : n ≤ maxRetries

variable {results : Nat → Except RemoteFault String} {maxRetries n : Nat} {k : Option Nat}

theorem Undecided.zero : Undecided results maxRetries 0 := ⟨nofun, Nat.zero_le maxRetries⟩

theorem Undecided.succ (h : Undecided results maxRetries n) (hn : decisive (results n) = false)
    (hlt : n < maxRetries) : Undecided results maxRetries (n + 1) := by
  refine ⟨fun j hj => ?_, hlt⟩
  rcases Nat.lt_succ_iff_lt_or_eq.mp hj with hj | rfl
  · exact h.retryable j hj
  · exact hn

/-- One attempt more than there were answers to retry. -/
theorem Undecided.lt_attemptCount (h : Undecided results maxRetries n)
    (hk : FirstDecisive results k) : n + 1 ≤ attemptCount maxRetries k := by
  have hle := h.le
  cases k with
  | none => exact Nat.succ_le_succ hle
  | some k =>
    obtain ⟨hpos, hdecisive, -⟩ := hk
    have hlt : n < k := by
      refine Nat.lt_of_not_le fun hnot => ?_
      rw [h.retryable (k - 1) (by omega)] at hdecisive
      cases hdecisive
    exact Nat.le_min.mpr ⟨hlt, Nat.succ_le_succ hle⟩

/-- The attempts end with a decisive answer, or with the last retry. -/
theorem Undecided.attemptCount_eq (h : Undecided results maxRetries n)
    (hk : FirstDecisive results k) (hlast : decisive (results n) = true ∨ n = maxRetries) :
    attemptCount maxRetries k = n + 1 := by
  refine Nat.le_antisymm ?_ (h.lt_attemptCount hk)
  cases k with
  | none =>
    rcases hlast with hdecisive | rfl
    · rw [hk n] at hdecisive
      cases hdecisive
    · exact Nat.le_refl _
  | some k =>
    rcases hlast with hdecisive | rfl
    · have hle : k ≤ n + 1 := by
        refine Nat.le_of_not_lt fun hnot => ?_
        rw [hk.2.2 n hnot] at hdecisive
        cases hdecisive
      exact Nat.le_trans (Nat.min_le_left k (maxRetries + 1)) hle
    · exact Nat.min_le_right k (n + 1)

/-! ## Pauses -/

/-- The pause after so many pauses. -/
def pauseAfter (n : Nat) : Nat := min (firstPause * Nat.pow 2 n) longestPause

theorem pauseAfter_zero : pauseAfter 0 = firstPause := by decide

theorem pauseAfter_succ (n : Nat) : pauseAfter (n + 1) = min (2 * pauseAfter n) longestPause := by
  have hdouble : Nat.pow 2 (n + 1) = Nat.pow 2 n * 2 := rfl
  unfold pauseAfter
  rw [hdouble, ← Nat.mul_assoc]
  omega

theorem pauseAfter_le (n : Nat) : pauseAfter n ≤ longestPause := Nat.min_le_right _ _

/-! ## The script -/

section
variable (document : TagDocument) (results : Nat → Except RemoteFault String)

/-- Attempts that are retried, with the pauses behind them. -/
def rounds (n : Nat) : List Act :=
  (List.range n).flatMap fun j => [.put document, .answered (results j), .pause (pauseAfter j)]

/-- All that a loop of so many attempts does. -/
def script : Nat → List Act
  | 0 => []
  | n + 1 => rounds document results n ++ [.put document, .answered (results n)]

theorem rounds_succ (n : Nat) : rounds document results (n + 1) = rounds document results n ++
    [.put document, .answered (results n), .pause (pauseAfter n)] := by
  simp [rounds, List.range_succ]

theorem answers_rounds (n : Nat) :
    (rounds document results n).filterMap Act.answer? = (List.range n).map results := by
  induction n with
  | zero => rfl
  | succ n ih =>
    rw [rounds_succ, List.filterMap_append, ih, List.range_succ, List.map_append]
    rfl

theorem puts_rounds (n : Nat) :
    (rounds document results n).filterMap Act.put? = List.replicate n document := by
  induction n with
  | zero => rfl
  | succ n ih =>
    rw [rounds_succ, List.filterMap_append, ih, List.replicate_succ']
    rfl

/-- Each attempt is a write, and all write the same document. -/
theorem puts_script (n : Nat) :
    (script document results n).filterMap Act.put? = List.replicate n document := by
  cases n with
  | zero => rfl
  | succ n =>
    rw [script, List.filterMap_append, puts_rounds, List.replicate_succ']
    rfl

end

variable {document : TagDocument} {m : Nat}

theorem rounds_isPrefix (h : n ≤ m) : rounds document results n <+: rounds document results m := by
  induction h with
  | refl => exact List.prefix_refl _
  | step _ ih =>
    rw [rounds_succ]
    exact ih.trans (List.prefix_append _ _)

theorem rounds_isPrefix_script (h : n + 1 ≤ m) :
    rounds document results n <+: script document results m := by
  cases m with
  | zero => cases h
  | succ m => exact (rounds_isPrefix (Nat.le_of_succ_le_succ h)).trans (List.prefix_append _ _)

theorem rounds_put_isPrefix_script (h : n + 1 ≤ m) :
    rounds document results n ++ [.put document] <+: script document results m := by
  cases m with
  | zero => cases h
  | succ m =>
    rcases Nat.lt_or_eq_of_le (Nat.le_of_succ_le_succ h) with hlt | rfl
    · refine .trans ?_ (rounds_isPrefix_script (Nat.succ_le_succ hlt))
      rw [rounds_succ]
      exact ⟨[.answered (results n), .pause (pauseAfter n)], by simp⟩
    · exact ⟨[.answered (results n)], by simp [script]⟩

end AfterAction.Tagging
