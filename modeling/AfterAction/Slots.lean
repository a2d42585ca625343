/-!
A fixed number of slots, handed out first come, first served. Whoever finds no idle slot waits in
line; a released slot goes straight to the head of the line, who holds it from then on, before it
has taken notice.
-/

namespace AfterAction

/-- `κ` tells the holders apart. -/
structure Slots (κ : Type) where
  total : Nat
  idle : Nat
  holders : List κ
  waiting : List κ
  deriving DecidableEq, Repr

namespace Slots

variable {κ : Type}

/-- All idle; there is at least one. -/
def new (wanted : Nat) : Slots κ := ⟨max wanted 1, max wanted 1, [], []⟩

/-- Takes an idle slot or joins the line. -/
def ask (s : Slots κ) (k : κ) : Slots κ :=
  if s.idle = 0 then { s with waiting := s.waiting ++ [k] }
  else { s with idle := s.idle - 1, holders := s.holders ++ [k] }

/-- Every slot is idle or held, and nobody waits while one is idle. -/
structure Balanced (s : Slots κ) : Prop where
  held : s.idle + s.holders.length = s.total
  busy : s.waiting ≠ [] → s.idle = 0

theorem balanced_new (wanted : Nat) : (new wanted : Slots κ).Balanced :=
  ⟨by simp [new], by simp [new]⟩

theorem Balanced.ask {s : Slots κ} (h : s.Balanced) (k : κ) : (s.ask k).Balanced := by
  have := h.held
  unfold Slots.ask
  split
  · exact ⟨h.held, fun _ => by assumption⟩
  · refine ⟨?_, fun hw => absurd (h.busy hw) (by assumption)⟩
    simp only [List.length_append, List.length_cons, List.length_nil]
    omega

variable {s : Slots κ} {k j : κ}

theorem members_ask (s : Slots κ) (k : κ) :
    ((s.ask k).holders ++ (s.ask k).waiting).Perm (k :: (s.holders ++ s.waiting)) := by
  unfold ask
  split
  · rw [← List.append_assoc]
    exact List.perm_append_singleton k _
  · rw [List.append_assoc]
    exact List.perm_middle

theorem mem_waiting_ask (h : j ∈ (s.ask k).waiting) : j ∈ s.waiting ∨ j = k := by
  unfold ask at h
  split at h
  · simpa using h
  · exact .inl h

theorem mem_holders_ask (h : j ∈ (s.ask k).holders) : j ∈ s.holders ∨ j = k := by
  unfold ask at h
  split at h
  · exact .inl h
  · simpa using h

theorem total_ask (s : Slots κ) (k : κ) : (s.ask k).total = s.total := by
  unfold ask
  split <;> rfl

variable [DecidableEq κ]

def holds (s : Slots κ) (k : κ) : Bool := k ∈ s.holders

/-- Gives a held slot back, to the head of the line if there is one. -/
def release (s : Slots κ) (k : κ) : Slots κ :=
  if k ∈ s.holders then
    let holders := s.holders.erase k
    match s.waiting with
    | next :: rest => { s with holders := holders ++ [next], waiting := rest }
    | [] => { s with holders, idle := s.idle + 1 }
  else s

/-- Stops waiting. A slot that was handed over in the meantime is given back. -/
def leave (s : Slots κ) (k : κ) : Slots κ :=
  if k ∈ s.waiting then { s with waiting := s.waiting.erase k } else s.release k

theorem Balanced.release {s : Slots κ} (h : s.Balanced) (k : κ) : (s.release k).Balanced := by
  unfold Slots.release
  split <;> rename_i hk
  · have hl := List.length_erase_of_mem hk
    have hp := List.length_pos_of_mem hk
    have hh := h.held
    cases hw : s.waiting with
    | nil =>
      refine ⟨?_, fun hne => absurd rfl hne⟩
      show s.idle + 1 + (s.holders.erase k).length = s.total
      omega
    | cons next rest =>
      have hi := h.busy (by simp [hw])
      refine ⟨?_, fun _ => hi⟩
      show s.idle + (s.holders.erase k ++ [next]).length = s.total
      simp only [List.length_append, List.length_cons, List.length_nil]
      omega
  · exact h

theorem Balanced.leave {s : Slots κ} (h : s.Balanced) (k : κ) : (s.leave k).Balanced := by
  unfold Slots.leave
  split <;> rename_i hk
  · refine ⟨h.held, fun hne => h.busy fun hw => hne ?_⟩
    simp [hw]
  · exact h.release k

/-! ## Who holds and who waits after a release -/

/-- Only the one who gives its slot back leaves: the head of the line holds it now. -/
theorem members_release (h : k ∈ s.holders) :
    (s.release k).holders ++ (s.release k).waiting = (s.holders ++ s.waiting).erase k := by
  unfold release
  rw [if_pos h, List.erase_append_left _ h]
  cases s.waiting with
  | nil => rfl
  | cons next rest => simp

theorem mem_waiting_release (h : j ∈ (s.release k).waiting) : j ∈ s.waiting := by
  unfold release at h
  split at h
  · cases hw : s.waiting with
    | nil => simp [hw] at h
    | cons next rest =>
      rw [hw] at h
      exact List.mem_cons_of_mem _ h
  · exact h

theorem mem_holders_release (h : j ∈ (s.release k).holders) : j ∈ s.holders ∨ j ∈ s.waiting := by
  unfold release at h
  split at h
  · cases hw : s.waiting with
    | nil =>
      rw [hw] at h
      exact .inl (List.mem_of_mem_erase h)
    | cons next rest =>
      rw [hw] at h
      rcases List.mem_append.mp h with h | h
      · exact .inl (List.mem_of_mem_erase h)
      · exact .inr (by simp [List.mem_singleton.mp h])
  · exact .inl h

theorem total_release (s : Slots κ) (k : κ) : (s.release k).total = s.total := by
  unfold release
  split
  · cases s.waiting <;> rfl
  · rfl

/-- Whoever leaves is gone, from the line or from its slot. -/
theorem members_leave (hn : (s.holders ++ s.waiting).Nodup) (h : k ∈ s.holders ++ s.waiting) :
    (s.leave k).holders ++ (s.leave k).waiting = (s.holders ++ s.waiting).erase k := by
  unfold leave
  split
  · rename_i hk
    have hno : k ∉ s.holders := fun hh => (List.nodup_append.mp hn).2.2 k hh k hk rfl
    exact (List.erase_append_right _ hno).symm
  · rename_i hk
    exact members_release ((List.mem_append.mp h).resolve_right hk)

theorem mem_waiting_leave (h : j ∈ (s.leave k).waiting) : j ∈ s.waiting := by
  unfold leave at h
  split at h
  · exact List.mem_of_mem_erase h
  · exact mem_waiting_release h

theorem total_leave (s : Slots κ) (k : κ) : (s.leave k).total = s.total := by
  unfold leave
  split
  · rfl
  · exact total_release s k

end Slots
end AfterAction
