import AfterAction.TaskGroup
import Mathlib.Data.List.Flatten
import Mathlib.Data.List.Nodup

/-!
# Drains that overlap

A task that was taken in is with its group, until a drain takes it over, and then with that drain.
It is never with two, and nobody lets go of it before it has ended; that is why it is run, once
(`Supervised.once`). A group that is closed takes nothing in (`answers_closed`).

A drain waits for what it took over. These are all tasks that were spawned before and are running
only if no other drain has some of them: a drain that begins while another one waits finds the group
empty and returns at once (`Supervised.waits`, `second_drain_returns_early`). Who drains a group
once, as a shutdown does, does not notice.
-/

namespace AfterAction.TaskGroup

/-- A group and what its callers and its tasks did. A task is known by the place of the call of
`spawn` that it came with. -/
structure Crew where
  group : TaskGroup Nat
  /-- Of the calls of `spawn`. -/
  answers : List Bool
  begun : List Nat
  /-- With each task, whether it crashed. -/
  ends : List (Nat × Bool)
  /-- How often `spawn` had been called when each drain began. -/
  calls : List Nat
  returned : List Nat

namespace Crew

/-- What can happen. Drains are known by the order in which they began. -/
inductive Event
  /-- It may not be seen yet that some tasks have ended. -/
  | spawn (unseen : List Nat)
  | begins (task : Nat)
  | ends (task : Nat) (crashed : Bool)
  | close
  | drain
  | returns (drain : Nat)

def new : Crew := ⟨.empty, [], [], [], [], []⟩

variable {w : Crew} {i k n : Nat}

def Accepted (w : Crew) (i : Nat) : Prop := w.answers[i]? = some true

def ended (w : Crew) : List Nat := w.ends.map (·.1)

/-- What a drain took over. -/
def taken (w : Crew) (k : Nat) : List Nat := w.group.drains[k]?.getD []

/-- What the drains that have not returned took over. -/
def waitedFor (w : Crew) : List (List Nat) :=
  (w.group.drains.zipIdx.filter fun drain => drain.2 ∉ w.returned).map (·.1)

/-- The tasks that somebody has. One that nobody has does not go on. -/
def inHand (w : Crew) : List Nat := w.group.members ++ w.waitedFor.flatten

def step (w : Crew) : Event → Crew
  | .spawn unseen =>
    match w.group.spawn? (fun i => i ∈ w.ended ∧ i ∉ unseen) w.answers.length with
    | some group => { w with group, answers := w.answers ++ [true] }
    | none => { w with answers := w.answers ++ [false] }
  | .begins i => if i ∈ w.inHand ∧ i ∉ w.begun then { w with begun := w.begun ++ [i] } else w
  | .ends i crashed =>
    if i ∈ w.inHand ∧ i ∈ w.begun ∧ i ∉ w.ended then { w with ends := w.ends ++ [(i, crashed)] }
    else w
  | .close => { w with group := w.group.close }
  | .drain => { w with group := w.group.drain, calls := w.calls ++ [w.answers.length] }
  | .returns k =>
    if k < w.calls.length ∧ k ∉ w.returned ∧ drained (· ∈ w.ended) (w.taken k) then
      { w with returned := w.returned ++ [k] }
    else w

def play (w : Crew) (es : List Event) : Crew := es.foldl step w

/-! ## Who has a task -/

/-- Everything that a group has, and that was taken over from it. -/
def everyone (g : TaskGroup Nat) : List Nat := g.members ++ g.drains.flatten

theorem mem_everyone : i ∈ everyone w.group ↔ i ∈ w.group.members ∨ ∃ k, i ∈ w.taken k := by
  rw [everyone, List.mem_append, List.mem_flatten]
  refine or_congr_right ⟨?_, ?_⟩
  · rintro ⟨mine, ht, hi⟩
    obtain ⟨k, hk⟩ := List.mem_iff_getElem?.mp ht
    exact ⟨k, by rwa [taken, hk]⟩
  · rintro ⟨k, hi⟩
    rw [taken] at hi
    cases hk : w.group.drains[k]? with
    | none =>
      rw [hk] at hi
      cases hi
    | some mine =>
      rw [hk] at hi
      exact ⟨mine, List.mem_of_getElem? hk, hi⟩

theorem inHand_sublist (w : Crew) : w.inHand.Sublist (everyone w.group) := by
  have hwaited : w.waitedFor.Sublist w.group.drains := by
    have h := (List.filter_sublist (l := w.group.drains.zipIdx)
      (p := fun drain => drain.2 ∉ w.returned)).map (·.1)
    rwa [List.zipIdx_map_fst] at h
  exact (List.Sublist.refl _).append hwaited.flatten

theorem mem_inHand_of_taken (hi : i ∈ w.taken k) (hk : k ∉ w.returned) : i ∈ w.inHand := by
  rw [taken] at hi
  cases hmine : w.group.drains[k]? with
  | none =>
    rw [hmine] at hi
    cases hi
  | some mine =>
    rw [hmine] at hi
    refine List.mem_append_right _ (List.mem_flatten.mpr ⟨mine, ?_, hi⟩)
    refine List.mem_map.mpr ⟨(mine, k), List.mem_filter.mpr ⟨?_, by simpa using hk⟩, rfl⟩
    exact List.mem_zipIdx_iff_getElem?.mpr hmine

theorem everyone_drain_perm (g : TaskGroup Nat) : (everyone g.drain).Perm (everyone g) := by
  show ((g.drains ++ [g.members]).flatten).Perm (g.members ++ g.drains.flatten)
  rw [List.flatten_concat]
  exact List.perm_append_comm

/-- A drain that begins takes over the members. -/
theorem taken_drain (w : Crew) (k : Nat) :
    (w.step .drain).taken k =
      if k = w.group.drains.length then w.group.members else w.taken k := by
  show (w.group.drains ++ [w.group.members])[k]?.getD [] = _
  rcases Nat.lt_trichotomy k w.group.drains.length with h | rfl | h
  · rw [if_neg (Nat.ne_of_lt h), List.getElem?_append_left h, taken]
  · rw [if_pos rfl, List.getElem?_concat_length, Option.getD_some]
  · rw [if_neg (Nat.ne_of_gt h), taken, List.getElem?_eq_none (Nat.le_of_lt h),
      List.getElem?_eq_none (by rw [List.length_append]; exact h)]

theorem lt_of_mem_taken (hi : i ∈ w.taken k) : k < w.group.drains.length := by
  refine Nat.lt_of_not_le fun hle => ?_
  rw [taken, List.getElem?_eq_none hle] at hi
  cases hi

/-! ## What every step keeps -/

/-- Drain `k` began after `n` calls of `spawn`: it and the drains before it have taken over the
tasks of these calls, other than some that have ended, and no later ones. -/
structure Began (w : Crew) (k n : Nat) : Prop where
  le : n ≤ w.answers.length
  covers : ∀ i < n, w.Accepted i → i ∈ w.ended ∨ ∃ k' ≤ k, i ∈ w.taken k'
  lt : ∀ k' ≤ k, ∀ i ∈ w.taken k', i < n

theorem Began.later {w' : Crew} (h : w.Began k n) (hle : w.answers.length ≤ w'.answers.length)
    (haccepted : ∀ i < n, w'.Accepted i → w.Accepted i)
    (htaken : ∀ k' ≤ k, w'.taken k' = w.taken k') (hended : ∀ i ∈ w.ended, i ∈ w'.ended) :
    w'.Began k n where
  le := Nat.le_trans h.le hle
  covers i hn hi := (h.covers i hn (haccepted i hn hi)).imp (hended i)
    fun ⟨k', hk', hin⟩ => ⟨k', hk', (htaken k' hk').symm ▸ hin⟩
  lt k' hk' i hin := h.lt k' hk' i (htaken k' hk' ▸ hin)

/-- In between nothing was spawned or drained. -/
theorem Began.same {w' : Crew} (h : w.Began k n) (hanswers : w'.answers = w.answers)
    (hdrains : w'.group.drains = w.group.drains) (hended : ∀ i ∈ w.ended, i ∈ w'.ended) :
    w'.Began k n :=
  h.later (Nat.le_of_eq (congrArg List.length hanswers.symm))
    (fun i _ hi => by rwa [Accepted, ← hanswers]) (fun k' _ => by rw [taken, hdrains, taken]) hended

/-- No task is with two, and none that was taken in is lost before it has ended. -/
structure Sound (w : Crew) : Prop where
  length_calls : w.calls.length = w.group.drains.length
  nodup : (everyone w.group).Nodup
  accepted : ∀ i ∈ everyone w.group, w.Accepted i
  covers : ∀ i, w.Accepted i → i ∈ w.ended ∨ i ∈ everyone w.group
  begun : w.begun.Nodup ∧ ∀ i ∈ w.begun, w.Accepted i
  ended : w.ended.Nodup ∧ ∀ i ∈ w.ended, i ∈ w.begun
  returned : ∀ k ∈ w.returned, k < w.calls.length ∧ ∀ i ∈ w.taken k, i ∈ w.ended
  began : ∀ k n, w.calls[k]? = some n → w.Began k n

theorem Accepted.lt (h : w.Accepted i) : i < w.answers.length := (List.getElem?_eq_some_iff.mp h).1

theorem accepted_concat {as : List Bool} {a : Bool} :
    (as ++ [a])[i]? = some true ↔ as[i]? = some true ∨ i = as.length ∧ a = true := by
  rcases Nat.lt_trichotomy i as.length with h | rfl | h
  · simp [List.getElem?_append_left h, Nat.ne_of_lt h]
  · simp
  · rw [List.getElem?_eq_none (by rw [List.length_append]; exact h),
      List.getElem?_eq_none (Nat.le_of_lt h)]
    simp [Nat.ne_of_gt h]

theorem Sound.refused (h : w.Sound) : Sound { w with answers := w.answers ++ [false] } := by
  have hsame : ∀ i, (w.answers ++ [false])[i]? = some true ↔ w.Accepted i := fun i => by
    simp [accepted_concat, Accepted]
  exact {
    length_calls := h.length_calls
    nodup := h.nodup
    accepted := fun i hi => (hsame i).mpr (h.accepted i hi)
    covers := fun i hi => h.covers i ((hsame i).mp hi)
    begun := ⟨h.begun.1, fun i hi => (hsame i).mpr (h.begun.2 i hi)⟩
    ended := h.ended
    returned := h.returned
    began := fun k n hk => (h.began k n hk).later (by simp) (fun i _ => (hsame i).mp)
      (fun _ _ => rfl) (fun _ hi => hi) }

theorem Sound.entered (h : w.Sound) {seen : Nat → Bool} (hseen : ∀ i, seen i = true → i ∈ w.ended) :
    Sound { w with
      group := { w.group with members := w.group.members.filter (!seen ·) ++ [w.answers.length] }
      answers := w.answers ++ [true] } := by
  let group' := { w.group with members := w.group.members.filter (!seen ·) ++ [w.answers.length] }
  have hsame : ∀ i, (w.answers ++ [true])[i]? = some true ↔ w.Accepted i ∨ i = w.answers.length :=
    fun i => by simp [accepted_concat, Accepted]
  let rest := w.group.members.filter (!seen ·) ++ w.group.drains.flatten
  have hrest : rest.Sublist (everyone w.group) := List.filter_sublist.append (.refl _)
  have hperm : (everyone group').Perm (w.answers.length :: rest) := by
    show (w.group.members.filter (!seen ·) ++ [w.answers.length] ++ w.group.drains.flatten).Perm _
    rw [List.append_assoc]
    exact List.perm_middle
  have hfresh : w.answers.length ∉ rest := fun hi =>
    absurd (h.accepted _ (hrest.subset hi)).lt (Nat.lt_irrefl _)
  exact {
    length_calls := h.length_calls
    nodup := hperm.nodup_iff.mpr (List.nodup_cons.mpr ⟨hfresh, h.nodup.sublist hrest⟩)
    accepted := fun i hi => by
      rcases List.mem_cons.mp (hperm.mem_iff.mp hi) with rfl | hi
      · exact (hsame _).mpr (.inr rfl)
      · exact (hsame i).mpr (.inl (h.accepted i (hrest.subset hi)))
    covers := fun i hi => by
      rw [hperm.mem_iff, List.mem_cons]
      rcases (hsame i).mp hi with hold | rfl
      · refine (h.covers i hold).elim .inl fun hin => ?_
        rcases List.mem_append.mp hin with hm | ht
        · cases hs : seen i with
          | true => exact .inl (hseen i hs)
          | false =>
            exact .inr (.inr (List.mem_append_left _ (List.mem_filter.mpr ⟨hm, by rw [hs]; rfl⟩)))
        · exact .inr (.inr (List.mem_append_right _ ht))
      · exact .inr (.inl rfl)
    begun := ⟨h.begun.1, fun i hi => (hsame i).mpr (.inl (h.begun.2 i hi))⟩
    ended := h.ended
    returned := h.returned
    began := fun k n hk => (h.began k n hk).later (by simp)
      (fun i hn hi => ((hsame i).mp hi).resolve_right
        (Nat.ne_of_lt (Nat.lt_of_lt_of_le hn (h.began k n hk).le)))
      (fun _ _ => rfl) (fun _ hi => hi) }

theorem Sound.spawn (h : w.Sound) (unseen : List Nat) : (w.step (.spawn unseen)).Sound := by
  rw [step]
  split
  · rename_i group hg
    obtain ⟨-, rfl⟩ := spawn?_eq_some hg
    exact h.entered fun i hi => (of_decide_eq_true hi).1
  · exact h.refused

theorem Sound.begins (h : w.Sound) (i : Nat) : (w.step (.begins i)).Sound := by
  rw [step]
  split
  · rename_i hi
    have hnodup : (w.begun ++ [i]).Nodup := by
      rw [← List.concat_eq_append, List.nodup_concat]
      exact ⟨hi.2, h.begun.1⟩
    exact { h with
      begun := ⟨hnodup, fun j hj => by
        rcases List.mem_append.mp hj with hj | hj
        · exact h.begun.2 j hj
        · rw [List.mem_singleton.mp hj]
          exact h.accepted i (w.inHand_sublist.subset hi.1)⟩
      ended := ⟨h.ended.1, fun j hj => List.mem_append_left _ (h.ended.2 j hj)⟩
      began := fun k n hk => (h.began k n hk).same rfl rfl fun _ hi => hi }
  · exact h

theorem Sound.ends (h : w.Sound) (i : Nat) (crashed : Bool) : (w.step (.ends i crashed)).Sound := by
  rw [step]
  split
  · rename_i hi
    have hended : ({ w with ends := w.ends ++ [(i, crashed)] } : Crew).ended = w.ended ++ [i] :=
      List.map_append
    have hmono : ∀ j ∈ w.ended, j ∈ w.ended ++ [i] := fun j => List.mem_append_left _
    have hnodup : (w.ended ++ [i]).Nodup := by
      rw [← List.concat_eq_append, List.nodup_concat]
      exact ⟨hi.2.2, h.ended.1⟩
    exact { h with
      covers := fun j hj => hended ▸ (h.covers j hj).imp_left (hmono j)
      ended := hended ▸ ⟨hnodup, fun j hj => by
        rcases List.mem_append.mp hj with hj | hj
        · exact h.ended.2 j hj
        · rw [List.mem_singleton.mp hj]
          exact hi.2.1⟩
      returned := fun k hk => hended ▸
        ⟨(h.returned k hk).1, fun j hj => hmono j ((h.returned k hk).2 j hj)⟩
      began := fun k n hk => (h.began k n hk).same rfl rfl (hended ▸ hmono) }
  · exact h

theorem Sound.close (h : w.Sound) : (w.step .close).Sound :=
  { h with began := fun k n hk => (h.began k n hk).same rfl rfl fun _ hi => hi }

/-- The members are what no drain has taken over before. -/
theorem Sound.began_drain (h : w.Sound) :
    (w.step .drain).Began w.calls.length w.answers.length where
  le := Nat.le_refl _
  covers i _ hi := by
    refine (h.covers i hi).imp_right fun hin => ?_
    have hin : i ∈ everyone (w.step .drain).group := (everyone_drain_perm w.group).mem_iff.mpr hin
    rcases mem_everyone.mp hin with hm | ⟨k, hk⟩
    · cases hm
    · have hlt : k < (w.group.drains ++ [w.group.members]).length := lt_of_mem_taken hk
      rw [List.length_append, ← h.length_calls] at hlt
      exact ⟨k, Nat.le_of_lt_succ hlt, hk⟩
  lt k _ i hi := by
    have hin : i ∈ everyone (w.step .drain).group := mem_everyone.mpr (.inr ⟨k, hi⟩)
    exact (h.accepted i ((everyone_drain_perm w.group).mem_iff.mp hin)).lt

theorem Sound.drain (h : w.Sound) : (w.step .drain).Sound := by
  have hperm : (everyone (w.step .drain).group).Perm (everyone w.group) := everyone_drain_perm _
  have hold : ∀ k < w.group.drains.length, (w.step .drain).taken k = w.taken k := fun k hk => by
    rw [taken_drain, if_neg (Nat.ne_of_lt hk)]
  exact {
    length_calls := by
      show (w.calls ++ [w.answers.length]).length = (w.group.drains ++ [w.group.members]).length
      rw [List.length_append, List.length_append, h.length_calls]
      rfl
    nodup := hperm.nodup_iff.mpr h.nodup
    accepted := fun i hi => h.accepted i (hperm.mem_iff.mp hi)
    covers := fun i hi => (h.covers i hi).imp_right hperm.mem_iff.mpr
    begun := h.begun
    ended := h.ended
    returned := fun k hk => by
      obtain ⟨hlt, hended⟩ := h.returned k hk
      refine ⟨Nat.lt_of_lt_of_le hlt (by simp [step]), ?_⟩
      rw [hold k (h.length_calls ▸ hlt)]
      exact hended
    began := fun k n hk => by
      have hk : (w.calls ++ [w.answers.length])[k]? = some n := hk
      rcases Nat.lt_trichotomy k w.calls.length with hlt | rfl | hgt
      · rw [List.getElem?_append_left hlt] at hk
        exact (h.began k n hk).later (Nat.le_refl _) (fun _ _ hi => hi)
          (fun k' hk' => hold k' (Nat.lt_of_le_of_lt hk' (h.length_calls ▸ hlt))) fun _ hi => hi
      · rw [List.getElem?_concat_length, Option.some.injEq] at hk
        exact hk ▸ h.began_drain
      · rw [List.getElem?_eq_none (by rw [List.length_append]; exact hgt)] at hk
        cases hk }

theorem Sound.returns (h : w.Sound) (k : Nat) : (w.step (.returns k)).Sound := by
  rw [step]
  split
  · rename_i hk
    have hended : ∀ i ∈ w.taken k, i ∈ w.ended := fun i hi =>
      of_decide_eq_true (List.all_eq_true.mp hk.2.2 i hi)
    exact { h with
      returned := fun k' hk' => by
        rcases List.mem_append.mp hk' with hk' | hk'
        · exact h.returned k' hk'
        · rw [List.mem_singleton.mp hk']
          exact ⟨hk.1, hended⟩
      began := fun k n hk => (h.began k n hk).same rfl rfl fun _ hi => hi }
  · exact h

theorem Sound.step (h : w.Sound) (e : Event) : (w.step e).Sound := by
  cases e with
  | spawn unseen => exact h.spawn unseen
  | begins i => exact h.begins i
  | ends i crashed => exact h.ends i crashed
  | close => exact h.close
  | drain => exact h.drain
  | returns k => exact h.returns k

theorem sound_new : new.Sound where
  length_calls := rfl
  nodup := .nil
  accepted := nofun
  covers := nofun
  begun := ⟨.nil, nofun⟩
  ended := ⟨.nil, nofun⟩
  returned := nofun
  began := nofun

theorem Sound.play (h : w.Sound) (es : List Event) : (w.play es).Sound := by
  induction es generalizing w with
  | nil => exact h
  | cons e es ih => exact ih (h.step e)

/-! ## A closed group -/

theorem closed_step (hc : w.group.closed = true) (e : Event) :
    (w.step e).group.closed = true ∧
      ((w.step e).answers = w.answers ∨ (w.step e).answers = w.answers ++ [false]) := by
  cases e with
  | spawn unseen =>
    rw [step, (spawn?_eq_none_iff ..).mpr hc]
    exact ⟨hc, .inr rfl⟩
  | begins | ends | returns =>
    rw [step]
    split
    · exact ⟨hc, .inl rfl⟩
    · exact ⟨hc, .inl rfl⟩
  | close => exact ⟨rfl, .inl rfl⟩
  | drain => exact ⟨hc, .inl rfl⟩

/-- A closed group takes nothing in, whatever happens. -/
theorem answers_closed (hc : w.group.closed = true) (es : List Event) :
    ∃ refused, (w.play es).answers = w.answers ++ List.replicate refused false := by
  induction es generalizing w with
  | nil => exact ⟨0, (List.append_nil _).symm⟩
  | cons e es ih =>
    obtain ⟨hc', ha⟩ := closed_step hc e
    obtain ⟨refused, h⟩ := ih hc'
    rcases ha with ha | ha
    · exact ⟨refused, h.trans (by rw [ha])⟩
    · exact ⟨refused + 1, h.trans (by rw [ha, List.append_assoc]; rfl)⟩

/-! ## What becomes of tasks and drains -/

/-- How a group looks after its tasks at a moment. -/
structure Supervised (w : Crew) : Prop where
  /-- Every task that had been spawned when a drain began has ended, now that it has returned,
  exactly if those have that earlier drains are still waiting for. -/
  waits : ∀ k ∈ w.returned, ∃ n, w.calls[k]? = some n ∧
    ((∀ i < n, w.Accepted i → i ∈ w.ended) ↔
      ∀ k' < k, k' ∉ w.returned → ∀ i ∈ w.taken k', i ∈ w.ended)
  /-- A task that was taken in has been run, or it is in one pair of hands and was not begun
  twice. -/
  once : ∀ i, w.Accepted i → w.begun.count i = 1 ∧ w.ended.count i = 1 ∨
    w.begun.count i ≤ 1 ∧ w.ended.count i = 0 ∧ w.inHand.count i = 1
  never : ∀ i, ¬ w.Accepted i → i ∉ w.begun ∧ i ∉ w.ended ∧ i ∉ w.inHand

theorem Sound.waits (h : w.Sound) (hk : k ∈ w.returned) : ∃ n, w.calls[k]? = some n ∧
    ((∀ i < n, w.Accepted i → i ∈ w.ended) ↔
      ∀ k' < k, k' ∉ w.returned → ∀ i ∈ w.taken k', i ∈ w.ended) := by
  obtain ⟨hlt, -⟩ := h.returned k hk
  have hb := h.began k _ (List.getElem?_eq_getElem hlt)
  refine ⟨_, List.getElem?_eq_getElem hlt, fun hall k' hk' _ i hi => ?_, fun hearlier i hn hi => ?_⟩
  · have haccepted := h.accepted i (mem_everyone.mpr (.inr ⟨k', hi⟩))
    exact hall i (hb.lt k' (Nat.le_of_lt hk') i hi) haccepted
  · rcases hb.covers i hn hi with hended | ⟨k', hk', hin⟩
    · exact hended
    · by_cases hback : k' ∈ w.returned
      · exact (h.returned k' hback).2 i hin
      · have hne : k' ≠ k := fun heq => hback (heq ▸ hk)
        exact hearlier k' (Nat.lt_of_le_of_ne hk' hne) hback i hin

/-- Nobody lets go of a task that has not ended. -/
theorem Sound.mem_inHand (h : w.Sound) (hi : w.Accepted i) (hended : i ∉ w.ended) :
    i ∈ w.inHand := by
  rcases mem_everyone.mp ((h.covers i hi).resolve_left hended) with hm | ⟨k, hk⟩
  · exact List.mem_append_left _ hm
  · exact mem_inHand_of_taken hk fun hback => hended ((h.returned k hback).2 i hk)

theorem Sound.once (h : w.Sound) (hi : w.Accepted i) : w.begun.count i = 1 ∧ w.ended.count i = 1 ∨
    w.begun.count i ≤ 1 ∧ w.ended.count i = 0 ∧ w.inHand.count i = 1 := by
  by_cases hended : i ∈ w.ended
  · exact .inl ⟨List.count_eq_one_of_mem h.begun.1 (h.ended.2 i hended),
      List.count_eq_one_of_mem h.ended.1 hended⟩
  · have hnodup : w.inHand.Nodup := h.nodup.sublist w.inHand_sublist
    exact .inr ⟨List.nodup_iff_count_le_one.mp h.begun.1 i, List.count_eq_zero.mpr hended,
      List.count_eq_one_of_mem hnodup (h.mem_inHand hi hended)⟩

theorem Sound.supervised (h : w.Sound) : w.Supervised where
  waits _ hk := h.waits hk
  once _ hi := h.once hi
  never i hi := ⟨fun hin => hi (h.begun.2 i hin),
    fun hin => hi (h.begun.2 i (h.ended.2 i hin)),
    fun hin => hi (h.accepted i (w.inHand_sublist.subset hin))⟩

/-- **A group looks after its tasks.** Whatever is spawned, ends, crashes, is closed, drained and
returns, in whatever order: a task that was taken in runs once, a task that was refused never does,
and from a close on all are refused. A drain that has returned has waited for every task that had
been spawned when it began exactly if those have ended that drains before it still wait for; if all
of these have returned, it has. -/
theorem play_supervised (es : List Event) :
    let w := new.play es
    w.Supervised ∧
      ∀ es', ∃ refused, ((w.step .close).play es').answers =
        w.answers ++ List.replicate refused false :=
  ⟨(sound_new.play es).supervised, fun es' => answers_closed rfl es'⟩

/-- A drain need not wait for all tasks that had been spawned when it began: another drain has taken
over the only one, which is still running when the second drain returns. -/
theorem second_drain_returns_early :
    ¬ ∀ es k n, let w := new.play es
      k ∈ w.returned → w.calls[k]? = some n → ∀ i < n, w.Accepted i → i ∈ w.ended := by
  intro h
  have hended := h [.spawn [], .begins 0, .drain, .drain, .returns 1] 1 1 (by decide) rfl 0
    (by decide) rfl
  exact absurd hended (by decide)

end Crew
end AfterAction.TaskGroup
