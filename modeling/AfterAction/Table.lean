/-!
Tables: names with values, where the first entry of a name counts.
-/

namespace AfterAction.Table

variable {α : Type}

/-- In the place of the name's first entry, if it has one. -/
def put (name : String) (value : α) : List (String × α) → List (String × α)
  | [] => [(name, value)]
  | (other, old) :: rest =>
    if other = name then (name, value) :: rest else (other, old) :: put name value rest

def drop (name : String) (table : List (String × α)) : List (String × α) :=
  table.filter (·.1 ≠ name)

theorem lookup_put (name other : String) (value : α) (table : List (String × α)) :
    (put name value table).lookup other =
      if other = name then some value else table.lookup other := by
  induction table with
  | nil =>
    by_cases h : other = name
    · simp [put, h]
    · simp [put, List.lookup_cons, beq_false_of_ne h, h]
  | cons entry rest ih =>
    obtain ⟨key, old⟩ := entry
    rw [put]
    by_cases hk : key = name
    · rw [if_pos hk, List.lookup_cons, List.lookup_cons, hk]
      by_cases h : other = name
      · simp [h]
      · simp [beq_false_of_ne h, h]
    · rw [if_neg hk, List.lookup_cons, List.lookup_cons, ih]
      by_cases h : other = key
      · simp [h, hk]
      · simp [beq_false_of_ne h]

/-- A name without an entry gets one at the end. -/
theorem put_of_lookup_eq_none {name : String} (value : α) {table : List (String × α)}
    (h : table.lookup name = none) : put name value table = table ++ [(name, value)] := by
  induction table with
  | nil => rfl
  | cons entry rest ih =>
    obtain ⟨key, old⟩ := entry
    by_cases hk : key = name
    · subst hk
      simp at h
    · rw [List.lookup_cons, beq_false_of_ne (Ne.symm hk)] at h
      rw [put, if_neg hk, ih h]
      rfl

/-- What is put in, and nothing else. -/
theorem mem_put {name : String} {value : α} {table : List (String × α)} {entry : String × α}
    (h : entry ∈ put name value table) : entry ∈ table ∨ entry = (name, value) := by
  induction table with
  | nil => exact .inr (List.mem_singleton.mp h)
  | cons first rest ih =>
    rw [put] at h
    split at h
    · exact (List.mem_cons.mp h).symm.imp_left (List.mem_cons_of_mem _)
    · rcases List.mem_cons.mp h with rfl | hrest
      · exact .inl List.mem_cons_self
      · exact (ih hrest).imp_left (List.mem_cons_of_mem _)

theorem lookup_drop (name other : String) (table : List (String × α)) :
    (drop name table).lookup other = if other = name then none else table.lookup other := by
  rw [drop]
  induction table with
  | nil => simp
  | cons entry rest ih =>
    obtain ⟨key, value⟩ := entry
    by_cases hk : key = name
    · rw [List.filter_cons_of_neg (by simpa using hk), ih, List.lookup_cons, hk]
      split
      · rfl
      · rename_i h
        rw [beq_false_of_ne h]
    · rw [List.filter_cons_of_pos (by simpa using hk), List.lookup_cons, List.lookup_cons]
      by_cases h : other = key
      · simp [h, hk]
      · rw [beq_false_of_ne h]
        exact ih

end AfterAction.Table
