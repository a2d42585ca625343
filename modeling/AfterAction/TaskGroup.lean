/-!
Groups of background tasks. A group takes tasks until it is closed; draining it takes over the
tasks it has and waits for them. Tasks that have ended are forgotten when the next one comes, so
the group does not grow without bound.
-/

namespace AfterAction

/-- `κ` tells the tasks apart. -/
structure TaskGroup (κ : Type) where
  closed : Bool
  /-- Taken in, and neither forgotten nor taken over. -/
  members : List κ
  /-- What each drain took over. -/
  drains : List (List κ)
  deriving DecidableEq, Repr

namespace TaskGroup

variable {κ : Type}

def empty : TaskGroup κ := ⟨false, [], []⟩

/-- Takes a task in, unless the group is closed. -/
def spawn? (g : TaskGroup κ) (ended : κ → Bool) (task : κ) : Option (TaskGroup κ) :=
  if g.closed then none
  else some { g with members := g.members.filter (!ended ·) ++ [task] }

def size (g : TaskGroup κ) : Nat := g.members.length

def close (g : TaskGroup κ) : TaskGroup κ := { g with closed := true }

/-- A drain begins: the tasks are its own now. -/
def drain (g : TaskGroup κ) : TaskGroup κ :=
  { g with members := [], drains := g.drains ++ [g.members] }

/-- A drain may return. -/
def drained (ended : κ → Bool) (taken : List κ) : Bool := taken.all ended

theorem spawn?_eq_none_iff (g : TaskGroup κ) (ended : κ → Bool) (task : κ) :
    g.spawn? ended task = none ↔ g.closed = true := by
  unfold spawn?
  split <;> simp_all

theorem spawn?_eq_some {g g' : TaskGroup κ} {ended : κ → Bool} {task : κ}
    (hs : g.spawn? ended task = some g') :
    g.closed = false ∧ g' = { g with members := g.members.filter (!ended ·) ++ [task] } := by
  unfold spawn? at hs
  split at hs
  · cases hs
  · rename_i hc
    cases hs
    exact ⟨by simpa using hc, rfl⟩

end TaskGroup
end AfterAction
