import AfterAction.TaskGroup

/-!
Chores: a group of tasks that only sleep and then end, well or with a crash. They begin once time
is given to them.
-/

namespace AfterAction

structure Chore where
  /-- In milliseconds. -/
  length : Nat
  crashes : Bool
  /-- Timer reading of its end, once it has begun. -/
  wake : Option Nat
  ended : Bool
  deriving DecidableEq, Repr

structure Chores where
  group : TaskGroup Nat
  chores : List Chore
  timer : Nat
  deriving Repr

namespace Chores

def new : Chores := ⟨TaskGroup.empty, [], 0⟩

def hasEnded (c : Chores) (i : Nat) : Bool := ((c.chores[i]?).map (·.ended)).getD true

/-- Takes a chore in; false once the group is closed. -/
def spawn (c : Chores) (length : Nat) (crashes : Bool) : Bool × Chores :=
  match c.group.spawn? c.hasEnded c.chores.length with
  | some group => (true, { c with group, chores := c.chores ++ [⟨length, crashes, none, false⟩] })
  | none => (false, c)

def begin (c : Chores) : Chores :=
  { c with chores := c.chores.map fun chore =>
    { chore with wake := chore.wake <|> some (c.timer + chore.length) } }

/-- Sleeps; of what ends at the same time the sleeper is first to go on. A sleep of no length gives
nobody time. -/
def sleep (c : Chores) (milliseconds : Nat) : Chores :=
  if milliseconds = 0 then c
  else
    let timer := c.timer + milliseconds
    { c with
      timer
      chores := c.begin.chores.map fun chore =>
        { chore with ended := chore.ended || chore.wake.any (· < timer) } }

def close (c : Chores) : Chores := { c with group := c.group.close }

/-- Takes the tasks over and sleeps until the last of them has ended. -/
def drain (c : Chores) : Chores :=
  if c.group.members.isEmpty then { c with group := c.group.drain }
  else
    let begun := c.begin
    let timer := begun.chores.foldl (fun t chore => max t (chore.wake.getD 0)) c.timer
    { group := c.group.drain
      timer
      chores := begun.chores.map fun chore => { chore with ended := true } }

/-- Chores that ended well. -/
def finished (c : Chores) : Nat := c.chores.countP fun chore => chore.ended && !chore.crashes

end Chores
end AfterAction
