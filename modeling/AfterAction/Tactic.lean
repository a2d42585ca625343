import AfterAction.Text.Blank

/-!
Tactic labels: the column of the attack catalogue that a step belongs to.
-/

namespace AfterAction.Tactic

/-- The catalogue's tactics in kill chain order. -/
def killChain : List String :=
  ["reconnaissance", "resource-development", "initial-access", "execution", "persistence",
    "privilege-escalation", "defense-evasion", "credential-access", "discovery",
    "lateral-movement", "collection", "command-and-control", "exfiltration", "impact"]

/-- Place in the kill chain; every other label comes after the last of them. -/
def rank (tactic : String) : Nat := killChain.idxOf tactic

def allowed (c : Char) : Bool := c.isAlphanum || c == ' ' || c == '-'

/-- A label that may leave the process: 1 to 64 ASCII letters, digits, spaces and hyphens. -/
def isLabel (tactic : String) : Bool :=
  tactic.toList.length ≠ 0 && tactic.toList.length ≤ 64 && tactic.toList.all allowed

/-- The labels of a list after trimming, each once, in the order they first appear. -/
def collect (raw : List String) : List String :=
  ((raw.map Text.trim).filter isLabel).eraseDups

/-- The name a step's tactic is counted under. -/
def groupName (tactic : String) : String :=
  let name := Text.trim tactic
  if name = "" then "unknown" else name

theorem rank_le (tactic : String) : rank tactic ≤ killChain.length := List.idxOf_le_length

end AfterAction.Tactic
