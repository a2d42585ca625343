import AfterAction.Binary64

/-!
Values of the interchange format, as a scan of a text yields them. A text can go wrong at one
place and still have a sound beginning; the tree keeps the place as a flaw, so that a reader who
walks the tree in order meets the earliest fault of the text first.
-/

namespace AfterAction

/-- What a scan found wrong. A cut ends the text; the other two can be passed over, as long as
nobody has to read them. -/
inductive Json.Flaw
  /-- Here the text stops being well formed; nothing follows. -/
  | cut
  /-- A string with half of a surrogate pair, or a number beyond every float. -/
  | token
  /-- A member whose key has half of a surrogate pair. -/
  | key
  deriving DecidableEq, Repr

/-- A whole number that fits 64 bits, with or without sign, or a float. -/
inductive Json.Number
  | int (value : Int)
  | real (value : Binary64)
  deriving DecidableEq, Repr

inductive Json
  | null
  | bool (value : Bool)
  | number (value : Json.Number)
  | string (text : String)
  | array (items : List Json)
  /-- Members in the order of the text; a key may stand more than once. -/
  | object (members : List (String × Json))
  | flaw (kind : Json.Flaw)
  deriving Repr

namespace Json

def ofNat (n : Nat) : Json := .number (.int n)

def ofInt (n : Int) : Json := .number (.int n)

def ofStrings (texts : List String) : Json := .array (texts.map .string)

/-- Nothing for `none`. -/
def ofOption {α : Type} (write : α → Json) : Option α → Json
  | none => .null
  | some a => write a

mutual

/-- No cut anywhere: the value may be skipped. -/
def whole : Json → Bool
  | .flaw .cut => false
  | .array items => wholeItems items
  | .object members => wholeMembers members
  | _ => true

def wholeItems : List Json → Bool
  | [] => true
  | v :: rest => whole v && wholeItems rest

def wholeMembers : List (String × Json) → Bool
  | [] => true
  | (_, v) :: rest => whole v && wholeMembers rest

end

mutual

/-- No flaw anywhere: every part of the value may be read. -/
def flawless : Json → Bool
  | .flaw _ => false
  | .array items => flawlessItems items
  | .object members => flawlessMembers members
  | _ => true

def flawlessItems : List Json → Bool
  | [] => true
  | v :: rest => flawless v && flawlessItems rest

def flawlessMembers : List (String × Json) → Bool
  | [] => true
  | (_, v) :: rest => flawless v && flawlessMembers rest

end

mutual

/-- How many containers stand inside one another at the deepest place. -/
def nesting : Json → Nat
  | .array items => nestingItems items + 1
  | .object members => nestingMembers members + 1
  | _ => 0

def nestingItems : List Json → Nat
  | [] => 0
  | v :: rest => max (nesting v) (nestingItems rest)

def nestingMembers : List (String × Json) → Nat
  | [] => 0
  | (_, v) :: rest => max (nesting v) (nestingMembers rest)

end

/-- Containers may stand inside one another this often in a value that is read as a whole. -/
def nestingLimit : Nat := 127

/-- The value of the last member with this key. -/
def get? (key : String) : Json → Option Json
  | .object members => members.reverse.lookup key
  | _ => none

end Json
end AfterAction
