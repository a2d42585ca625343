import AfterAction.Binary64.Shortest
import AfterAction.Json.Value

/-!
From a tree to a text: on one line, or indented by two blanks a level. Characters outside ASCII
stand for themselves; controls, quotation marks and backslashes are escaped. Floats are written by
the fewest digits that read back.
-/

namespace AfterAction.Json

def escapeChar (c : Char) : List Char :=
  match c with
  | '"' => ['\\', '"']
  | '\\' => ['\\', '\\']
  | '\n' => ['\\', 'n']
  | '\r' => ['\\', 'r']
  | '\t' => ['\\', 't']
  | '\x08' => ['\\', 'b']
  | '\x0c' => ['\\', 'f']
  | c =>
    if c.toNat < 0x20 then
      ['\\', 'u', '0', '0'] ++ [Nat.digitChar (c.toNat / 16), Nat.digitChar (c.toNat % 16)]
    else [c]

def quoted (s : String) : String :=
  .ofList (['"'] ++ s.toList.flatMap escapeChar ++ ['"'])

/-- Digits with a point after as many of them, which may be none or more than there are. -/
def positional (digits : List Char) (point : Int) : List Char :=
  if point ≤ 0 then ['0', '.'] ++ List.replicate (-point).toNat '0' ++ digits
  else if digits.length ≤ point then
    digits ++ List.replicate (point.toNat - digits.length) '0' ++ ['.', '0']
  else digits.take point.toNat ++ '.' :: digits.drop point.toNat

/-- One digit before the point, and the power of ten behind. -/
def scientific (digits : List Char) (point : Int) : List Char :=
  digits.take 1 ++ (if digits.length ≤ 1 then [] else '.' :: digits.drop 1) ++
    'e' :: (toString (point - 1)).toList

/-- The shortest decimal that reads back, always with a point or an exponent. From five zeros behind
the point on, and from seventeen digits before it, the exponent is written. -/
def realText (x : Binary64) : String :=
  let magnitude :=
    if x.isZero then ['0', '.', '0']
    else
      let decimal := x.shortest
      let digits := Nat.toDigits 10 decimal.digits
      let point := digits.length + decimal.exponent
      let digits := (digits.reverse.dropWhile (· == '0')).reverse
      if -5 < point ∧ point ≤ 16 then positional digits point else scientific digits point
  .ofList ((if x.negative then ['-'] else []) ++ magnitude)

def Number.text : Number → String
  | .int n => toString n
  | .real x => realText x

mutual

/-- Without any blanks. A flaw has no text and is written as nothing known. -/
def compact : Json → String
  | .null => "null"
  | .bool true => "true"
  | .bool false => "false"
  | .number n => n.text
  | .string s => quoted s
  | .array items => "[" ++ compactItems items ++ "]"
  | .object members => "\x7b" ++ compactMembers members ++ "\x7d"
  | .flaw _ => "null"

def compactItems : List Json → String
  | [] => ""
  | [v] => compact v
  | v :: rest => compact v ++ "," ++ compactItems rest

def compactMembers : List (String × Json) → String
  | [] => ""
  | [(key, v)] => quoted key ++ ":" ++ compact v
  | (key, v) :: rest => quoted key ++ ":" ++ compact v ++ "," ++ compactMembers rest

end

/-- A character as one unit of sixteen bits, or as two. -/
def units16 (c : Char) : List Nat :=
  if c.toNat < 0x10000 then [c.toNat]
  else [0xD800 + (c.toNat - 0x10000) / 0x400, 0xDC00 + (c.toNat - 0x10000) % 0x400]

def escapedUnit (n : Nat) : List Char :=
  ['\\', 'u', Nat.digitChar (n / 4096), Nat.digitChar (n / 256 % 16),
    Nat.digitChar (n / 16 % 16), Nat.digitChar (n % 16)]

/-- Without any blanks and in ASCII only. Outside of strings there is nothing to escape. -/
def ascii (v : Json) : String :=
  .ofList (v.compact.toList.flatMap fun c =>
    if c.toNat < 0x7F then [c] else (units16 c).flatMap escapedUnit)

def lineBreak (level : Nat) : String :=
  .ofList ('\n' :: List.replicate (2 * level) ' ')

mutual

/-- One item or member a line; empty containers stay on theirs. -/
def pretty (level : Nat) : Json → String
  | .array (v :: rest) =>
    "[" ++ prettyItems (level + 1) (v :: rest) ++ lineBreak level ++ "]"
  | .object (m :: rest) =>
    "\x7b" ++ prettyMembers (level + 1) (m :: rest) ++ lineBreak level ++ "\x7d"
  | .array [] => "[]"
  | .object [] => "\x7b\x7d"
  | .null => "null"
  | .bool true => "true"
  | .bool false => "false"
  | .number n => n.text
  | .string s => quoted s
  | .flaw _ => "null"

def prettyItems (level : Nat) : List Json → String
  | [] => ""
  | [v] => lineBreak level ++ pretty level v
  | v :: rest => lineBreak level ++ pretty level v ++ "," ++ prettyItems level rest

def prettyMembers (level : Nat) : List (String × Json) → String
  | [] => ""
  | [(key, v)] => lineBreak level ++ quoted key ++ ": " ++ pretty level v
  | (key, v) :: rest =>
    lineBreak level ++ quoted key ++ ": " ++ pretty level v ++ "," ++ prettyMembers level rest

end

end AfterAction.Json
