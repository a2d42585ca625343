import AfterAction.Json.Numeral

/-!
From a text to a tree. The grammar is the strict one: four blanks, no comments, no trailing
commas, no leading zeros, no control characters inside strings. A scan never fails; where the text
breaks off it leaves a cut and returns no rest.
-/

namespace AfterAction.Json

/-- What a scanner found and the text after it; no text after a cut. -/
abbrev Scanned (α : Type) := α × Option (List Char)

def skipBlanks (cs : List Char) : List Char :=
  cs.dropWhile fun c => c == ' ' || c == '\t' || c == '\n' || c == '\r'

/-- Four hexadecimal digits and the text after them. -/
def hexUnit? : List Char → Option (Nat × List Char)
  | a :: b :: c :: d :: rest => do
    return ((((← Text.hexDigit? a) * 16 + (← Text.hexDigit? b)) * 16 + (← Text.hexDigit? c)) * 16 +
      (← Text.hexDigit? d), rest)
  | _ => none

def isHighHalf (unit : Nat) : Bool := 0xD800 ≤ unit && unit ≤ 0xDBFF

def isLowHalf (unit : Nat) : Bool := 0xDC00 ≤ unit && unit ≤ 0xDFFF

/-- The low half that may follow a high half, written as an escape of its own. -/
def lowHalf? (cs : List Char) : Option (Nat × List Char) :=
  match cs with
  | '\\' :: 'u' :: rest =>
    match hexUnit? rest with
    | some (unit, rest) => if isLowHalf unit then some (unit, rest) else none
    | none => none
  | _ => none

def joinHalves (high low : Nat) : Char :=
  Char.ofNat (0x10000 + (high - 0xD800) * 0x400 + (low - 0xDC00))

def simpleEscape? : Char → Option Char
  | '"' => some '"'
  | '\\' => some '\\'
  | '/' => some '/'
  | 'b' => some '\x08'
  | 'f' => some '\x0c'
  | 'n' => some '\n'
  | 'r' => some '\r'
  | 't' => some '\t'
  | _ => none

/-- The characters up to the closing quotation mark, newest first in `done`. A half without its
partner makes the string unreadable, yet the scan goes on behind it. -/
def stringBody : Nat → List Char → List Char → Bool → Option (List Char × Bool × List Char)
  | 0, _, _, _ => none
  | fuel + 1, cs, done, readable =>
    match cs with
    | [] => none
    | '"' :: rest => some (done.reverse, readable, rest)
    | '\\' :: 'u' :: rest =>
      match hexUnit? rest with
      | none => none
      | some (unit, rest) =>
        if isHighHalf unit then
          match lowHalf? rest with
          | some (low, rest) => stringBody fuel rest (joinHalves unit low :: done) readable
          | none => stringBody fuel rest done false
        else if isLowHalf unit then stringBody fuel rest done false
        else stringBody fuel rest (Char.ofNat unit :: done) readable
    | '\\' :: c :: rest =>
      match simpleEscape? c with
      | some e => stringBody fuel rest (e :: done) readable
      | none => none
    | c :: rest => if c.toNat < 0x20 then none else stringBody fuel rest (c :: done) readable

def stringToken (cs : List Char) : Option (List Char × Bool × List Char) :=
  stringBody (cs.length + 1) cs [] true

def exponent? (cs : List Char) : Option (Option Int × List Char) :=
  match cs with
  | [] => some (none, [])
  | c :: rest =>
    if c = 'e' || c = 'E' then
      let (negative, rest) :=
        match rest with
        | '-' :: rest => (true, rest)
        | '+' :: rest => (false, rest)
        | rest => (false, rest)
      let digits := rest.takeWhile Char.isDigit
      match digits, Text.valueOfDigits? digits with
      | _ :: _, some n => some (some (if negative then -n else n), rest.drop digits.length)
      | _, _ => none
    else some (none, cs)

def fraction? (cs : List Char) : Option (List Char × List Char) :=
  match cs with
  | '.' :: rest =>
    let digits := rest.takeWhile Char.isDigit
    if digits.isEmpty then none else some (digits, rest.drop digits.length)
  | _ => some ([], cs)

def numeral? (cs : List Char) : Option (Numeral × List Char) := do
  let (negative, unsigned) :=
    match cs with
    | '-' :: rest => (true, rest)
    | rest => (false, rest)
  let whole := unsigned.takeWhile Char.isDigit
  if whole.isEmpty || (whole.head? == some '0' && whole.length != 1) then none
  let (fraction, rest) ← fraction? (unsigned.drop whole.length)
  let (exponent, rest) ← exponent? rest
  return (⟨negative, whole, fraction, exponent⟩, rest)

def wordOrNumber (cs : List Char) : Scanned Json :=
  match cs with
  | 'n' :: 'u' :: 'l' :: 'l' :: rest => (.null, some rest)
  | 't' :: 'r' :: 'u' :: 'e' :: rest => (.bool true, some rest)
  | 'f' :: 'a' :: 'l' :: 's' :: 'e' :: rest => (.bool false, some rest)
  | _ =>
    match numeral? cs with
    | some (n, rest) => (n.json, some rest)
    | none => (.flaw .cut, none)

mutual

def scanValue : Nat → List Char → Scanned Json
  | 0, _ => (.flaw .cut, none)
  | fuel + 1, cs =>
    match skipBlanks cs with
    | '\x7b' :: rest =>
      match skipBlanks rest with
      | '\x7d' :: rest => (.object [], some rest)
      | rest => let (members, rest) := scanMembers fuel rest; (.object members, rest)
    | '[' :: rest =>
      match skipBlanks rest with
      | ']' :: rest => (.array [], some rest)
      | rest => let (items, rest) := scanItems fuel rest; (.array items, rest)
    | '"' :: rest =>
      match stringToken rest with
      | some (cs, true, rest) => (.string (.ofList cs), some rest)
      | some (_, false, rest) => (.flaw .token, some rest)
      | none => (.flaw .cut, none)
    | rest => wordOrNumber rest

/-- One item or more, up to the closing bracket. -/
def scanItems : Nat → List Char → Scanned (List Json)
  | 0, _ => ([.flaw .cut], none)
  | fuel + 1, cs =>
    match scanValue fuel cs with
    | (v, none) => ([v], none)
    | (v, some rest) =>
      match skipBlanks rest with
      | ',' :: rest => let (items, rest) := scanItems fuel rest; (v :: items, rest)
      | ']' :: rest => ([v], some rest)
      | _ => ([v, .flaw .cut], none)

/-- One member or more, up to the closing brace. -/
def scanMembers : Nat → List Char → Scanned (List (String × Json))
  | 0, _ => ([("", .flaw .cut)], none)
  | fuel + 1, cs =>
    match skipBlanks cs with
    | '"' :: rest =>
      match stringToken rest with
      | none => ([("", .flaw .cut)], none)
      | some (key, readable, rest) =>
        match skipBlanks rest with
        | ':' :: rest =>
          let (v, after) := scanValue fuel rest
          let member := (String.ofList key, if readable then v else .flaw .key)
          match after.map skipBlanks with
          | some (',' :: rest) =>
            let (members, rest) := scanMembers fuel rest
            (member :: members, rest)
          | some ('\x7d' :: rest) => ([member], some rest)
          | some _ => ([member, ("", .flaw .cut)], none)
          | none => (if readable then [member] else [member, ("", .flaw .cut)], none)
        | _ => ([(.ofList key, .flaw .cut)], none)
    | _ => ([("", .flaw .cut)], none)

end

/-- A scanned text: its value, and whether anything but blanks follows it. -/
structure Document where
  value : Json
  junk : Bool

/-- Each value and each item or member takes a character, so twice the length is fuel enough. -/
def scan (text : String) : Document :=
  let cs := text.toList
  match scanValue (2 * cs.length + 2) cs with
  | (v, none) => ⟨v, false⟩
  | (v, some rest) => ⟨v, !(skipBlanks rest).isEmpty⟩

end AfterAction.Json
