import AfterAction.Remote.Punycode
import AfterAction.Text.Display
import AfterAction.Text.Escape

/-!
Which texts name a host: an address of version 6 in brackets, one of version 4, whose numbers may
be written in three bases, or a name of labels between dots.
-/

namespace AfterAction.Host

/-! Addresses of version 6 -/

def isPiece (cs : List Char) : Bool :=
  !cs.isEmpty && cs.length ≤ 4 && cs.all fun c => (Text.hexDigit? c).isSome

/-- A decimal below 256 without leading zeros. -/
def isOctet (cs : List Char) : Bool :=
  cs.length ≤ 3 && cs.all Char.isDigit && (cs.head? != some '0' || cs.length == 1) &&
    match cs, Text.valueOfDigits? cs with
    | _ :: _, some n => n < 256
    | _, _ => false

def isDotted (cs : List Char) : Bool :=
  let octets := cs.splitOn '.'
  octets.length == 4 && octets.all isOctet

/-- How many of the eight pieces the parts of an address make up; the last part of all may be
dotted, which is two pieces. -/
def pieces? (last : Bool) : List (List Char) → Option Nat
  | [] => some 0
  | [part] =>
    if isPiece part then some 1
    else if last && isDotted part then some 2
    else none
  | part :: rest => if isPiece part then (pieces? last rest).map (· + 1) else none

/-- The parts of one side of the gap, which may be none. -/
def partsOf (cs : List Char) : List (List Char) := if cs.isEmpty then [] else cs.splitOn ':'

/-- What stands on both sides of the first gap. -/
def splitGap : List Char → Option (List Char × List Char)
  | ':' :: ':' :: rest => some ([], rest)
  | c :: rest => (splitGap rest).map fun (left, right) => (c :: left, right)
  | [] => none

/-- Eight pieces, or fewer around a gap. -/
def isSixth (cs : List Char) : Bool :=
  match splitGap cs with
  | none => pieces? true (partsOf cs) == some 8
  | some (left, right) =>
    match pieces? false (partsOf left), pieces? true (partsOf right) with
    | some l, some r => l + r ≤ 7
    | _, _ => false

/-! Addresses of version 4 -/

def numeral? (base : Nat) (cs : List Char) : Option Nat :=
  cs.foldlM (fun n c => do
    let digit ← Text.hexDigit? c
    if digit < base then return n * base + digit else none) 0

/-- Decimal, octal behind a zero, hexadecimal behind `0x`; the two marks alone are zero. -/
def addressNumber? : List Char → Option Nat
  | [] => none
  | '0' :: 'x' :: rest | '0' :: 'X' :: rest => numeral? 16 rest
  | '0' :: rest => numeral? 8 rest
  | cs => numeral? 10 cs

/-- Without the empty label that a dot at the end leaves. -/
def withoutRoot (labels : List (List Char)) : List (List Char) :=
  if labels.getLast? == some [] then labels.dropLast else labels

/-- A name with a number at its end can only be an address. -/
def endsInNumber (labels : List (List Char)) : Bool :=
  match (withoutRoot labels).getLast? with
  | some label => !label.isEmpty && (label.all Char.isDigit || (addressNumber? label).isSome)
  | none => false

/-- Up to four numbers, each but the last for one byte, the last for all the others. -/
def isFourth (labels : List (List Char)) : Bool :=
  match (withoutRoot labels).mapM addressNumber? with
  | some numbers =>
    numbers.length ≤ 4 && (numbers.dropLast.all (· < 256)) &&
      match numbers.getLast? with
      | some n => n < Nat.pow 256 (5 - numbers.length)
      | none => false
  | none => false

/-! Names -/

/-- Characters without any width, which do not count. -/
def ignoredRanges : Text.Ranges := [
  (0xAD, 0xAD), (0x34F, 0x34F), (0x180B, 0x180D), (0x180F, 0x180F), (0x200B, 0x200B),
  (0x2060, 0x2060), (0x2064, 0x2064), (0xFE00, 0xFE0F), (0xFEFF, 0xFEFF)]

/-- Characters that are as good as one or more that no name has: a blank with a mark above or below
it, a dot, a slash, a question mark; and the two that stand for something else or unknown. -/
def barredRanges : Text.Ranges := [
  (0xA8, 0xA8), (0xAF, 0xAF), (0xB4, 0xB4), (0xB8, 0xB8), (0x2D8, 0x2DD), (0x37A, 0x37A),
  (0x384, 0x385), (0x1FBD, 0x1FBD), (0x1FBF, 0x1FC1), (0x1FCD, 0x1FCF), (0x1FDD, 0x1FDF),
  (0x1FED, 0x1FEF), (0x1FFD, 0x1FFE), (0x2017, 0x2017), (0x2024, 0x2026), (0x203E, 0x203E),
  (0x2047, 0x2049), (0x2100, 0x2101), (0x2105, 0x2106), (0x309B, 0x309C), (0xFFE3, 0xFFE3),
  (0xFFFC, 0xFFFD)]

def isIdeographicStop (c : Char) : Bool := c == '\u3002' || c == '\uff61'

/-- Full width forms count as the ASCII characters they widen. -/
def narrow (c : Char) : Char :=
  if isIdeographicStop c then '.'
  else if 0xFF01 ≤ c.toNat && c.toNat ≤ 0xFF5E then .ofNat (c.toNat - 0xFEE0)
  else c

def folded (cs : List Char) : List Char :=
  (cs.filter (!ignoredRanges.contains ·)).map fun c => (narrow c).toLower

/-- Characters that end or split a part of a URL. -/
def delimiters : List Char :=
  [' ', '%', '#', '/', ':', '<', '>', '?', '@', '[', '\\', ']', '^', '|']

/-- Characters that no request line holds. -/
def unsendable : List Char := ['"', '\x60', '\x7b', '\x7d']

def isNameChar (c : Char) : Bool :=
  if c.toNat < 0x80 then
    0x20 < c.toNat && c.toNat != 0x7F && !delimiters.contains c && !unsendable.contains c
  else !barredRanges.contains c && (Text.isVisible c || Text.isExtending c)

def isForeign (cs : List Char) : Bool :=
  cs.all isNameChar && !(cs.head?.any Text.isExtending)

def codedMark : List Char := ['x', 'n', '-', '-']

/-- A label in another script may be coded, but then it needs to be in another script. -/
def isLabel (cs : List Char) : Bool :=
  isForeign cs &&
    (cs.take codedMark.length != codedMark ||
      match Punycode.decode? (cs.drop codedMark.length) with
      | some decoded => decoded.any (0x80 ≤ ·.toNat) && isForeign decoded
      | none => false)

/-- A name as it stands in a URL, escapes and all. -/
def isName (cs : List Char) : Bool :=
  match Escape.unescaped? cs with
  | none => false
  | some name =>
    let name := folded name.toList
    let labels := name.splitOn '.'
    !name.isEmpty && labels.all isLabel && (!endsInNumber labels || isFourth labels)

def isValid (cs : List Char) : Bool :=
  match cs with
  | '[' :: rest => rest.getLast? == some ']' && isSixth rest.dropLast
  | cs => isName cs

end AfterAction.Host
