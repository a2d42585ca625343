import AfterAction.Text.Digits

/-!
Percent escapes, by which a URL holds the bytes of characters it cannot hold as they are: a percent
sign and two hexadecimal digits for each byte.
-/

namespace AfterAction.Escape

def byte (b : UInt8) : List Char :=
  ['%', (Nat.digitChar (b.toNat / 16)).toUpper, (Nat.digitChar (b.toNat % 16)).toUpper]

def bytesOf (c : Char) : List UInt8 := (String.singleton c).toUTF8.toList

/-- Every character of the kind is escaped. Escapes that a text already has stay as they are. -/
def escaped (kind : Char → Bool) (cs : List Char) : List Char :=
  cs.flatMap fun c => if kind c then (bytesOf c).flatMap byte else [c]

/-- The bytes a text stands for. A percent sign without two digits stands for itself. -/
def unescapedBytes : List Char → List UInt8
  | '%' :: a :: b :: rest =>
    match Text.hexDigit? a, Text.hexDigit? b with
    | some high, some low => UInt8.ofNat (16 * high + low) :: unescapedBytes rest
    | _, _ => bytesOf '%' ++ unescapedBytes (a :: b :: rest)
  | c :: rest => bytesOf c ++ unescapedBytes rest
  | [] => []

/-- The text behind the escapes, when its bytes are UTF-8. -/
def unescaped? (cs : List Char) : Option String :=
  String.fromUTF8? ⟨(unescapedBytes cs).toArray⟩

/-- Controls and everything outside ASCII. -/
def isUnprintable (c : Char) : Bool := c.toNat < 0x20 || 0x7F ≤ c.toNat

end AfterAction.Escape
