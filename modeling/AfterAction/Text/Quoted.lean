import AfterAction.Text.Display

/-!
The quoted form of a text in messages and logs: one line of visible characters, whatever the
text holds. Apostrophes stay as they are, quotation marks and backslashes get a backslash, and
a character that does not show is written by its code point.
-/

namespace AfterAction.Text

/-- Lower-case hexadecimal digits, without leading zeros. -/
def hexDigits (n : Nat) : List Char := Nat.toDigits 16 n

def quoteChar (c : Char) : List Char :=
  match c with
  | '"' => ['\\', '"']
  | '\\' => ['\\', '\\']
  | '\n' => ['\\', 'n']
  | '\r' => ['\\', 'r']
  | '\t' => ['\\', 't']
  | '\x00' => ['\\', '0']
  | _ => if isVisible c then [c] else ['\\', 'u', '\x7b'] ++ hexDigits c.toNat ++ ['\x7d']

def quote (s : String) : String :=
  .ofList (['"'] ++ s.toList.flatMap quoteChar ++ ['"'])

end AfterAction.Text
