import AfterAction.Text.Alphanumeric
import AfterAction.Text.Blank

/-!
Free text that may leave the process. Characters outside the allow-list are dropped, blanks at the
ends are trimmed, and what is left is cut to the limit, in this order.
-/

namespace AfterAction.Text

/-- Alphanumerics of every script, the plain space and three marks. -/
def isPlain (c : Char) : Bool :=
  isAlphanumeric c || c == ' ' || c == '-' || c == '_' || c == '.'

def cleanChars (limit : Nat) (cs : List Char) : List Char :=
  (trimChars (cs.filter isPlain)).take limit

def clean (limit : Nat) (s : String) : String := .ofList (cleanChars limit s.toList)

/-- The cleaned text, or the stand-in when nothing is left of it. -/
def cleanOr (standIn : String) (limit : Nat) (s : String) : String :=
  let cleaned := clean limit s
  if cleaned = "" then standIn else cleaned

end AfterAction.Text
