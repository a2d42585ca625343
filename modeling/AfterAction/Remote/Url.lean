import AfterAction.Remote.Base64
import AfterAction.Remote.Host

/-!
Addresses of the remotes. Blanks around one, line breaks inside, backslashes for slashes, dots to be
resolved and characters to be escaped are all mended; a host that is none and a port out of range
are not.
-/

namespace AfterAction

structure Url where
  /-- Name and password in front of the host, their escapes resolved. -/
  login : Option (String × Option String)
  host : String
  /-- Segments of the path, escaped. -/
  segments : List (List Char)
  query : Option (List Char)
  deriving DecidableEq, Repr

namespace Url

/-- Without the slashes at the end, so that paths can be appended. -/
def trimSlashes (url : String) : String :=
  .ofList (url.toList.reverse.dropWhile (· == '/')).reverse

def schemes : List String := ["http://", "https://"]

def hasScheme (url : String) : Bool := schemes.any (url.startsWith ·)

/-! The parts of the text -/

def isBlank (c : Char) : Bool := c.toNat ≤ 0x20

def isLineBreak (c : Char) : Bool := c == '\t' || c == '\n' || c == '\r'

/-- Blanks and controls at both ends do not count, tabs and line breaks nowhere. -/
def tidied (url : String) : List Char :=
  (((url.toList.dropWhile isBlank).reverse.dropWhile isBlank).reverse).filter (!isLineBreak ·)

def isSlash (c : Char) : Bool := c == '/' || c == '\\'

/-- What follows the scheme and the slashes behind it, however many. -/
def afterScheme? (cs : List Char) : Option (List Char) :=
  let scheme := cs.takeWhile (· != ':')
  if cs.length = scheme.length then none
  else if ["http", "https"].contains (String.ofList (scheme.map Char.toLower)) then
    some ((cs.drop (scheme.length + 1)).dropWhile isSlash)
  else none

def endsAuthority (c : Char) : Bool := isSlash c || c == '?' || c == '#'

/-- The text before and after the last such character; all of it is after if there is none. -/
def splitLast (mark : Char) (cs : List Char) : Option (List Char) × List Char :=
  let after := (cs.reverse.takeWhile (· != mark)).reverse
  if after.length = cs.length then (none, cs)
  else (some (cs.take (cs.length - after.length - 1)), after)

/-- Name and password on both sides of the first colon. Without a name that is text there is no
login; a password that is empty or no text does not count. -/
def login? (cs : List Char) : Option (String × Option String) := do
  let name ← Escape.unescaped? (cs.takeWhile (· != ':'))
  let secret := (cs.dropWhile (· != ':')).drop 1
  let password := if secret.isEmpty then none else Escape.unescaped? secret
  if name.isEmpty && password.isNone then none else return (name, password)

/-- Host and port. Inside brackets a colon belongs to the host. -/
def splitPort : Bool → List Char → List Char × Option (List Char)
  | _, [] => ([], none)
  | inside, c :: rest =>
    if c == ':' && !inside then ([], some rest)
    else
      let (host, port) := splitPort (c == '[' || inside && c != ']') rest
      (c :: host, port)

/-- Digits up to 65535; a colon may also stand without any. -/
def isPort (cs : List Char) : Bool :=
  cs.all Char.isDigit && ((Text.valueOfDigits? cs).getD 0) < 0x10000

/-! The path -/

/-- A segment that stands for the place it is in; the dot may be escaped. -/
def isSingleDot (segment : List Char) : Bool :=
  [".", "%2e"].contains (String.ofList (segment.map Char.toLower))

/-- A segment that stands for the place above. -/
def isDoubleDot (segment : List Char) : Bool :=
  ["..", ".%2e", "%2e.", "%2e%2e"].contains (String.ofList (segment.map Char.toLower))

/-- A letter and a colon or bar are taken for a drive, above which there is nothing. -/
def isDrive : List Char → Bool
  | [letter, mark] => letter.isAlpha && (mark == ':' || mark == '|')
  | _ => false

/-- The segments above, newest first. -/
def parent : List (List Char) → List (List Char)
  | segment :: above => if isDrive segment then segment :: above else above
  | [] => []

/-- Segments with the dots resolved; a dot segment at the end leaves an empty one. -/
def resolved : List (List Char) → List (List Char) → List (List Char)
  | done, [] => done.reverse
  | done, segment :: rest =>
    let here := isSingleDot segment
    if here || isDoubleDot segment then
      let done := if here then done else parent done
      resolved (if rest.isEmpty then [] :: done else done) rest
    else resolved (segment :: done) rest

/-- Printable characters that a path does not hold as they are. -/
def escapedInPath : List Char := [' ', '"', '#', '<', '>', '?', '\x60', '\x7b', '\x7d']

def pathSegments (cs : List Char) : List (List Char) :=
  let slashed := cs.map fun c => if isSlash c then '/' else c
  let segments := (slashed.drop 1).splitOn '/'
  resolved [] (segments.map (Escape.escaped fun c =>
    Escape.isUnprintable c || escapedInPath.contains c))

/-- Printable characters that a query does not hold as they are. -/
def escapedInQuery : List Char := [' ', '"', '#', '<', '>', '\'']

/-- From a question mark up to a hash sign, or none. -/
def query? : List Char → Option (List Char)
  | '?' :: rest => some (Escape.escaped
      (fun c => Escape.isUnprintable c || escapedInQuery.contains c)
      (rest.takeWhile (· != '#')))
  | _ => none

/-! The whole -/

def parse? (url : String) : Option Url := do
  let cs ← afterScheme? (tidied url)
  let (user, place) := splitLast '@' (cs.takeWhile (!endsAuthority ·))
  let (host, port) := splitPort false place
  let behind := cs.dropWhile (!endsAuthority ·)
  let path := behind.takeWhile fun c => c != '?' && c != '#'
  if Host.isValid host && port.all isPort then
    return {
      login := user.bind login?
      host := .ofList host
      segments := pathSegments path
      query := query? (behind.drop path.length) }
  else none

/-- What a request line asks the host for: the path and the query. -/
def target (url : Url) : String :=
  .ofList ('/' :: List.intercalate ['/'] url.segments ++
    (match url.query with
    | some query => '?' :: query
    | none => []))

/-- The login as a header's value. -/
def authorization? (url : Url) : Option String :=
  url.login.map fun (name, password) =>
    "Basic " ++ Base64.encode (name ++ ":" ++ password.getD "")

end Url
end AfterAction
