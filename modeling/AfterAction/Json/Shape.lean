import AfterAction.Json.Scan

/-!
Readers of expected shapes. A record is an object whose unknown members are passed over, or an
array of its fields in order; a tagged record is held back until its tag is known. Readers walk a
value in the order of its text, so of two faults the one that stands first is reported.
-/

namespace AfterAction.Json

/-- Why a text was refused: it is no text of the format, or not one of the expected shape. -/
inductive Fault
  | malformed
  | unfit
  deriving DecidableEq, Repr

abbrev Decoder (α : Type) := Json → Except Fault α

/-- The fault of a value that is not of the expected kind. -/
def mismatch : Json → Fault
  | .flaw _ => .malformed
  | _ => .unfit

/-- Reads a text whole. Anything behind the value counts only once the value is accepted. -/
def decode {α : Type} (decoder : Decoder α) (text : String) : Except Fault α := do
  let document := scan text
  let a ← decoder document.value
  if document.junk then .error .malformed else return a

/-- Any value without flaws that is not nested too deeply. -/
def anyValue : Decoder Json := fun v =>
  if v.flawless && v.nesting ≤ nestingLimit then .ok v else .error .malformed

/-- A value held back inside a tagged record, one container down. -/
def held (v : Json) : Except Fault Unit :=
  if v.flawless && v.nesting < nestingLimit then .ok () else .error .malformed

def text : Decoder String
  | .string s => .ok s
  | v => .error (mismatch v)

def flag : Decoder Bool
  | .bool b => .ok b
  | v => .error (mismatch v)

/-- A whole number written without point, exponent or sign, below 2^64. -/
def count : Decoder UInt64
  | .number (.int n) => if 0 ≤ n then .ok (UInt64.ofNat n.toNat) else .error .unfit
  | v => .error (mismatch v)

/-- A whole number of 32 bits with sign. -/
def small : Decoder Int
  | .number (.int n) => if -0x80000000 ≤ n && n < 0x80000000 then .ok n else .error .unfit
  | v => .error (mismatch v)

def optional {α : Type} (decoder : Decoder α) : Decoder (Option α)
  | .null => .ok none
  | v => return some (← decoder v)

def list {α : Type} (decoder : Decoder α) : Decoder (List α)
  | .array items => items.mapM decoder
  | v => .error (mismatch v)

/-- One of a fixed set of names, as a string or as the key of an empty payload. -/
def choice {α : Type} (names : List (String × α)) : Decoder α
  | .string s => match names.lookup s with
    | some a => .ok a
    | none => .error .unfit
  | .object ((key, payload) :: rest) => match names.lookup key, payload with
    | none, _ => .error (mismatch payload)
    | some a, .null => if rest.isEmpty then .ok a else .error .malformed
    | some _, payload => .error (mismatch payload)
  | _ => .error .malformed

/-- A name inside a tagged record, where an empty object is an empty payload too. -/
def heldChoice {α : Type} (names : List (String × α)) : Decoder α
  | .string s => match names.lookup s with
    | some a => .ok a
    | none => .error .unfit
  | .object [(key, .null)] | .object [(key, .object [])] => match names.lookup key with
    | some a => .ok a
    | none => .error .unfit
  | _ => .error .unfit

/-- A field of a record. `absent` stands in for it in an object that lacks it, `beyond` in an
array that ends before it. -/
structure Field (α : Type) where
  name : String
  decoder : Decoder α
  absent : Option α
  beyond : Option α

namespace Field

def required {α : Type} (name : String) (decoder : Decoder α) : Field α :=
  ⟨name, decoder, none, none⟩

/-- May be missing or null in an object; an array has to say null. -/
def nullable {α : Type} (name : String) (decoder : Decoder α) : Field (Option α) :=
  ⟨name, optional decoder, some none, none⟩

/-- May be missing in either form. -/
def defaulted {α : Type} (name : String) (decoder : Decoder α) (value : α) : Field α :=
  ⟨name, decoder, some value, some value⟩

def read {α : Type} (f : Field α) (member : Option Json) : Except Fault α :=
  match member, f.absent with
  | some v, _ => f.decoder v
  | none, some a => .ok a
  | none, none => .error .unfit

def take {α : Type} (f : Field α) (items : List Json) : Except Fault (α × List Json) :=
  match items, f.beyond with
  | v :: rest, _ => return (← f.decoder v, rest)
  | [], some a => .ok (a, [])
  | [], none => .error .unfit

end Field

/-- The fields of a record in order, and what is built from them. -/
structure Record (α : Type) where
  /-- The reader of a known member, without its value. -/
  check : String → Option (Json → Except Fault Unit)
  build : (String → Option Json) → Except Fault α
  take : List Json → Except Fault (α × List Json)

namespace Record

/-- No fields yet. -/
def of {α : Type} (a : α) : Record α :=
  ⟨fun _ => none, fun _ => .ok a, fun items => .ok (a, items)⟩

/-- One field more. -/
def field {α β : Type} (r : Record (α → β)) (f : Field α) : Record β where
  check name := if name = f.name then some fun v => discard (f.decoder v) else r.check name
  build lookup := do
    let g ← r.build lookup
    return g (← f.read (lookup f.name))
  take items := do
    let (g, items) ← r.take items
    let (a, items) ← f.take items
    return (g a, items)

/-- Each known member once and fit, every other member whole. -/
def checkMembers {α : Type} (r : Record α) :
    List String → List (String × Json) → Except Fault Unit
  | _, [] => .ok ()
  | seen, (name, v) :: rest =>
    match v, r.check name with
    | .flaw .key, _ => .error .malformed
    | v, none => if v.whole then checkMembers r seen rest else .error .malformed
    | v, some check =>
      if name ∈ seen then .error .unfit
      else do
        check v
        checkMembers r (name :: seen) rest

def ofMembers {α : Type} (r : Record α) (members : List (String × Json)) : Except Fault α := do
  r.checkMembers [] members
  r.build fun name => members.lookup name

/-- Items beyond the last field are the fault given. -/
def ofItems {α : Type} (r : Record α) (surplus : Fault) (items : List Json) : Except Fault α := do
  let (a, rest) ← r.take items
  if rest.isEmpty then return a else .error surplus

def decoder {α : Type} (r : Record α) : Decoder α
  | .object members => r.ofMembers members
  | .array items => r.ofItems .malformed items
  | v => .error (mismatch v)

/-- The record inside a tagged record. -/
def heldDecoder {α : Type} (r : Record α) : Decoder α
  | .object members => r.ofMembers members
  | .array items => r.ofItems .unfit items
  | v => .error (mismatch v)

end Record

/-- The variant that a tag names. -/
def variant {α : Type} (variants : List (String × Decoder α)) : Decoder (Decoder α)
  | .string s => match variants.lookup s with
    | some decoder => .ok decoder
    | none => .error .unfit
  | v => .error (mismatch v)

/-- The tag among the members, once; the others are held back. -/
def splitTag {α : Type} (key : String) (variants : List (String × Decoder α)) :
    Option (Decoder α) → List (String × Json) →
      Except Fault (Option (Decoder α) × List (String × Json))
  | tag, [] => .ok (tag, [])
  | _, (_, .flaw .key) :: _ => .error .malformed
  | tag, (name, v) :: rest =>
    if name = key then
      match tag with
      | some _ => .error .unfit
      | none => do splitTag key variants (some (← variant variants v)) rest
    else do
      held v
      let (tag, others) ← splitTag key variants tag rest
      return (tag, (name, v) :: others)

/-- A record whose tag, anywhere among the members or first in an array, names the variant. -/
def tagged {α : Type} (key : String) (variants : List (String × Decoder α)) : Decoder α
  | .object members => do
    match ← splitTag key variants none members with
    | (some decoder, others) => decoder (.object others)
    | (none, _) => .error .unfit
  | .array [] => .error .unfit
  | .array (tag :: rest) => do
    let decoder ← variant variants tag
    rest.forM held
    decoder (.array rest)
  | v => .error (mismatch v)

end AfterAction.Json
