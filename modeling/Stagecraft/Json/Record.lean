import Stagecraft.Json.Basic

/-!
# Reading records

A record is given either as an object, where members may come in any order and unknown ones are
ignored, or as a list of its fields in the order of their declaration, where the last fields may
be left out if they have a default. `Reader` reads one field after another from either form, and
`choice` reads a record whose first field, its tag, says which fields follow.
-/

namespace Stagecraft.Json

variable {K : Type} {α : Type}

inductive Fields (K : Type) where
  | named (members : List (String × Json K))
  | listed (items : List (Json K))

/-- A reader of fields; it fails on a record that does not have them. -/
abbrev Reader (K : Type) (α : Type) : Type := StateT (Fields K) Option α

namespace Reader

/-- The next field by position, or the one with a name. -/
def next? (name : String) : Reader K (Option (Json K)) := fun fields =>
  match fields with
  | .named members => some (lookup name members, .named members)
  | .listed [] => some (none, .listed [])
  | .listed (v :: rest) => some (some v, .listed rest)

def field (name : String) (read : Json K → Option α) : Reader K α := do
  match (← next? name) with
  | some v => (read v : Option α)
  | none => (none : Option α)

def fieldD (name : String) (default_ : α) (read : Json K → Option α) : Reader K α := do
  match (← next? name) with
  | some v => (read v : Option α)
  | none => pure default_

/-- A field that may be missing or `null`. -/
def field? (name : String) (read : Json K → Option α) : Reader K (Option α) := do
  match (← next? name) with
  | some .null => pure none
  | some v => (some <$> read v : Option (Option α))
  | none => pure none

/-- Runs a reader to its end: nothing may be left of a list. -/
def run (r : Reader K α) (fields : Fields K) : Option α :=
  match StateT.run r fields with
  | some (_, .listed (_ :: _)) => none
  | some (a, _) => some a
  | none => none

end Reader

def fields? : Json K → Option (Fields K)
  | .obj members => some (.named members)
  | .arr items => some (.listed items)
  | _ => none

def record (r : Reader K α) (j : Json K) : Option α := do
  r.run (← j.fields?)

/-- The position of a tag among the known ones. A tag inside another tagged record may also be
given by its position. -/
def tagIndex? (nested : Bool) (tags : List String) : Json K → Option Nat
  | .str s => tags.findIdx? (· = s)
  | .num (.int i) => if nested && 0 ≤ i && i < tags.length then some i.toNat else none
  | _ => none

/-- Reads a record by its tag, which is a member or stands first in a list. Each tag comes with
the reader of the fields that follow it. -/
def choice (nested : Bool) (tag : String) (cases : List (String × Reader K α)) (j : Json K) :
    Option α := do
  let (v, rest) ←
    match j with
    | .obj members => (lookup tag members).map fun v => (v, Fields.named members)
    | .arr (v :: items) => some (v, .listed items)
    | _ => none
  let i ← tagIndex? nested (cases.map (·.1)) v
  let (_, r) ← cases[i]?
  r.run rest

/-- The member of an object that has only one, a repeated name counting once. -/
def onlyMember? (members : List (String × Json K)) : Option (String × Json K) := do
  let (name, v) ← members.getLast?
  guard (members.all fun m => m.1 = name)
  return (name, v)

/-- Whether a value stands for nothing: `null`, or an empty object inside a tagged record. -/
def isEmpty (nested : Bool) : Json K → Bool
  | .null => true
  | .obj [] => nested
  | _ => false

/-- Reads one of a set of names. A name may also be the only member of an object, over an empty
value. -/
def oneOf (nested : Bool) (names : List (String × α)) : Json K → Option α
  | .str s => names.lookup s
  | .obj members => do
    let (name, v) ← onlyMember? members
    guard (v.isEmpty nested)
    names.lookup name
  | _ => none

def text? : Json K → Option String := asString?

def real? [Scalar K] : Json K → Option K
  | .num n => some n.value
  | _ => none

/-- A whole number that is not negative. -/
def count? : Json K → Option Nat
  | .num (.int i) => if 0 ≤ i then some i.toNat else none
  | _ => none

def bool? : Json K → Option Bool
  | .bool b => some b
  | _ => none

def list? (read : Json K → Option α) : Json K → Option (List α)
  | .arr items => items.mapM read
  | _ => none

end Stagecraft.Json
