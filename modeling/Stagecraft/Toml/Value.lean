import Stagecraft.Scalar

/-!
# TOML values

A whole number may be written with any number of digits, and a number with a point may lie beyond
the range of machine numbers. Such a number is unsound: a document may hold it only where nobody
looks. A record is given as a table, whose members are all looked at, or as a list of its fields,
where nobody looks at what follows the last one.
-/

namespace Stagecraft.Toml

variable {K : Type}

inductive Value (K : Type) where
  | bool (b : Bool)
  | int (i : Int)
  /-- A number with a point or an exponent; none when it is out of range. -/
  | real (x : Option K)
  | text (s : String)
  | moment (s : String)
  | list (items : List (Value K))
  | table (members : List (String × Value K))

namespace Value

mutual

/-- Every number is sound: whole numbers fit a hundred and twenty-eight bits, be it with a sign or
without, and the others are within range. -/
def isSound : Value K → Bool
  | .int i => -(1 <<< 127 : Nat) ≤ i && i < (1 <<< 128 : Nat)
  | .real x => x.isSome
  | .list items => itemsSound items
  | .table members => membersSound members
  | _ => true

def itemsSound : List (Value K) → Bool
  | [] => true
  | v :: rest => v.isSound && itemsSound rest

def membersSound : List (String × Value K) → Bool
  | [] => true
  | (_, v) :: rest => v.isSound && membersSound rest

end

/-- A number. A whole one must fit sixty-four bits, be it with a sign or without. -/
def real? [Scalar K] : Value K → Option K
  | .int i =>
    if -(UInt64.size / 2 : Nat) ≤ i ∧ i < UInt64.size then
      some (if i < 0 then -(i.natAbs : K) else (i.natAbs : K))
    else none
  | .real x => x
  | _ => none

/-- A whole number of sixty-four bits that is not negative. -/
def count? : Value K → Option Nat
  | .int i => if 0 ≤ i ∧ i < UInt64.size then some i.toNat else none
  | _ => none

def text? : Value K → Option String
  | .text s => some s
  | _ => none

/-- One of a set of names. A name may also be the only member of a table, over an empty table or
list. -/
def oneOf {α : Type} (names : List (String × α)) : Value K → Option α
  | .text s => names.lookup s
  | .table [(name, .table [])] => names.lookup name
  | .table [(name, .list [])] => names.lookup name
  | _ => none

def fields? (names : List String) : Value K → Option (List (Option (Value K)))
  | .table members =>
    if members.all fun m => names.contains m.1 || m.2.isSound then
      some (names.map fun name => members.lookup name)
    else none
  | .list items => some (names.zipIdx.map fun (_, i) => items[i]?)
  | _ => none

end Value

end Stagecraft.Toml
