import Stagecraft.Scalar

/-!
# JSON values

Movies, tracks and reports are stored as JSON. A number is kept as a whole number when it was
written as one and fits sixty-four bits, because frames and counts accept no other. Members of an
object stay in the order they were written; where a name occurs twice the last one counts.
-/

namespace Stagecraft

variable {K : Type}

inductive Number (K : Type) where
  | int (i : Int)
  | real (x : K)

inductive Json (K : Type) where
  | null
  | bool (b : Bool)
  | num (n : Number K)
  | str (s : String)
  | arr (items : List (Json K))
  | obj (members : List (String × Json K))

def Number.value [Scalar K] : Number K → K
  | .int i => if i < 0 then -(i.natAbs : K) else (i.natAbs : K)
  | .real x => x

namespace Json

def ofNat (n : Nat) : Json K := .num (.int n)

def ofReal (x : K) : Json K := .num (.real x)

/-- The last value with a name. -/
def lookup (name : String) (members : List (String × Json K)) : Option (Json K) :=
  members.foldl (fun found m => if m.1 = name then some m.2 else found) none

def get? (j : Json K) (name : String) : Option (Json K) :=
  match j with
  | .obj members => lookup name members
  | _ => none

def asString? : Json K → Option String
  | .str s => some s
  | _ => none

def asList? : Json K → Option (List (Json K))
  | .arr items => some items
  | _ => none

mutual

/-- How many containers lie inside each other. -/
def depth : Json K → Nat
  | .arr items => listDepth items + 1
  | .obj members => memberDepth members + 1
  | _ => 0

def listDepth : List (Json K) → Nat
  | [] => 0
  | v :: rest => max (depth v) (listDepth rest)

def memberDepth : List (String × Json K) → Nat
  | [] => 0
  | (_, v) :: rest => max (depth v) (memberDepth rest)

end

/-- Puts a member at its place in a list ordered by name, over an earlier one of the same name. -/
def insertMember (name : String) (v : Json K) :
    List (String × Json K) → List (String × Json K)
  | [] => [(name, v)]
  | (other, w) :: rest =>
    if name < other then (name, v) :: (other, w) :: rest
    else if name = other then (name, v) :: rest
    else (other, w) :: insertMember name v rest

mutual

/-- The same value with the members of every object ordered by name and free of repetitions. -/
def canonical : Json K → Json K
  | .arr items => .arr (canonicalItems items)
  | .obj members => .obj (canonicalMembers members [])
  | v => v

def canonicalItems : List (Json K) → List (Json K)
  | [] => []
  | v :: rest => canonical v :: canonicalItems rest

def canonicalMembers :
    List (String × Json K) → List (String × Json K) → List (String × Json K)
  | [], done => done
  | (name, v) :: rest, done => canonicalMembers rest (insertMember name (canonical v) done)

end

end Json

end Stagecraft
