import Stagecraft.Toml.Value

/-!
# TOML tables

A document is built up from statements that each put something at a path. Who made a table decides
what may still be added to it: a header may define a table only once, a dotted key may go through
tables made by dotted keys or implied by longer headers, and an inline value is closed.
-/

namespace Stagecraft.Toml

variable {K : Type}

inductive Origin where
  | header
  | implied
  | dotted
  deriving DecidableEq, Repr

/-- What a name stands for: a closed value, a table, or an array of tables with the last one still
open. -/
inductive Node (K : Type) where
  | value (v : Value K)
  | table (origin : Origin) (members : List (String × Node K))
  | tables (done : List (Value K)) (last : List (String × Node K))

abbrev Members (K : Type) : Type := List (String × Node K)

mutual

def Node.toValue : Node K → Value K
  | .value v => v
  | .table _ members => .table (membersToValues members)
  | .tables done last => .list (done ++ [.table (membersToValues last)])

def membersToValues : List (String × Node K) → List (String × Value K)
  | [] => []
  | (name, n) :: rest => (name, n.toValue) :: membersToValues rest

end

def setMember (name : String) (n : Node K) (ms : Members K) : Members K :=
  ms.map fun m => if m.1 = name then (name, n) else m

/-- Changes the table at a path of a header; tables on the way that do not exist are implied. -/
def throughHeaders (f : Members K → Option (Members K)) :
    List String → Members K → Option (Members K)
  | [], ms => f ms
  | name :: rest, ms =>
    match ms.lookup name with
    | none => do return ms ++ [(name, .table .implied (← throughHeaders f rest []))]
    | some (.table origin inner) => do
      return setMember name (.table origin (← throughHeaders f rest inner)) ms
    | some (.tables done last) => do
      return setMember name (.tables done (← throughHeaders f rest last)) ms
    | some (.value _) => none

/-- Changes the table at a dotted path; tables on the way that do not exist are made. The way may
lead through tables implied by headers and through arrays of tables, but the last table must be one
that dotted keys have made. -/
def throughDots (f : Members K → Option (Members K)) :
    List String → Members K → Option (Members K)
  | [], ms => f ms
  | name :: rest, ms =>
    match ms.lookup name with
    | none => do return ms ++ [(name, .table .dotted (← throughDots f rest []))]
    | some (.table origin inner) => do
      guard (origin = .dotted ∨ (origin = .implied ∧ rest ≠ []))
      return setMember name (.table origin (← throughDots f rest inner)) ms
    | some (.tables done last) => do
      guard (rest ≠ [])
      return setMember name (.tables done (← throughDots f rest last)) ms
    | some (.value _) => none

def defineTable (name : String) (ms : Members K) : Option (Members K) :=
  match ms.lookup name with
  | none => some (ms ++ [(name, .table .header [])])
  | some (.table .implied inner) => some (setMember name (.table .header inner) ms)
  | some _ => none

def appendTable (name : String) (ms : Members K) : Option (Members K) :=
  match ms.lookup name with
  | none => some (ms ++ [(name, .tables [] [])])
  | some (.tables done last) =>
    some (setMember name (.tables (done ++ [.table (membersToValues last)]) []) ms)
  | some _ => none

def putValue (name : String) (v : Value K) (ms : Members K) : Option (Members K) :=
  match ms.lookup name with
  | none => some (ms ++ [(name, .value v)])
  | some _ => none

def putDotted (key : List String) (v : Value K) (ms : Members K) : Option (Members K) := do
  let name ← key.getLast?
  throughDots (putValue name v) key.dropLast ms

end Stagecraft.Toml
