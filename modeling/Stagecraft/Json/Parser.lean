import Stagecraft.Json.Token

/-!
# Reading JSON

The tokens of a text are folded into a value. The containers still open stand on a stack with
what they hold so far, so the height of the stack is the nesting of the text, which is limited.
-/

namespace Stagecraft.Json

variable {K : Type}

/-- An open container. Contents are kept latest first; an object also holds the name that awaits
its value. -/
inductive Container (K : Type) where
  | list (items : List (Json K))
  | record (members : List (String × Json K)) (name : String)

/-- What may come next in the innermost container. -/
inductive Expect where
  | value
  | valueOrEnd
  | commaOrEnd
  | name
  | nameOrEnd
  | colon

/-- How far a text is read. -/
inductive Progress (K : Type) where
  | inside (stack : List (Container K)) (expect : Expect)
  | done (v : Json K)

namespace Progress

def start : Progress K := .inside [] .value

def put (v : Json K) : List (Container K) → Progress K
  | [] => .done v
  | .list items :: rest => .inside (.list (v :: items) :: rest) .commaOrEnd
  | .record members name :: rest => .inside (.record ((name, v) :: members) name :: rest) .commaOrEnd

def enter (limit : Nat) (c : Container K) (expect : Expect) (stack : List (Container K)) :
    Option (Progress K) :=
  if stack.length < limit then some (.inside (c :: stack) expect) else none

def closeList : List (Container K) → Option (Progress K)
  | .list items :: rest => some (put (.arr items.reverse) rest)
  | _ => none

def closeRecord : List (Container K) → Option (Progress K)
  | .record members _ :: rest => some (put (.obj members.reverse) rest)
  | _ => none

def separate : List (Container K) → Option (Progress K)
  | .list items :: rest => some (.inside (.list items :: rest) .value)
  | .record members name :: rest => some (.inside (.record members name :: rest) .name)
  | [] => none

def rename (name : String) : List (Container K) → Option (Progress K)
  | .record members _ :: rest => some (.inside (.record members name :: rest) .colon)
  | _ => none

def step (limit : Nat) : Progress K → Token K → Option (Progress K)
  | .inside stack .value, .atom v => some (put v stack)
  | .inside stack .valueOrEnd, .atom v => some (put v stack)
  | .inside stack .value, .openList => enter limit (.list []) .valueOrEnd stack
  | .inside stack .valueOrEnd, .openList => enter limit (.list []) .valueOrEnd stack
  | .inside stack .value, .openRecord => enter limit (.record [] "") .nameOrEnd stack
  | .inside stack .valueOrEnd, .openRecord => enter limit (.record [] "") .nameOrEnd stack
  | .inside stack .valueOrEnd, .closeList => closeList stack
  | .inside stack .commaOrEnd, .closeList => closeList stack
  | .inside stack .commaOrEnd, .comma => separate stack
  | .inside stack .commaOrEnd, .closeRecord => closeRecord stack
  | .inside stack .nameOrEnd, .closeRecord => closeRecord stack
  | .inside stack .nameOrEnd, .atom (.str name) => rename name stack
  | .inside stack .name, .atom (.str name) => rename name stack
  | .inside stack .colon, .colon => some (.inside stack .value)
  | _, _ => none

end Progress

def ofTokens? (limit : Nat) (ts : List (Token K)) : Option (Json K) :=
  match ts.foldlM (Progress.step limit) Progress.start with
  | some (.done v) => some v
  | _ => none

def nestingLimit : Nat := 127

def parse? [Numeral K] (text : String) : Option (Json K) := do
  ofTokens? nestingLimit (← tokens? text.toList)

end Stagecraft.Json
