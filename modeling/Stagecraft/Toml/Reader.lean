import Stagecraft.Toml.Scalar
import Stagecraft.Toml.Table

/-!
# Reading TOML

A document is a sequence of lines: headers, which name the table that follows, and keys with their
values. Values may hold others, so their readers take a bound on the number of steps; the length
of the text is one. How deep values lie inside each other is limited, and so is the length of keys.
-/

namespace Stagecraft.Toml

variable {K : Type}

open Json (hexDigit?)

def isSpace (c : Char) : Bool := c = ' ' || c = '\t'

def isControl (c : Char) : Bool := (c < ' ' && c ≠ '\t') || c = '\x7f'

def skipSpaces (cs : List Char) : List Char := cs.dropWhile isSpace

/-- Past a comment; it must not hold control characters. -/
def skipComment : List Char → Option (List Char)
  | '#' :: cs =>
    let (comment, rest) := cs.span (· ≠ '\n')
    let comment := if comment.getLast? = some '\r' && rest ≠ [] then comment.dropLast else comment
    if comment.any isControl then none else some rest
  | cs => some cs

def endLine : List Char → Option (List Char)
  | [] => some []
  | '\n' :: rest => some rest
  | '\r' :: '\n' :: rest => some rest
  | _ => none

/-- Past blanks, a comment and the end of a line. -/
def finishLine (cs : List Char) : Option (List Char) := do
  endLine (← skipComment (skipSpaces cs))

def skipLines : Nat → List Char → Option (List Char)
  | 0, _ => none
  | n + 1, cs =>
    match skipSpaces cs with
    | '\n' :: rest => skipLines n rest
    | '\r' :: '\n' :: rest => skipLines n rest
    | '#' :: rest => do skipLines n (← skipComment ('#' :: rest))
    | rest => some rest

def ofHex (cs : List Char) : Option Char := do
  let digits ← cs.mapM hexDigit?
  let n := digits.foldl (fun n d => 16 * n + d) 0
  if h : n.isValidChar then some (Char.ofNatAux n h) else none

def readEscape : List Char → Option (Char × List Char)
  | 'b' :: rest => some ('\x08', rest)
  | 't' :: rest => some ('\t', rest)
  | 'n' :: rest => some ('\n', rest)
  | 'f' :: rest => some ('\x0c', rest)
  | 'r' :: rest => some ('\r', rest)
  | 'e' :: rest => some ('\x1b', rest)
  | '"' :: rest => some ('"', rest)
  | '\\' :: rest => some ('\\', rest)
  | 'x' :: rest => do guard (2 ≤ rest.length); return (← ofHex (rest.take 2), rest.drop 2)
  | 'u' :: rest => do guard (4 ≤ rest.length); return (← ofHex (rest.take 4), rest.drop 4)
  | 'U' :: rest => do guard (8 ≤ rest.length); return (← ofHex (rest.take 8), rest.drop 8)
  | _ => none

/-- Up to the quote that ends a string on one line. -/
def readBasic : Nat → List Char → Option (List Char × List Char)
  | 0, _ => none
  | n + 1, cs =>
    match cs with
    | '"' :: rest => some ([], rest)
    | '\\' :: rest => do
      let (c, rest) ← readEscape rest
      let (text, rest) ← readBasic n rest
      return (c :: text, rest)
    | c :: rest => do
      guard (!isControl c)
      let (text, rest) ← readBasic n rest
      return (c :: text, rest)
    | [] => none

/-- Up to the quote that ends a string on one line that has no escapes. -/
def readLiteral (cs : List Char) : Option (List Char × List Char) :=
  let (text, rest) := cs.span (· ≠ '\'')
  match rest with
  | _ :: rest => if text.any isControl then none else some (text, rest)
  | [] => none

/-- The quotes that end a string of several lines: up to two more than three belong to it. -/
def readClosing (quote : Char) (cs : List Char) : Option (List Char × List Char) :=
  let (quotes, rest) := cs.span (· = quote)
  if 3 ≤ quotes.length ∧ quotes.length ≤ 5 then some (quotes.drop 3, rest) else none

def skipBlankLines : List Char → List Char
  | '\r' :: '\n' :: rest => skipBlankLines rest
  | c :: rest => if isSpace c || c = '\n' then skipBlankLines rest else c :: rest
  | [] => []

/-- Up to the quotes that end a string of several lines. A backslash at the end of a line takes
the line end and the blanks after it out of the string. -/
def readLong (quote : Char) : Nat → List Char → Option (List Char × List Char)
  | 0, _ => none
  | n + 1, cs =>
    match cs with
    | '\r' :: '\n' :: rest => do
      let (text, rest) ← readLong quote n rest
      return ('\r' :: '\n' :: text, rest)
    | c :: rest =>
      if c = quote then
        match readClosing quote cs with
        | some done => some done
        | none => do
          guard ((cs.takeWhile (· = quote)).length < 3)
          let (text, rest) ← readLong quote n rest
          return (c :: text, rest)
      else if c = '\\' ∧ quote = '"' then
        match endLine (skipSpaces rest) with
        | some (_ :: _) => readLong quote n (skipBlankLines rest)
        | _ => do
          let (c, rest) ← readEscape rest
          let (text, rest) ← readLong quote n rest
          return (c :: text, rest)
      else do
        guard (c = '\n' || !isControl c)
        let (text, rest) ← readLong quote n rest
        return (c :: text, rest)
    | [] => none

/-- A line end right after the opening quotes does not count. -/
def skipFirstLineEnd : List Char → List Char
  | '\n' :: rest => rest
  | '\r' :: '\n' :: rest => rest
  | rest => rest

def readQuoted (cs : List Char) : Option (String × List Char) := do
  let (text, rest) ←
    match cs with
    | '"' :: rest => readBasic cs.length rest
    | '\'' :: rest => readLiteral rest
    | _ => none
  return (String.ofList text, rest)

def readText (cs : List Char) : Option (String × List Char) := do
  let long (quote : Char) (rest : List Char) : Option (String × List Char) := do
    let (text, rest) ← readLong quote cs.length (skipFirstLineEnd rest)
    return (String.ofList text, rest)
  match cs with
  | '"' :: '"' :: '"' :: rest => long '"' rest
  | '\'' :: '\'' :: '\'' :: rest => long '\'' rest
  | _ => readQuoted cs

def isBareChar (c : Char) : Bool := c.isAlphanum || c = '-' || c = '_'

def readName (cs : List Char) : Option (String × List Char) :=
  match cs with
  | '"' :: _ => readQuoted cs
  | '\'' :: _ => readQuoted cs
  | _ =>
    let (name, rest) := cs.span isBareChar
    if name = [] then none else some (String.ofList name, rest)

def readParts : Nat → List Char → Option (List String × List Char)
  | 0, _ => none
  | n + 1, cs => do
    let (name, rest) ← readName (skipSpaces cs)
    match skipSpaces rest with
    | '.' :: rest => do
      let (key, rest) ← readParts n rest
      return (name :: key, rest)
    | rest => return ([name], rest)

/-- How many parts a key may have. -/
def keyLimit : Nat := 80

def readKey (cs : List Char) : Option (List String × List Char) :=
  readParts keyLimit cs

def nestingLimit : Nat := 80

/-- A key with the value behind its equals sign; `skip` goes past what may stand around that. -/
def readPairWith (skip : List Char → Option (List Char))
    (value : List Char → Option (Value K × List Char)) (cs : List Char) :
    Option ((List String × Value K) × List Char) := do
  let (key, rest) ← readKey cs
  match (← skip rest) with
  | '=' :: rest => do
    let (v, rest) ← value (← skip rest)
    return ((key, v), rest)
  | _ => none

mutual

/-- A value, and what follows it. It may open so many lists and tables inside each other. -/
def readValue [Scalar K] [Numeral K] : Nat → Nat → List Char → Option (Value K × List Char)
  | 0, _, _ => none
  | n + 1, room, cs =>
    match cs with
    | '[' :: rest => do
      guard (0 < room)
      let (items, rest) ← readItems n (room - 1) (← skipLines n rest)
      return (.list items, rest)
    | '\x7b' :: rest => do
      guard (0 < room)
      let (members, rest) ← readMembers n (room - 1) [] (← skipLines n rest)
      return (.table (membersToValues members), rest)
    | '"' :: _ => do
      let (s, rest) ← readText cs
      return (.text s, rest)
    | '\'' :: _ => do
      let (s, rest) ← readText cs
      return (.text s, rest)
    | _ => do
      let (word, rest) := splitWord cs
      return (← readWord word, rest)

/-- The items of a list up to its end; a comma may follow the last one. -/
def readItems [Scalar K] [Numeral K] :
    Nat → Nat → List Char → Option (List (Value K) × List Char)
  | 0, _, _ => none
  | n + 1, room, cs =>
    match cs with
    | ']' :: rest => some ([], rest)
    | _ => do
      let (v, rest) ← readValue n room cs
      match (← skipLines n rest) with
      | ',' :: rest => do
        let (items, rest) ← readItems n room (← skipLines n rest)
        return (v :: items, rest)
      | ']' :: rest => return ([v], rest)
      | _ => none

/-- The members of an inline table up to its end; a comma may follow the last one. -/
def readMembers [Scalar K] [Numeral K] :
    Nat → Nat → Members K → List Char → Option (Members K × List Char)
  | 0, _, _, _ => none
  | n + 1, room, done, cs =>
    match cs with
    | '\x7d' :: rest => some (done, rest)
    | _ => do
      let ((key, v), rest) ← readPairWith (skipLines n) (readValue n room) cs
      let done ← putDotted key v done
      match (← skipLines n rest) with
      | ',' :: rest => do readMembers n room done (← skipLines n rest)
      | '\x7d' :: rest => return (done, rest)
      | _ => none

end

structure Document (K : Type) where
  path : List String
  root : Members K

def readHeader (cs : List Char) : Option (List String × List Char) := do
  let (key, rest) ← readKey cs
  match rest with
  | ']' :: rest => return (key, rest)
  | _ => none

def readStatement [Scalar K] [Numeral K] (n : Nat) (d : Document K) (cs : List Char) :
    Option (Document K × List Char) := do
  match cs with
  | '[' :: '[' :: rest => do
    let (key, rest) ← readHeader rest
    match rest with
    | ']' :: rest => do
      let root ← throughHeaders (appendTable (← key.getLast?)) key.dropLast d.root
      return (⟨key, root⟩, rest)
    | _ => none
  | '[' :: rest => do
    let (key, rest) ← readHeader rest
    let root ← throughHeaders (defineTable (← key.getLast?)) key.dropLast d.root
    return (⟨key, root⟩, rest)
  | _ => do
    let ((key, v), rest) ← readPairWith (some ∘ skipSpaces) (readValue n nestingLimit) cs
    return (⟨d.path, ← throughHeaders (putDotted key v) d.path d.root⟩, rest)

def readStatements [Scalar K] [Numeral K] : Nat → Document K → List Char → Option (Document K)
  | 0, _, _ => none
  | n + 1, d, cs => do
    match (← skipLines (n + 1) cs) with
    | [] => return d
    | rest => do
      let (d, rest) ← readStatement n d rest
      readStatements n d (← finishLine rest)

def parse? [Scalar K] [Numeral K] (text : String) : Option (Value K) := do
  let cs := text.toList
  let cs := if cs.head? = some '\ufeff' then cs.drop 1 else cs
  let d ← readStatements (cs.length + 1) ⟨[], []⟩ cs
  return .table (membersToValues d.root)

end Stagecraft.Toml
