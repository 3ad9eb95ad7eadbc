import Stagecraft.Decimal
import Stagecraft.Json.Basic

/-!
# JSON tokens

The text of a JSON value is cut into tokens one character at a time. Punctuation and quoted
strings are tokens at once, and what stands between is collected into runs, which must be a
literal name or a number of the strict grammar.
-/

namespace Stagecraft.Json

variable {K : Type}

/-- The smallest meaningful pieces of a text. An atom is a value that holds no other. -/
inductive Token (K : Type) where
  | openList
  | closeList
  | openRecord
  | closeRecord
  | colon
  | comma
  | atom (v : Json K)

def isBlank (c : Char) : Bool :=
  c = ' ' || c = '\n' || c = '\t' || c = '\r'

def digitsValue (cs : List Char) : Nat :=
  cs.foldl (fun n c => 10 * n + (c.toNat - 48)) 0

/-- A point and at least one digit, or nothing. -/
def fractionPart : List Char → Option (Option (List Char) × List Char)
  | '.' :: cs =>
    let (digits, rest) := cs.span Char.isDigit
    if digits = [] then none else some (some digits, rest)
  | cs => some (none, cs)

/-- An exponent mark, an optional sign and at least one digit, or nothing. -/
def exponentPart : List Char → Option (Option Int × List Char)
  | c :: cs =>
    if c = 'e' ∨ c = 'E' then
      let negative := cs.head? = some '-'
      let signed := negative ∨ cs.head? = some '+'
      let (digits, rest) := (if signed then cs.drop 1 else cs).span Char.isDigit
      if digits = [] then none
      else some (some (if negative then -(digitsValue digits : Int) else digitsValue digits), rest)
    else some (none, c :: cs)
  | [] => some (none, [])

/-- A whole number that fits sixty-four bits with its sign, but for negative zero. -/
def wholeNumber? (negative : Bool) (n : Nat) : Option Int :=
  if negative then (if 0 < n ∧ n ≤ UInt64.size / 2 then some (-(n : Int)) else none)
  else if n < UInt64.size then some n else none

/-- Adds digits to a number while it fits sixty-four bits; and the digits that are left. -/
def takeDigits (n : Nat) : List Char → Nat × List Char
  | [] => (n, [])
  | c :: cs =>
    let m := 10 * n + (c.toNat - 48)
    if m < UInt64.size then takeDigits m cs else (n, c :: cs)

/-- The decimal that digits before and behind a point stand for, to a precision of sixty-four bits.
As many digits before the point count as fit, and then as many behind it; the others before it
count only for the places they take. -/
def pointed (negative : Bool) (whole fraction : List Char) (power : Int) : Decimal :=
  let (n, dropped) := takeDigits 0 whole
  let (m, unread) := takeDigits n fraction
  ⟨negative, m, power + dropped.length - (fraction.length - unread.length : Nat)⟩

/-- A number: no leading zeros, digits on both sides of a point, and within range. -/
def readNumber [Numeral K] (cs : List Char) : Option (Number K) := do
  let negative := cs.head? == some '-'
  let (whole, rest) := (if negative then cs.drop 1 else cs).span Char.isDigit
  guard (whole ≠ [] ∧ (whole.head? = some '0' → whole.length = 1))
  let (fraction, rest) ← fractionPart rest
  let (power, rest) ← exponentPart rest
  guard (rest = [])
  let real (d : Decimal) := (Numeral.scaled? d).map Number.real
  match fraction, power with
  | none, none =>
    let n := digitsValue whole
    match wholeNumber? negative n with
    | some i => some (.int i)
    | none => real (pointed negative whole [] 0)
  | _, _ => real (pointed negative whole (fraction.getD []) (power.getD 0))

def readRun [Numeral K] (cs : List Char) : Option (Json K) :=
  if cs = "null".toList then some .null
  else if cs = "true".toList then some (.bool true)
  else if cs = "false".toList then some (.bool false)
  else (readNumber cs).map .num

def hexDigit? (c : Char) : Option Nat :=
  if '0' ≤ c ∧ c ≤ '9' then some (c.toNat - 48)
  else if 'a' ≤ c ∧ c ≤ 'f' then some (c.toNat - 87)
  else if 'A' ≤ c ∧ c ≤ 'F' then some (c.toNat - 55)
  else none

def unescape? : Char → Option Char
  | '"' => some '"'
  | '\\' => some '\\'
  | '/' => some '/'
  | 'b' => some '\x08'
  | 'f' => some '\x0c'
  | 'n' => some '\n'
  | 'r' => some '\r'
  | 't' => some '\t'
  | _ => none

/-- A character of a quoted string, or a sixteen-bit unit given by its number. -/
inductive Piece where
  | char (c : Char)
  | unit (u : Nat)

/-- The pieces of a quoted string; a control character must be escaped. -/
def pieces? : List Char → Option (List Piece)
  | [] => some []
  | '\\' :: 'u' :: a :: b :: c :: d :: rest => do
    let u := 4096 * (← hexDigit? a) + 256 * (← hexDigit? b) + 16 * (← hexDigit? c) + (← hexDigit? d)
    return .unit u :: (← pieces? rest)
  | '\\' :: c :: rest => do
    return .char (← unescape? c) :: (← pieces? rest)
  | c :: rest => do
    guard (c ≠ '\\' ∧ ' ' ≤ c)
    return .char c :: (← pieces? rest)

def isHighUnit (u : Nat) : Bool := 0xD800 ≤ u && u < 0xDC00

def isLowUnit (u : Nat) : Bool := 0xDC00 ≤ u && u < 0xE000

/-- The characters of a string: units pair up where they must, and none is left alone. -/
def assemble? : List Piece → Option (List Char)
  | [] => some []
  | .char c :: rest => (c :: ·) <$> assemble? rest
  | .unit u :: .unit v :: rest =>
    if isHighUnit u then
      if isLowUnit v then
        (Char.ofNat (0x10000 + (u - 0xD800) * 0x400 + (v - 0xDC00)) :: ·) <$> assemble? rest
      else none
    else if isLowUnit u then none
    else (Char.ofNat u :: ·) <$> assemble? (.unit v :: rest)
  | .unit u :: rest =>
    if isHighUnit u || isLowUnit u then none else (Char.ofNat u :: ·) <$> assemble? rest

def readText (cs : List Char) : Option String := do
  return String.ofList (← assemble? (← pieces? cs))

/-- What the characters so far leave open. Characters are kept latest first. -/
inductive Lexeme where
  | none
  | quoted (cs : List Char) (escaped : Bool)
  | run (cs : List Char)

/-- The tokens so far, latest first, and the unfinished one. -/
structure Lexer (K : Type) where
  tokens : List (Token K)
  current : Lexeme

namespace Lexer

def start : Lexer K := ⟨[], .none⟩

def flush [Numeral K] (l : Lexer K) : Option (Lexer K) :=
  match l.current with
  | .run cs => (readRun cs.reverse).map fun v => ⟨.atom v :: l.tokens, .none⟩
  | _ => some l

def punctuation? : Char → Option (Token K)
  | '[' => some .openList
  | ']' => some .closeList
  | '{' => some .openRecord
  | '}' => some .closeRecord
  | ':' => some .colon
  | ',' => some .comma
  | _ => none

def outside [Numeral K] (l : Lexer K) (c : Char) : Option (Lexer K) :=
  if isBlank c then l.flush
  else if c = '"' then l.flush.map fun l => ⟨l.tokens, .quoted [] false⟩
  else
    match punctuation? c, l.current with
    | some t, _ => l.flush.map fun l => ⟨t :: l.tokens, .none⟩
    | none, .run cs => some ⟨l.tokens, .run (c :: cs)⟩
    | none, _ => some ⟨l.tokens, .run [c]⟩

def push [Numeral K] (l : Lexer K) (c : Char) : Option (Lexer K) :=
  match l.current with
  | .quoted cs true => some ⟨l.tokens, .quoted (c :: cs) false⟩
  | .quoted cs false =>
    if c = '"' then (readText cs.reverse).map fun s => ⟨.atom (.str s) :: l.tokens, .none⟩
    else some ⟨l.tokens, .quoted (c :: cs) (c = '\\')⟩
  | _ => l.outside c

end Lexer

/-- The tokens of a text; none when some piece of it is no token. -/
def tokens? [Numeral K] (cs : List Char) : Option (List (Token K)) := do
  let l ← cs.foldlM Lexer.push Lexer.start
  match (← l.flush) with
  | ⟨ts, .none⟩ => some ts.reverse
  | _ => none

end Stagecraft.Json
