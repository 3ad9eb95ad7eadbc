import Stagecraft.Json.Token
import Stagecraft.Toml.Value

/-!
# TOML values in a word

Booleans, numbers, dates and times are written without quotes. Digits may be grouped by single
underscores.
-/

namespace Stagecraft.Toml

variable {K : Type}

open Json (digitsValue hexDigit?)

/-- Digits of a base, with single underscores between them taken out. -/
def ungroup (isDigit : Char → Bool) : List Char → Option (List Char)
  | [] => none
  | [c] => if isDigit c then some [c] else none
  | c :: '_' :: rest => if isDigit c then (c :: ·) <$> ungroup isDigit rest else none
  | c :: rest => if isDigit c then (c :: ·) <$> ungroup isDigit rest else none

/-- The sign in front, and what follows it. -/
def splitSign : List Char → Option Bool × List Char
  | '+' :: cs => (some false, cs)
  | '-' :: cs => (some true, cs)
  | cs => (none, cs)

def ofBase (base : Nat) (cs : List Char) : Option Nat := do
  let isDigit (c : Char) : Bool := (hexDigit? c).any (· < base)
  let digits ← ungroup isDigit cs
  return digits.foldl (fun n c => base * n + (hexDigit? c).getD 0) 0

/-- Decimal digits without a leading zero. -/
def plainDigits (cs : List Char) : Option (List Char) := do
  let digits ← ungroup Char.isDigit cs
  guard (digits.head? = some '0' → digits.length = 1)
  return digits

def readInt : List Char → Option Int
  | '0' :: 'x' :: rest => Int.ofNat <$> ofBase 16 rest
  | '0' :: 'o' :: rest => Int.ofNat <$> ofBase 8 rest
  | '0' :: 'b' :: rest => Int.ofNat <$> ofBase 2 rest
  | cs =>
    let (sign, rest) := splitSign cs
    let n := (plainDigits rest).map digitsValue
    if sign = some true then n.map fun n => -(n : Int) else n.map Int.ofNat

/-- The characters before and after the first with a property, if there is one. -/
def cut (p : Char → Bool) (cs : List Char) : List Char × Option (List Char) :=
  let (front, rest) := cs.span fun c => !p c
  (front, match rest with | [] => none | _ :: back => some back)

/-- A number with a point or an exponent, or one that is not finite; it may be out of range. -/
def readReal [Scalar K] [Numeral K] (cs : List Char) : Option (Option K) := do
  let (sign, rest) := splitSign cs
  let negative := sign = some true
  if rest = "inf".toList then return some (if negative then -(1 / 0) else 1 / 0)
  if rest = "nan".toList then return some (if negative then -(0 / 0) else 0 / 0)
  let (mantissa, power) := cut (fun c => c = 'e' || c = 'E') rest
  let (whole, fraction) := cut (· = '.') mantissa
  guard (power.isSome || fraction.isSome)
  let whole ← plainDigits whole
  let fraction ← match fraction with | some f => ungroup Char.isDigit f | none => some []
  let power : Int ←
    match power with
    | some p => do
      let (sign, p) := splitSign p
      let n := digitsValue (← ungroup Char.isDigit p)
      pure (if sign = some true then -(n : Int) else n)
    | none => pure 0
  return Numeral.nearest? ⟨negative, digitsValue (whole ++ fraction), power - fraction.length⟩

/-- Two digits within bounds. -/
def readPair (lo hi : Nat) (a b : Char) : Option Nat := do
  guard (a.isDigit && b.isDigit)
  let n := digitsValue [a, b]
  guard (lo ≤ n ∧ n ≤ hi)
  return n

def daysInMonth (year month : Nat) : Nat :=
  if month = 2 then (if year % 4 = 0 ∧ (year % 100 ≠ 0 ∨ year % 400 = 0) then 29 else 28)
  else if month = 4 ∨ month = 6 ∨ month = 9 ∨ month = 11 then 30
  else 31

def splitDate : List Char → Option (List Char)
  | y1 :: y2 :: y3 :: y4 :: '-' :: m1 :: m2 :: '-' :: d1 :: d2 :: rest => do
    guard ([y1, y2, y3, y4].all Char.isDigit)
    let month ← readPair 1 12 m1 m2
    let _ ← readPair 1 (daysInMonth (digitsValue [y1, y2, y3, y4]) month) d1 d2
    return rest
  | _ => none

/-- A time of day, where seconds and their fraction may be left out, and what follows it. -/
def splitTime : List Char → Option (List Char)
  | h1 :: h2 :: ':' :: m1 :: m2 :: rest => do
    let _ ← readPair 0 23 h1 h2
    let _ ← readPair 0 59 m1 m2
    match rest with
    | ':' :: s1 :: s2 :: rest => do
      let _ ← readPair 0 60 s1 s2
      match rest with
      | '.' :: rest =>
        let (digits, rest) := rest.span Char.isDigit
        if digits = [] then none else some rest
      | rest => some rest
    | rest => some rest
  | _ => none

def isZone : List Char → Bool
  | [] => true
  | ['Z'] => true
  | ['z'] => true
  | [sign, h1, h2, ':', m1, m2] =>
    (sign = '+' || sign = '-') && (readPair 0 23 h1 h2).isSome && (readPair 0 59 m1 m2).isSome
  | _ => false

def isMoment (cs : List Char) : Bool :=
  match splitDate cs with
  | some [] => true
  | some (mark :: time) =>
    (mark = 'T' || mark = 't' || mark = ' ') && (splitTime time).any isZone
  | none => (splitTime cs).any (· = [])

def readWord [Scalar K] [Numeral K] (cs : List Char) : Option (Value K) :=
  if cs = "true".toList then some (.bool true)
  else if cs = "false".toList then some (.bool false)
  else if isMoment cs then some (.moment (String.ofList cs))
  else
    match readInt cs with
    | some i => some (.int i)
    | none => (readReal cs).map .real

def isWordChar (c : Char) : Bool :=
  c.isAlphanum || c = '_' || c = '+' || c = '-' || c = '.' || c = ':'

/-- The word in front. A date may be followed by a blank and a time. -/
def splitWord (cs : List Char) : List Char × List Char :=
  let (word, rest) := cs.span isWordChar
  match rest with
  | ' ' :: d :: more =>
    if d.isDigit && splitDate word == some [] then
      let (time, rest) := (d :: more).span isWordChar
      (word ++ ' ' :: time, rest)
    else (word, rest)
  | _ => (word, rest)

end Stagecraft.Toml
