/-!
# Decimals

A number is written by choosing a decimal for it and laying the decimal out. `Decimal` is the
choice, `Figure` adds the values that have no digits, and two layouts turn figures into text: the
positional one, which never has an exponent, and that of data files (`Decimal.literal`), which
always shows a point or an exponent. `Numeral K` says how a scalar is brought to a decimal and
read from one.
-/

namespace Stagecraft

/-- The number `±digits · 10 ^ exponent`. -/
structure Decimal where
  negative : Bool
  digits : Nat
  exponent : Int
  deriving BEq, DecidableEq, Repr

inductive Figure where
  | finite (d : Decimal)
  | infinite (negative : Bool)
  | undefined
  deriving BEq, DecidableEq, Repr

/-- Where a value halfway between two candidates goes. -/
inductive Tie where
  | even
  | away
  deriving BEq, DecidableEq, Repr

class Numeral (K : Type) where
  /-- The decimal with the fewest digits that is read back as the number, and of those the
  nearest to it. -/
  shortest : Tie → K → Figure
  /-- The multiple of `10 ^ k` nearest to the number, halves going to the even one. -/
  toGrid : Int → K → Figure
  /-- The number nearest to a decimal; none when it is out of range. -/
  nearest? : Decimal → Option K
  /-- The number a data file means by a decimal: its digits scaled by the power of ten; none when it
  is out of range. -/
  scaled? : Decimal → Option K

namespace Decimal

/-- The digits of a natural number, most significant first. -/
def digitChars (n : Nat) : List Char :=
  Nat.toDigits 10 n

/-- The digits of a natural number with zeros in front, at least `width` characters. -/
def paddedDigits (width n : Nat) : List Char :=
  List.replicate (width - (digitChars n).length) '0' ++ digitChars n

def signChars (negative : Bool) : List Char :=
  if negative then ['-'] else []

/-- All digits, with a point when the exponent is negative and never an exponent. -/
def positional (d : Decimal) : List Char :=
  signChars d.negative ++
    match d.exponent with
    | .ofNat k => digitChars d.digits ++ (if d.digits = 0 then [] else List.replicate k '0')
    | .negSucc k =>
      let cs := paddedDigits (k + 2) d.digits
      cs.take (cs.length - (k + 1)) ++ '.' :: cs.drop (cs.length - (k + 1))

/-- One digit, the others behind a point, and the exponent with its sign. -/
def scientific (d : Decimal) : List Char :=
  let cs := digitChars d.digits
  let power := d.exponent + cs.length - 1
  signChars d.negative ++ cs.take 1 ++ (if cs.length ≤ 1 then [] else '.' :: cs.drop 1) ++
    'e' :: (if power < 0 then '-' else '+') :: digitChars power.natAbs

/-- Where the point stands, counted from the first digit. -/
def pointPosition (d : Decimal) : Int :=
  (digitChars d.digits).length + d.exponent

/-- The form of data files: positional, whole numbers ending in `.0`, while the point stands less
than five places before and at most sixteen behind the first digit; scientific otherwise. -/
def literal (d : Decimal) : List Char :=
  if d.digits = 0 then signChars d.negative ++ ['0', '.', '0']
  else if -5 < d.pointPosition ∧ d.pointPosition ≤ 16 then
    d.positional ++ (if 0 ≤ d.exponent then ['.', '0'] else [])
  else d.scientific

/-- Drops the zeros at the end of a whole number of `places` digits, counting them. -/
def trim : Nat → Nat → Nat × Nat
  | 0, n => (n, 0)
  | places + 1, n =>
    if n ≠ 0 ∧ n % 10 = 0 then
      let (m, k) := trim places (n / 10)
      (m, k + 1)
    else (n, 0)

/-- The same number with no zero digit at the end. -/
def normalize (d : Decimal) : Decimal :=
  if d.digits = 0 then { d with exponent := 0 }
  else
    let (m, k) := trim (digitChars d.digits).length d.digits
    { d with digits := m, exponent := d.exponent + k }

end Decimal

def Figure.positional : Figure → String
  | .finite d => String.ofList d.positional
  | .infinite negative => if negative then "-inf" else "inf"
  | .undefined => "NaN"

namespace Numeral

variable {K : Type} [Numeral K]

/-- The shortest text that reads back, without an exponent. -/
def text (x : K) : String :=
  (shortest .away x).positional

def fixed (places : Nat) (x : K) : String :=
  (toGrid (-(places : Int)) x).positional

end Numeral

/-- A natural number with zeros in front, at least `width` characters. -/
def paddedText (width n : Nat) : String :=
  String.ofList (Decimal.paddedDigits width n)

end Stagecraft
