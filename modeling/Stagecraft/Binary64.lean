import Stagecraft.Scalar
import Stagecraft.Decimal

/-!
# Machine numbers

`Float` is the scalar the program runs on. A finite one is `±significand · 2 ^ exponent`, and
everything that concerns its decimal text or its whole part is computed on that triple with
natural numbers, so nothing is rounded but the result.
-/

namespace Stagecraft

namespace Binary64

/-- The finite number `±significand · 2 ^ exponent`. -/
structure Parts where
  negative : Bool
  significand : Nat
  exponent : Int

inductive Reading where
  | finite (p : Parts)
  | infinite (negative : Bool)
  | undefined

/-- The first digit of a significand of full precision. -/
def leadingDigit : Nat := 1 <<< 52

/-- The reading of a number's bits: a sign, eleven of exponent and fifty-two of fraction. -/
def read (x : Float) : Reading :=
  let bits := x.toBits.toNat
  let negative := decide (UInt64.size / 2 ≤ bits)
  let biased : Nat := bits / leadingDigit % 2048
  let fraction : Nat := bits % leadingDigit
  if biased = 2047 then (if fraction = 0 then .infinite negative else .undefined)
  else if biased = 0 then .finite ⟨negative, fraction, -1074⟩
  else .finite ⟨negative, leadingDigit + fraction, Int.ofNat biased - 1075⟩

/-- `b ^ k` as a fraction: the numerator for `k ≥ 0`. -/
def powerUp (b : Nat) (k : Int) : Nat := b.pow k.toNat

/-- `b ^ k` as a fraction: the denominator for `k ≤ 0`. -/
def powerDown (b : Nat) (k : Int) : Nat := b.pow (-k).toNat

/-- The natural number nearest to `n / d`, halves going to the even one. -/
def roundDiv (n d : Nat) : Nat :=
  let q := n / d
  let r := 2 * (n % d)
  if r < d then q else if d < r then q + 1 else if q % 2 = 0 then q else q + 1

/-- The multiple of `10 ^ k` nearest to a finite number. -/
def Parts.toGrid (p : Parts) (k : Int) : Decimal :=
  let n := p.significand * powerUp 2 p.exponent * powerDown 10 k
  let d := powerDown 2 p.exponent * powerUp 10 k
  ⟨p.negative, roundDiv n d, k⟩

/-- The multiple of `10 ^ k` that reads back as the number, if there is one: of the two
neighbours of the number on that grid the nearer one, and `tie` decides between two equally near.
The numbers that read back lie between the midpoints to the next numbers, where a midpoint counts
when the significand is even. All bounds are counted in quarters of the last binary place. -/
def Parts.hit? (p : Parts) (tie : Tie) (k : Int) : Option Nat :=
  let unit := powerUp 2 (p.exponent - 2) * powerDown 10 k
  let step := powerDown 2 (p.exponent - 2) * powerUp 10 k
  let value := 4 * p.significand * unit
  let below := if p.significand = leadingDigit ∧ p.exponent ≠ -1074 then 1 else 2
  let lo := (4 * p.significand - below) * unit
  let hi := (4 * p.significand + 2) * unit
  let c := value / step
  let inside (n : Nat) : Bool :=
    if p.significand % 2 = 0 then decide (lo ≤ n * step ∧ n * step ≤ hi)
    else decide (lo < n * step ∧ n * step < hi)
  let gapBelow := value - c * step
  let gapAbove := (c + 1) * step - value
  let upper : Bool :=
    decide (gapAbove < gapBelow) ||
      (gapAbove == gapBelow && (match tie with | .away => true | .even => c % 2 == 1))
  match inside c, inside (c + 1) with
  | true, true => some (if upper then c + 1 else c)
  | true, false => some c
  | false, true => some (c + 1)
  | false, false => none

/-- A power of ten that a positive number of this binary size cannot exceed. -/
def Parts.topPlace (p : Parts) : Int :=
  ((p.significand.log2 : Int) + 1 + p.exponent) * 30103 / 100000 + 1

/-- The shortest decimal that reads back: the coarsest grid with a hit wins, and seventeen
digits always suffice. -/
def Parts.shortest (p : Parts) (tie : Tie) : Decimal :=
  if p.significand = 0 then ⟨p.negative, 0, 0⟩
  else
    let found := (List.range 20).findSome? fun (i : Nat) =>
      let k := p.topPlace - (i : Int)
      (p.hit? tie k).map fun n => (n, k)
    match found with
    | some (n, k) => Decimal.normalize ⟨p.negative, n, k⟩
    | none => p.toGrid (p.topPlace - 20)

/-- The figure of a number, from what is to be done with a finite one. -/
def figure (x : Float) (finite : Parts → Decimal) : Figure :=
  match read x with
  | .finite p => .finite (finite p)
  | .infinite negative => .infinite negative
  | .undefined => .undefined

/-- The number with the given parts, which must be representable. -/
def ofParts (p : Parts) : Float :=
  let shift := 52 - p.significand.log2
  let magnitude :=
    if p.significand = 0 then 0
    else if -1074 ≤ p.exponent - shift then
      (p.exponent - shift + 1074).toNat * leadingDigit + p.significand <<< shift
    else p.significand <<< (p.exponent + 1074).toNat
  Float.ofBits (UInt64.ofNat (magnitude + if p.negative then UInt64.size / 2 else 0))

/-- The exact remainder, with the sign of the dividend. -/
def rem (x y : Float) : Float :=
  match read x, read y with
  | .finite a, .finite b =>
    if b.significand = 0 then 0.0 / 0.0
    else
      let e := min a.exponent b.exponent
      let n := a.significand <<< (a.exponent - e).toNat
      let d := b.significand <<< (b.exponent - e).toNat
      ofParts ⟨a.negative, n % d, e⟩
  | .finite _, .infinite _ => x
  | _, _ => 0.0 / 0.0

/-- The length of a vector with the sides `x ≥ y > 0`: the root of the sum of the squares, less the
error of that root. The excess of the square of the root over the sum is taken apart so that no
digits cancel. -/
def correctedLength (x y : Float) : Float :=
  let h := (x * x + y * y).sqrt
  let excess :=
    if h ≤ 2.0 * y then
      let d := h - y
      x * (2.0 * d - x) + (d - 2.0 * (x - y)) * d
    else
      let d := h - x
      2.0 * d * (x - 2.0 * y) + ((4.0 * d - y) * y + d * d)
  h - excess / (2.0 * h)

def twoTo (n : Nat) : Float :=
  Float.ofScientific (1 <<< n) false 0

/-- The length of a plane vector. A side too short to change the other is added to it, and where a
square would leave the range the vector is scaled. -/
def hypot (x y : Float) : Float :=
  let long := if x.abs < y.abs then y.abs else x.abs
  let short := if x.abs < y.abs then x.abs else y.abs
  if x.isInf || y.isInf then 1.0 / 0.0
  else if x.isNaN || y.isNaN || short * twoTo 54 ≤ long then long + short
  else if twoTo 511 < long then
    correctedLength (long / twoTo 600) (short / twoTo 600) * twoTo 600
  else if short < 1.0 / twoTo 459 then
    correctedLength (long * twoTo 600) (short * twoTo 600) / twoTo 600
  else correctedLength long short

/-- The natural number nearest to a number, halves going up, within sixty-four bits. -/
def round (x : Float) : Nat :=
  match read x with
  | .finite p =>
    if p.negative then 0
    else min (UInt64.size - 1) <|
      (2 * p.significand * powerUp 2 p.exponent + powerDown 2 p.exponent) /
        (2 * powerDown 2 p.exponent)
  | .infinite negative => if negative then 0 else UInt64.size - 1
  | .undefined => 0

def ofNat (n : Nat) : Float :=
  if n < UInt64.size then n.toUInt64.toFloat else Float.ofNat n

def tenTo (n : Nat) : Float :=
  Float.ofScientific 1 false n

/-- The number when it is finite, with a sign. -/
def signed? (negative : Bool) (x : Float) : Option Float :=
  if x.isFinite then some (if negative then -x else x) else none

/-- The number nearest to a decimal. Beyond four hundred places no digit counts any more. -/
def nearest? (d : Decimal) : Option Float :=
  let places : Int := (Decimal.digitChars d.digits).length
  if d.digits = 0 || d.exponent + places < -400 then some (if d.negative then -0.0 else 0.0)
  else if 400 < d.exponent + places then none
  else signed? d.negative (Float.ofScientific d.digits (d.exponent < 0) d.exponent.natAbs)

/-- The digits as a number, multiplied or divided by the power of ten. The largest power of ten is
`10 ^ 308`, so a small number is divided in steps. -/
def scaled? (d : Decimal) : Option Float :=
  let x := ofNat d.digits
  signed? d.negative <|
    if d.digits = 0 then 0.0
    else if 308 < d.exponent then 1.0 / 0.0
    else if 0 ≤ d.exponent then x * tenTo d.exponent.toNat
    else if -308 ≤ d.exponent then x / tenTo (-d.exponent).toNat
    else if -616 ≤ d.exponent then x / tenTo 308 / tenTo (-d.exponent - 308).toNat
    else 0.0

end Binary64

instance : Scalar Float where
  decidableLT := inferInstance
  decidableLE := inferInstance
  ofNat := Binary64.ofNat
  ofScientific := Float.ofScientific
  sqrt := Float.sqrt
  hypot := Binary64.hypot
  sin := Float.sin
  cos := Float.cos
  atan2 := Float.atan2
  rem := Binary64.rem
  floor x := x.toUInt64.toNat
  round := Binary64.round
  isFinite := Float.isFinite
  radiansPerDegree := 3.141592653589793 / 180.0
  degreesPerRadian := 57.29577951308232

instance : Numeral Float where
  shortest tie x := Binary64.figure x fun p => p.shortest tie
  toGrid k x := Binary64.figure x fun p => p.toGrid k
  nearest? := Binary64.nearest?
  scaled? := Binary64.scaled?

end Stagecraft
