/-!
# Scalars

Every quantity of a movie (lengths, times, angles) is a number of some scalar type `K`, and the
whole program is written over `[Scalar K]`. It runs on machine numbers, where an operation may
yield a value that is not comparable to any number, and it is reasoned about on the real line.
The operations below are those that the program needs beyond the four of arithmetic.
-/

namespace Stagecraft

/-- Numbers a movie is computed with: arithmetic, order, roots, angles and the step to whole
frames. -/
class Scalar (K : Type) extends Add K, Sub K, Mul K, Div K, Neg K, LT K, LE K, BEq K where
  decidableLT : DecidableLT K
  decidableLE : DecidableLE K
  /-- A whole number. -/
  ofNat : Nat → K
  /-- The number `m · 10 ^ e`, or `m / 10 ^ e` when the flag is set. -/
  ofScientific : Nat → Bool → Nat → K
  sqrt : K → K
  /-- The length `√(x² + y²)` of a plane vector. -/
  hypot : K → K → K
  /-- The sine of an angle in radians. -/
  sin : K → K
  /-- The cosine of an angle in radians. -/
  cos : K → K
  /-- `atan2 y x` is the angle in radians, in `(-π, π]`, of the plane vector `(x, y)`. -/
  atan2 : K → K → K
  /-- `rem x y` is `x` minus the whole multiple of `y` nearest to it toward zero. -/
  rem : K → K → K
  /-- The greatest natural number not above a number, and zero below zero. -/
  floor : K → Nat
  /-- The nearest natural number, halves going up, and zero below zero. -/
  round : K → Nat
  /-- Neither infinite nor undefined. -/
  isFinite : K → Bool
  /-- The factor `π / 180`. -/
  radiansPerDegree : K
  /-- The factor `180 / π`. -/
  degreesPerRadian : K

attribute [instance (10)] Scalar.toAdd Scalar.toSub Scalar.toMul Scalar.toDiv Scalar.toNeg
  Scalar.toLT Scalar.toLE Scalar.toBEq

namespace Scalar

variable {K : Type} [Scalar K]

instance (priority := 10) : DecidableLT K := decidableLT
instance (priority := 10) : DecidableLE K := decidableLE

instance (priority := 10) {n : Nat} : OfNat K n := ⟨ofNat n⟩
instance (priority := 10) : OfScientific K := ⟨ofScientific⟩
instance (priority := 10) : CoeTail Nat K := ⟨ofNat⟩

/-- The greater of two numbers; an undefined one yields to the other. -/
def larger (a b : K) : K :=
  if a ≤ b then b else if b ≤ a then a else if a == a then a else b

/-- The lesser of two numbers; an undefined one yields to the other. -/
def smaller (a b : K) : K :=
  if a ≤ b then a else if b ≤ a then b else if a == a then a else b

def abs (x : K) : K :=
  if x < 0 then -x else x

/-- The number nearest to `x` between `lo` and `hi`. -/
def clamp (lo hi x : K) : K :=
  if x < lo then lo else if hi < x then hi else x

/-- `clamp`, refused when the bounds are crossed or undefined. -/
def clamp? (lo hi x : K) : Option K :=
  if lo ≤ hi then some (clamp lo hi x) else none

/-- The remainder of `x` by `y` that is not negative. -/
def modulo (x y : K) : K :=
  let r := rem x y
  if r < 0 then r + abs y else r

def toRadians (degrees : K) : K :=
  degrees * radiansPerDegree

def toDegrees (radians : K) : K :=
  radians * degreesPerRadian

/-- The tolerance below which lengths, times and speeds count as equal. -/
def tolerance : K := 1e-9

/-- The gap between one and the next machine number, `2 ^ -52`. -/
def epsilon : K := 1 / 4503599627370496

/-- The least positive machine number of full precision. -/
def leastNormal : K := 1 / ofNat (1 <<< 1022)

/-- The greatest machine number. -/
def greatest : K := ofNat ((1 <<< 53 - 1) <<< 971)

end Scalar

end Stagecraft
