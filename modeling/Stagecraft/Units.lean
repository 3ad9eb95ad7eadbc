import Stagecraft.Scalar
import Stagecraft.Decimal

/-!
# Quantities with units

A movie states every length, time and speed in a unit of its author's choice. The program
computes in centimeters and seconds, and each unit carries the factor that leads there.
-/

namespace Stagecraft

variable {K : Type}

inductive DistanceUnit where
  | meters
  | centimeters
  | kilometers
  | feet
  deriving DecidableEq, Repr

inductive TimeUnit where
  | seconds
  | minutes
  | hours
  deriving DecidableEq, Repr

inductive SpeedUnit where
  | metersPerSecond
  | centimetersPerSecond
  | kilometersPerHour
  | milesPerHour
  deriving DecidableEq, Repr

/-- Centimeters in one unit. -/
def DistanceUnit.factor [Scalar K] : DistanceUnit → K
  | .meters => 100
  | .centimeters => 1
  | .kilometers => 100000
  | .feet => 30.48

def DistanceUnit.symbol : DistanceUnit → String
  | .meters => "m"
  | .centimeters => "cm"
  | .kilometers => "km"
  | .feet => "ft"

/-- Seconds in one unit. -/
def TimeUnit.factor [Scalar K] : TimeUnit → K
  | .seconds => 1
  | .minutes => 60
  | .hours => 3600

def TimeUnit.symbol : TimeUnit → String
  | .seconds => "s"
  | .minutes => "min"
  | .hours => "h"

/-- Centimeters per second in one unit. -/
def SpeedUnit.factor [Scalar K] : SpeedUnit → K
  | .metersPerSecond => 100
  | .centimetersPerSecond => 1
  | .kilometersPerHour => 100000 / 3600
  | .milesPerHour => 44.704

def SpeedUnit.symbol : SpeedUnit → String
  | .metersPerSecond => "m/s"
  | .centimetersPerSecond => "cm/s"
  | .kilometersPerHour => "km/h"
  | .milesPerHour => "mph"

structure Distance (K : Type) where
  value : K
  unit : DistanceUnit
  deriving BEq

/-- A stretch of time, or a moment counted from the start, in the unit it was stated in. -/
structure TimeSpan (K : Type) where
  value : K
  unit : TimeUnit
  deriving BEq

structure Speed (K : Type) where
  value : K
  unit : SpeedUnit
  deriving BEq

/-- An acceleration in meters per second squared. -/
structure Acceleration (K : Type) where
  mps2 : K
  deriving BEq

namespace Distance

def meters (value : K) : Distance K := ⟨value, .meters⟩
def centimeters (value : K) : Distance K := ⟨value, .centimeters⟩
def kilometers (value : K) : Distance K := ⟨value, .kilometers⟩
def feet (value : K) : Distance K := ⟨value, .feet⟩

/-- The length in centimeters. -/
def internal [Scalar K] (d : Distance K) : K :=
  d.value * d.unit.factor

def ofInternal [Scalar K] (cm : K) (unit : DistanceUnit) : Distance K :=
  ⟨cm / unit.factor, unit⟩

def text [Numeral K] (d : Distance K) : String :=
  Numeral.text d.value ++ d.unit.symbol

end Distance

namespace TimeSpan

def seconds (value : K) : TimeSpan K := ⟨value, .seconds⟩
def minutes (value : K) : TimeSpan K := ⟨value, .minutes⟩
def hours (value : K) : TimeSpan K := ⟨value, .hours⟩

/-- The time in seconds. -/
def internal [Scalar K] (t : TimeSpan K) : K :=
  t.value * t.unit.factor

def ofInternal [Scalar K] (seconds : K) (unit : TimeUnit) : TimeSpan K :=
  ⟨seconds / unit.factor, unit⟩

def text [Numeral K] (t : TimeSpan K) : String :=
  Numeral.text t.value ++ t.unit.symbol

end TimeSpan

namespace Speed

def metersPerSecond (value : K) : Speed K := ⟨value, .metersPerSecond⟩
def centimetersPerSecond (value : K) : Speed K := ⟨value, .centimetersPerSecond⟩
def kilometersPerHour (value : K) : Speed K := ⟨value, .kilometersPerHour⟩
def milesPerHour (value : K) : Speed K := ⟨value, .milesPerHour⟩

/-- The speed in centimeters per second. -/
def internal [Scalar K] (v : Speed K) : K :=
  v.value * v.unit.factor

def ofInternal [Scalar K] (cmps : K) (unit : SpeedUnit) : Speed K :=
  ⟨cmps / unit.factor, unit⟩

def text [Numeral K] (v : Speed K) : String :=
  Numeral.text v.value ++ v.unit.symbol

end Speed

/-- The acceleration in centimeters per second squared. -/
def Acceleration.internal [Scalar K] (a : Acceleration K) : K :=
  a.mps2 * 100

end Stagecraft
