import Stagecraft.Space

/-!
# Headings

Compass directions are headings on the ground: north is `+x` (yaw 0) and east is `+y` (yaw 90).
Relative directions are counted from the way an actor faces. Turning always takes the short way
round.
-/

namespace Stagecraft

variable {K : Type}

inductive Direction where
  | north
  | east
  | south
  | west
  | northEast
  | northWest
  | southEast
  | southWest
  | forward
  | backward
  | left
  | right
  deriving DecidableEq, Repr

namespace Direction

def name : Direction → String
  | north => "north"
  | east => "east"
  | south => "south"
  | west => "west"
  | northEast => "north_east"
  | northWest => "north_west"
  | southEast => "south_east"
  | southWest => "south_west"
  | forward => "forward"
  | backward => "backward"
  | left => "left"
  | right => "right"

/-- All directions, in the order of the compass and then of the body. -/
def all : List Direction :=
  [north, east, south, west, northEast, northWest, southEast, southWest,
    forward, backward, left, right]

def isRelative : Direction → Bool
  | forward | backward | left | right => true
  | _ => false

/-- How far a relative direction lies from the way an actor faces. -/
def relativeTurn [Scalar K] : Direction → K
  | backward => 180
  | left => -90
  | right => 90
  | _ => 0

/-- The yaw of a compass direction. A diagonal lies `offset` degrees, 45 unless stated, from the
cardinal direction named first; a relative direction has no yaw of its own. -/
def cardinalAngle? [Scalar K] (d : Direction) (offset : Option K) : Option K :=
  let off := offset.getD 45
  match d with
  | north => some 0
  | east => some 90
  | south => some 180
  | west => some (-90)
  | northEast => some off
  | northWest => some (-off)
  | southEast => some (180 - off)
  | southWest => some (180 + off)
  | _ => none

def heading [Scalar K] (d : Direction) (yaw : K) (offset : Option K) : K :=
  match d.cardinalAngle? offset with
  | some angle => angle
  | none => yaw + d.relativeTurn + offset.getD 0

end Direction

/-- The turn in `(-180, 180]` that leads from one yaw to another. -/
def shortestYaw [Scalar K] (current target : K) : K :=
  let delta := Scalar.modulo (target - current) 360
  if 180 < delta then delta - 360 else delta

/-- The yaw equal to `target` up to full turns that is nearest to `current`. -/
def unwrapYaw [Scalar K] (current target : K) : K :=
  current + shortestYaw current target

def yawVector [Scalar K] (yaw : K) : Vec3 K :=
  ⟨Scalar.cos (Scalar.toRadians yaw), Scalar.sin (Scalar.toRadians yaw), 0⟩

/-- The yaw of a vector's projection to the ground, in degrees. -/
def Vec3.yaw [Scalar K] (v : Vec3 K) : K :=
  Scalar.toDegrees (Scalar.atan2 v.y v.x)

/-- The angle of a vector above the ground, in degrees. -/
def Vec3.pitch [Scalar K] (v : Vec3 K) : K :=
  Scalar.toDegrees (Scalar.atan2 v.z v.horizontalLength)

def Direction.vector [Scalar K] (d : Direction) (yaw : K) (offset : Option K) : Vec3 K :=
  yawVector (d.heading yaw offset)

def Direction.displacement [Scalar K] (d : Direction) (yaw cm : K) (offset : Option K) : Vec3 K :=
  d.vector yaw offset * cm

end Stagecraft
