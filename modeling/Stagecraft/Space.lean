import Stagecraft.Scalar
import Stagecraft.Decimal

/-!
# Places and orientations

Locations are in centimeters with `z` up. Orientations are three angles in degrees: yaw turns
around `z` from `+x` (yaw 0) to `+y` (yaw 90), and pitch is positive looking up.
-/

namespace Stagecraft

variable {K : Type}

structure Vec3 (K : Type) where
  x : K
  y : K
  z : K
  deriving BEq

structure Rotator (K : Type) where
  pitch : K
  yaw : K
  roll : K
  deriving BEq

structure Transform (K : Type) where
  location : Vec3 K
  rotation : Rotator K
  deriving BEq

namespace Vec3

variable [Scalar K]

instance : Add (Vec3 K) := ⟨fun a b => ⟨a.x + b.x, a.y + b.y, a.z + b.z⟩⟩
instance : Sub (Vec3 K) := ⟨fun a b => ⟨a.x - b.x, a.y - b.y, a.z - b.z⟩⟩
instance : Neg (Vec3 K) := ⟨fun a => ⟨-a.x, -a.y, -a.z⟩⟩
instance : HMul (Vec3 K) K (Vec3 K) := ⟨fun a k => ⟨a.x * k, a.y * k, a.z * k⟩⟩

def zero : Vec3 K := ⟨0, 0, 0⟩

def up : Vec3 K := ⟨0, 0, 1⟩

def dot (a b : Vec3 K) : K :=
  a.x * b.x + a.y * b.y + a.z * b.z

def length (a : Vec3 K) : K :=
  Scalar.sqrt (a.dot a)

/-- The length of the projection to the ground. -/
def horizontalLength (a : Vec3 K) : K :=
  Scalar.hypot a.x a.y

def distance (a b : Vec3 K) : K :=
  (b - a).length

/-- The unit vector in the same direction, and zero for a vector too short to have one. -/
def normalized (a : Vec3 K) : Vec3 K :=
  if a.length ≤ Scalar.epsilon then zero else a * (1 / a.length)

def lerp (a b : Vec3 K) (t : K) : Vec3 K :=
  ⟨a.x + (b.x - a.x) * t, a.y + (b.y - a.y) * t, a.z + (b.z - a.z) * t⟩

def rotateYaw (a : Vec3 K) (yaw : K) : Vec3 K :=
  let sin := Scalar.sin (Scalar.toRadians yaw)
  let cos := Scalar.cos (Scalar.toRadians yaw)
  ⟨a.x * cos - a.y * sin, a.x * sin + a.y * cos, a.z⟩

def text [Numeral K] (a : Vec3 K) : String :=
  "(" ++ Numeral.fixed 1 a.x ++ ", " ++ Numeral.fixed 1 a.y ++ ", " ++ Numeral.fixed 1 a.z ++ ")"

end Vec3

namespace Rotator

variable [Scalar K]

def level : Rotator K := ⟨0, 0, 0⟩

def ofYaw (yaw : K) : Rotator K := ⟨0, yaw, 0⟩

/-- A local orientation stacked onto a parent's, angle by angle. -/
def compose (a local_ : Rotator K) : Rotator K :=
  ⟨a.pitch + local_.pitch, a.yaw + local_.yaw, a.roll + local_.roll⟩

/-- The orientation a fraction `t` of the way to `b`, angle by angle. -/
def lerp (a b : Rotator K) (t : K) : Rotator K :=
  ⟨a.pitch + (b.pitch - a.pitch) * t, a.yaw + (b.yaw - a.yaw) * t, a.roll + (b.roll - a.roll) * t⟩

end Rotator

/-- The transform a fraction of the way to `b`, going no further than either end. -/
def Transform.lerp [Scalar K] (a b : Transform K) (t : K) : Transform K :=
  let t := Scalar.clamp 0 1 t
  ⟨a.location.lerp b.location t, a.rotation.lerp b.rotation t⟩

end Stagecraft
