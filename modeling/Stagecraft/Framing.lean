import Stagecraft.Movie.Basic

/-!
# Framing

What a camera sees of its subjects: where it stands, where it points, what is in focus and how
long its lens is. A subject is tracked at a fraction of its height.
-/

namespace Stagecraft

variable {K : Type}

namespace Optics

variable [Scalar K]

/-- The nearest a subject counts as being when a zoom is solved, in centimeters. -/
def leastDistance : K := 10

/-- The point at a fraction of a subject's height. -/
def trackedPoint (subject : Vec3 K) (height heightPct : K) : Vec3 K :=
  subject + (Vec3.up : Vec3 K) * (height * heightPct)

def lookAt (camera target : Vec3 K) : Rotator K :=
  let delta := target - camera
  ⟨delta.pitch, delta.yaw, 0⟩

def focusDistance (camera target : Vec3 K) : K :=
  camera.distance target

/-- The focal length in millimeters at which a subject of a height fills a fraction of the sensor's
height, by the proportions of a pinhole. -/
def focalLength (sensorHeight distance height occupancy : K) : K :=
  let distance := Scalar.larger distance leastDistance
  let frameHeight := height / occupancy
  sensorHeight * distance / frameHeight

end Optics

/-- A focal length that was solved for, and whether it had to be kept within bounds. -/
structure ZoomSolution (K : Type) where
  focalLength : K
  clamped : Bool
  deriving BEq

/-- The focal length of an automatic zoom; none when its bounds are crossed or undefined. -/
def ZoomConfig.solve? [Scalar K] (z : ZoomConfig K) (sensorHeight distance height : K) :
    Option (ZoomSolution K) :=
  let ideal := Optics.focalLength sensorHeight distance height z.occupancy
  (Scalar.clamp? z.minFocal z.maxFocal ideal).map fun focal => ⟨focal, !(focal == ideal)⟩

/-- The transform of an attached camera. Its offset turns with the parent's logical heading. -/
def Attachment.transform [Scalar K] (a : Attachment K) (parent : Vec3 K) (yaw : K) :
    Transform K :=
  ⟨parent + a.offset.rotateYaw yaw, (Rotator.ofYaw yaw).compose a.rotation⟩

/-- A subject, and how high on it to aim. -/
structure Aim (K : Type) where
  actor : String
  heightPct : K
  deriving BEq

/-- The framing in effect on a camera. -/
structure Framing (K : Type) where
  lookAt : Option (Aim K)
  focus : Option (Aim K)
  zoom : Option (String × ZoomConfig K)
  focalLength : K
  deriving BEq

/-- Where a subject is, with its logical heading and its height. -/
structure Subject (K : Type) where
  location : Vec3 K
  yaw : K
  height : K
  deriving BEq

structure Shot (K : Type) where
  transform : Transform K
  focalLength : K
  focusDistance : Option K
  zoomClamped : Bool
  deriving BEq

namespace Framing

variable [Scalar K]

omit [Scalar K] in
def initial (c : Camera K) : Framing K :=
  ⟨none, none, none, c.focalLength⟩

omit [Scalar K] in
def stopTracking (f : Framing K) : Framing K :=
  ⟨none, none, none, f.focalLength⟩

/-- Where a camera is before it is aimed: with the actor it is attached to, or at its own place. -/
def base (c : Camera K) (subject? : String → Option (Subject K)) : Transform K :=
  match c.attachment.bind fun a => (subject? a.actor).map fun s => a.transform s.location s.yaw with
  | some t => t
  | none => ⟨c.location, c.rotation⟩

def aimPoint? (aim : Option (Aim K)) (subject? : String → Option (Subject K)) :
    Option (Vec3 K) := do
  let aim ← aim
  let s ← subject? aim.actor
  return Optics.trackedPoint s.location s.height aim.heightPct

/-- The shot of a camera; none when the bounds of its zoom are crossed or undefined. -/
def shot? (f : Framing K) (c : Camera K) (subject? : String → Option (Subject K)) :
    Option (Shot K) := do
  let t := base c subject?
  let rotation := ((aimPoint? f.lookAt subject?).map (Optics.lookAt t.location)).getD t.rotation
  let focus := (aimPoint? f.focus subject?).map (Optics.focusDistance t.location)
  match f.zoom.bind fun z => (subject? z.1).map fun s => (z.2, s) with
  | none => return ⟨⟨t.location, rotation⟩, f.focalLength, focus, false⟩
  | some (config, s) =>
    let distance := t.location.distance (Optics.trackedPoint s.location s.height 0.5)
    let zoom ← config.solve? c.sensorHeight distance s.height
    return ⟨⟨t.location, rotation⟩, zoom.focalLength, focus, zoom.clamped⟩

end Framing

end Stagecraft
