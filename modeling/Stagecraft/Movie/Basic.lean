import Stagecraft.Command
import Stagecraft.FrameRate

/-!
# Movies

A movie declares its actors, cameras, lights and splines, a script of sequences that drive them,
and a timeline of global events. The entities share one space of names.
-/

namespace Stagecraft

variable {K : Type}

/-- A performer. The yaw offset corrects for the mesh and is added to every yaw that is
emitted. -/
structure Actor (K : Type) where
  name : String
  location : Vec3 K
  initialYaw : K
  yawOffset : K
  radius : Distance K
  height : Distance K
  mesh : Option String
  deriving BEq

/-- A camera's rigid attachment to an actor, with the offset in the actor's own frame. -/
structure Attachment (K : Type) where
  actor : String
  socket : Option String
  offset : Vec3 K
  rotation : Rotator K
  deriving BEq

/-- How an automatic zoom frames its subject: the fraction of the frame's height to fill, within
bounds for the focal length. -/
structure ZoomConfig (K : Type) where
  occupancy : K
  minFocal : K
  maxFocal : K
  deriving BEq

/-- A camera. Focal length and sensor height are in millimeters. -/
structure Camera (K : Type) where
  name : String
  location : Vec3 K
  rotation : Rotator K
  focalLength : K
  sensorHeight : K
  attachment : Option (Attachment K)
  autoZoom : Option (ZoomConfig K)
  deriving BEq

inductive LightKind where
  | point
  | directional
  | spot
  | rect
  | sky
  deriving DecidableEq, Repr

/-- A light, with its color in linear red, green and blue. -/
structure Light (K : Type) where
  name : String
  kind : LightKind
  location : Vec3 K
  rotation : Rotator K
  intensity : K
  color : Vec3 K
  deriving BEq

/-- A curve through control points; the tension scales its tangents. -/
structure Spline (K : Type) where
  name : String
  points : List (Vec3 K)
  closed : Bool
  tension : K
  deriving BEq

/-- Commands for one actor, run back to back. -/
structure ActorSequence (K : Type) where
  actor : String
  commands : List (Command K)
  deriving BEq

/-- Commands for one camera, run back to back. -/
structure CameraSequence (K : Type) where
  camera : String
  commands : List (CameraCommand K)
  deriving BEq

/-- A unit of the script: a sequence, or a group of units that start at the same moment. -/
inductive Block (K : Type) where
  | actor (s : ActorSequence K)
  | camera (s : CameraSequence K)
  | simultaneous (members : List (Block K))

mutual

def Block.beq [BEq K] : Block K → Block K → Bool
  | .actor s, .actor t => s == t
  | .camera s, .camera t => s == t
  | .simultaneous xs, .simultaneous ys => Block.beqList xs ys
  | _, _ => false

def Block.beqList [BEq K] : List (Block K) → List (Block K) → Bool
  | [], [] => true
  | x :: xs, y :: ys => x.beq y && Block.beqList xs ys
  | _, _ => false

end

instance [BEq K] : BEq (Block K) := ⟨Block.beq⟩

/-- An event at a moment of the movie, apart from any script. -/
inductive TimelineEvent (K : Type) where
  | cameraCut (moment : TimeSpan K) (camera : String)
  | marker (moment : TimeSpan K) (label : String)
  deriving BEq

structure Movie (K : Type) where
  name : String
  fps : FrameRate K
  duration : Option (TimeSpan K)
  actors : List (Actor K)
  cameras : List (Camera K)
  lights : List (Light K)
  splines : List (Spline K)
  script : List (Block K)
  timeline : List (TimelineEvent K)
  deriving BEq

namespace LightKind

def name : LightKind → String
  | point => "point"
  | directional => "directional"
  | spot => "spot"
  | rect => "rect"
  | sky => "sky"

def all : List LightKind := [point, directional, spot, rect, sky]

end LightKind

namespace Block

def entity? : Block K → Option String
  | .actor s => some s.actor
  | .camera s => some s.camera
  | .simultaneous _ => none

/-- The sequences of a unit, with a group taken apart. -/
def flatten : Block K → List (Block K)
  | .simultaneous members => members
  | b => [b]

end Block

def TimelineEvent.moment : TimelineEvent K → TimeSpan K
  | .cameraCut moment _ => moment
  | .marker moment _ => moment

namespace Movie

def empty (name : String) (fps : K) : Movie K :=
  ⟨name, ⟨fps⟩, none, [], [], [], [], [], []⟩

def actor? (m : Movie K) (name : String) : Option (Actor K) :=
  m.actors.find? (·.name = name)

def camera? (m : Movie K) (name : String) : Option (Camera K) :=
  m.cameras.find? (·.name = name)

def spline? (m : Movie K) (name : String) : Option (Spline K) :=
  m.splines.find? (·.name = name)

/-- The sequences in script order, with groups taken apart. -/
def sequences (m : Movie K) : List (Block K) :=
  m.script.flatMap Block.flatten

def commandsFor (m : Movie K) (actor : String) : List (Command K) :=
  m.sequences.flatMap fun
    | .actor s => if s.actor = actor then s.commands else []
    | _ => []

end Movie

section Defaults

variable [Scalar K]

def Actor.named (name : String) : Actor K where
  name := name
  location := Vec3.zero
  initialYaw := 0
  yawOffset := 0
  radius := Distance.meters 0.35
  height := Distance.meters 1.8
  mesh := none

def Camera.named (name : String) : Camera K where
  name := name
  location := Vec3.zero
  rotation := Rotator.level
  focalLength := 35
  sensorHeight := 24
  attachment := none
  autoZoom := none

def Light.named (name : String) (kind : LightKind) : Light K where
  name := name
  kind := kind
  location := Vec3.zero
  rotation := Rotator.level
  intensity := 5000
  color := ⟨1, 1, 1⟩

def Spline.named (name : String) (points : List (Vec3 K)) : Spline K where
  name := name
  points := points
  closed := false
  tension := 0.5

/-- A turn takes a second unless stated. -/
def FaceCommand.standardDuration : TimeSpan K := TimeSpan.seconds 1

end Defaults

end Stagecraft
