import Stagecraft.Movie.Basic

/-!
# Composing movies

Movies can be put together in code. Entities, commands and scripts start from a plain value and
are refined step by step; each step takes the value it refines first, so that steps chain.
-/

namespace Stagecraft

variable {K : Type}

namespace Actor

def placedAt (a : Actor K) (location : Vec3 K) : Actor K := { a with location }

def facing (a : Actor K) (yaw : K) : Actor K := { a with initialYaw := yaw }

def withYawOffset (a : Actor K) (offset : K) : Actor K := { a with yawOffset := offset }

def withRadius (a : Actor K) (radius : Distance K) : Actor K := { a with radius }

def withHeight (a : Actor K) (height : Distance K) : Actor K := { a with height }

def withMesh (a : Actor K) (mesh : String) : Actor K := { a with mesh := some mesh }

end Actor

namespace Camera

def placedAt (c : Camera K) (location : Vec3 K) : Camera K := { c with location }

def withRotation (c : Camera K) (rotation : Rotator K) : Camera K := { c with rotation }

def withFocalLength (c : Camera K) (mm : K) : Camera K := { c with focalLength := mm }

def withSensorHeight (c : Camera K) (mm : K) : Camera K := { c with sensorHeight := mm }

/-- Attached to an actor, without a turn against it. -/
def attachedTo [Scalar K] (c : Camera K) (actor : String) (offset : Vec3 K) : Camera K :=
  { c with attachment := some ⟨actor, none, offset, Rotator.level⟩ }

def withAutoZoom (c : Camera K) (occupancy minFocal maxFocal : K) : Camera K :=
  { c with autoZoom := some ⟨occupancy, minFocal, maxFocal⟩ }

end Camera

namespace Light

def placedAt (l : Light K) (location : Vec3 K) : Light K := { l with location }

def withRotation (l : Light K) (rotation : Rotator K) : Light K := { l with rotation }

def withIntensity (l : Light K) (intensity : K) : Light K := { l with intensity }

def withColor (l : Light K) (color : Vec3 K) : Light K := { l with color }

end Light

namespace Spline

/-- The last point leads back to the first. -/
def close (s : Spline K) : Spline K := { s with closed := true }

def withTension (s : Spline K) (tension : K) : Spline K := { s with tension }

end Spline

def MotionSpec.over (s : MotionSpec K) (distance : Distance K) : MotionSpec K :=
  { s with distance := some distance }

namespace MotionSpec

def lasting (s : MotionSpec K) (duration : TimeSpan K) : MotionSpec K :=
  { s with duration := some duration }

/-- From a speed on, which is kept unless something else is stated. -/
def atSpeed (s : MotionSpec K) (speed : Speed K) : MotionSpec K :=
  { s with startSpeed := some speed }

def reaching (s : MotionSpec K) (speed : Speed K) : MotionSpec K :=
  { s with endSpeed := some speed }

def accelerating (s : MotionSpec K) (acceleration : Acceleration K) : MotionSpec K :=
  { s with acceleration := some acceleration }

def ramp (s : MotionSpec K) (first last : Speed K) : MotionSpec K :=
  (s.atSpeed first).reaching last

end MotionSpec

namespace MoveCommand

def toward (d : Direction) : MoveCommand K := ⟨d, none, {}, none, none⟩

def withOffset (c : MoveCommand K) (degrees : K) : MoveCommand K :=
  { c with directionOffset := some degrees }

def withMotion (c : MoveCommand K) (refine_ : MotionSpec K → MotionSpec K) : MoveCommand K :=
  { c with motion := refine_ c.motion }

def within (c : MoveCommand K) (corridor : Corridor K) : MoveCommand K :=
  { c with corridor := some corridor }

def playing (c : MoveCommand K) (clip : Clip K) : MoveCommand K :=
  { c with animation := some clip }

end MoveCommand

/-- The same target seen at an angle; only directions have one. -/
def FaceTarget.withOffset (t : FaceTarget K) (degrees : K) : FaceTarget K :=
  match t with
  | .direction d _ => .direction d (some degrees)
  | t => t

def FaceCommand.to [Scalar K] (target : FaceTarget K) : FaceCommand K :=
  ⟨target, standardDuration, none⟩

namespace FaceCommand

def withOffset (c : FaceCommand K) (degrees : K) : FaceCommand K :=
  { c with target := c.target.withOffset degrees }

def lasting (c : FaceCommand K) (duration : TimeSpan K) : FaceCommand K := { c with duration }

def playing (c : FaceCommand K) (clip : Clip K) : FaceCommand K :=
  { c with animation := some clip }

end FaceCommand

def StayCommand.playing (c : StayCommand K) (clip : Clip K) : StayCommand K :=
  { c with animation := some clip }

namespace FollowCommand

def along (spline : String) : FollowCommand K := ⟨spline, {}, none, none, false, none⟩

def withMotion (c : FollowCommand K) (refine_ : MotionSpec K → MotionSpec K) : FollowCommand K :=
  { c with motion := refine_ c.motion }

def between (c : FollowCommand K) (first last : Distance K) : FollowCommand K :=
  { c with rangeStart := some first, rangeEnd := some last }

def backward (c : FollowCommand K) : FollowCommand K := { c with reverse := true }

def playing (c : FollowCommand K) (clip : Clip K) : FollowCommand K :=
  { c with animation := some clip }

end FollowCommand

def Command.playing (c : Command K) (clip : Clip K) : Command K :=
  match c with
  | .move c => .move (c.playing clip)
  | .face c => .face (c.playing clip)
  | .stay c => .stay (c.playing clip)
  | .follow c => .follow (c.playing clip)

namespace ActorSequence

def blank (actor : String) : ActorSequence K := ⟨actor, []⟩

def andThen (s : ActorSequence K) (c : Command K) : ActorSequence K :=
  { s with commands := s.commands ++ [c] }

def move (s : ActorSequence K) (c : MoveCommand K) : ActorSequence K := s.andThen (.move c)

def turn (s : ActorSequence K) (c : FaceCommand K) : ActorSequence K := s.andThen (.face c)

def face [Scalar K] (s : ActorSequence K) (d : Direction) : ActorSequence K :=
  s.turn (.to (.direction d none))

def faceActor [Scalar K] (s : ActorSequence K) (name : String) : ActorSequence K :=
  s.turn (.to (.actor name))

def stay (s : ActorSequence K) (length : StayLength K) : ActorSequence K :=
  s.andThen (.stay ⟨length, none⟩)

def follow (s : ActorSequence K) (c : FollowCommand K) : ActorSequence K := s.andThen (.follow c)

/-- The last command plays a clip; without a command nothing does. -/
def playing (s : ActorSequence K) (clip : Clip K) : ActorSequence K :=
  match s.commands.getLast? with
  | some c => { s with commands := s.commands.dropLast ++ [c.playing clip] }
  | none => s

end ActorSequence

namespace CameraSequence

def blank (camera : String) : CameraSequence K := ⟨camera, []⟩

def andThen (s : CameraSequence K) (c : CameraCommand K) : CameraSequence K :=
  { s with commands := s.commands ++ [c] }

def lookAt (s : CameraSequence K) (subject : String) : CameraSequence K :=
  s.andThen (.lookAt subject none)

def autoFocus (s : CameraSequence K) (subject : String) : CameraSequence K :=
  s.andThen (.autoFocus subject none)

def autoZoom (s : CameraSequence K) (subject : String) : CameraSequence K :=
  s.andThen (.autoZoom subject none none none)

/-- Aims at a subject, focuses on it and zooms to it. -/
def track (s : CameraSequence K) (subject : String) : CameraSequence K :=
  ((s.lookAt subject).autoFocus subject).autoZoom subject

end CameraSequence

namespace Movie

def lasting (m : Movie K) (duration : TimeSpan K) : Movie K := { m with duration := some duration }

def withActor (m : Movie K) (a : Actor K) : Movie K := { m with actors := m.actors ++ [a] }

def withCamera (m : Movie K) (c : Camera K) : Movie K := { m with cameras := m.cameras ++ [c] }

def withLight (m : Movie K) (l : Light K) : Movie K := { m with lights := m.lights ++ [l] }

def withSpline (m : Movie K) (s : Spline K) : Movie K := { m with splines := m.splines ++ [s] }

def play (m : Movie K) (b : Block K) : Movie K := { m with script := m.script ++ [b] }

def withEvent (m : Movie K) (e : TimelineEvent K) : Movie K :=
  { m with timeline := m.timeline ++ [e] }

def cutTo (m : Movie K) (moment : TimeSpan K) (camera : String) : Movie K :=
  m.withEvent (.cameraCut moment camera)

def mark (m : Movie K) (moment : TimeSpan K) (label : String) : Movie K :=
  m.withEvent (.marker moment label)

end Movie

end Stagecraft
