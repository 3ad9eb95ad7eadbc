import Stagecraft.Heading
import Stagecraft.Units

/-!
# Commands

Actors move, turn, wait and follow curves; cameras aim, focus, zoom and wait. A command states
what its author knows, and whatever it leaves open is found out when the movie is planned.
-/

namespace Stagecraft

variable {K : Type}

/-- The quantities of a motion that are stated; the others follow from them. -/
structure MotionSpec (K : Type) where
  distance : Option (Distance K) := none
  duration : Option (TimeSpan K) := none
  startSpeed : Option (Speed K) := none
  endSpeed : Option (Speed K) := none
  acceleration : Option (Acceleration K) := none
  deriving BEq

/-- Nothing is stated. -/
def MotionSpec.isEmpty (s : MotionSpec K) : Bool :=
  s.distance.isNone && s.duration.isNone && s.startSpeed.isNone && s.endSpeed.isNone &&
    s.acceleration.isNone

/-- A lane for a straight move, between two offsets along its right-hand perpendicular. -/
structure Corridor (K : Type) where
  left : Distance K
  right : Distance K
  deriving BEq

structure Clip (K : Type) where
  name : String
  speedMultiplier : K
  deriving BEq

def Clip.named [Scalar K] (name : String) : Clip K := ⟨name, 1⟩

structure MoveCommand (K : Type) where
  direction : Direction
  directionOffset : Option K
  motion : MotionSpec K
  corridor : Option (Corridor K)
  animation : Option (Clip K)
  deriving BEq

inductive FaceTarget (K : Type) where
  | direction (d : Direction) (offset : Option K)
  | yaw (degrees : K)
  | actor (name : String)
  deriving BEq

structure FaceCommand (K : Type) where
  target : FaceTarget K
  duration : TimeSpan K
  animation : Option (Clip K)
  deriving BEq

/-- How long an actor stays: for a time, until a moment of the movie, or to the movie's last
frame. -/
inductive StayLength (K : Type) where
  | lasting (span : TimeSpan K)
  | waiting (moment : TimeSpan K)
  | tillEnd
  deriving BEq

structure StayCommand (K : Type) where
  length : StayLength K
  animation : Option (Clip K)
  deriving BEq

/-- Travel along a spline, over all of it or over the range between two arclengths. -/
structure FollowCommand (K : Type) where
  spline : String
  motion : MotionSpec K
  rangeStart : Option (Distance K)
  rangeEnd : Option (Distance K)
  reverse : Bool
  animation : Option (Clip K)
  deriving BEq

inductive Command (K : Type) where
  | move (c : MoveCommand K)
  | face (c : FaceCommand K)
  | stay (c : StayCommand K)
  | follow (c : FollowCommand K)
  deriving BEq

/-- One step of a camera. Heights are fractions of the subject's height. -/
inductive CameraCommand (K : Type) where
  | lookAt (subject : String) (heightPct : Option K)
  | autoFocus (subject : String) (heightPct : Option K)
  | autoZoom (subject : String) (occupancy minFocal maxFocal : Option K)
  | setFocalLength (mm : K)
  | stopTracking
  | hold (duration : TimeSpan K)
  deriving BEq

namespace Command

def kind : Command K → String
  | .move _ => "move"
  | .face _ => "face"
  | .stay _ => "stay"
  | .follow _ => "follow_spline"

def kinds : List String := ["move", "face", "stay", "follow_spline"]

def animation : Command K → Option (Clip K)
  | .move c => c.animation
  | .face c => c.animation
  | .stay c => c.animation
  | .follow c => c.animation

def isTillEnd : Command K → Bool
  | .stay ⟨.tillEnd, _⟩ => true
  | _ => false

end Command

namespace CameraCommand

def kind : CameraCommand K → String
  | .lookAt _ _ => "look_at"
  | .autoFocus _ _ => "auto_focus"
  | .autoZoom _ _ _ _ => "auto_zoom"
  | .setFocalLength _ => "set_focal_length"
  | .stopTracking => "stop_tracking"
  | .hold _ => "hold"

def kinds : List String :=
  ["look_at", "auto_focus", "auto_zoom", "set_focal_length", "stop_tracking", "hold"]

/-- The actor a command tracks. -/
def subject? : CameraCommand K → Option String
  | .lookAt subject _ => some subject
  | .autoFocus subject _ => some subject
  | .autoZoom subject _ _ _ => some subject
  | _ => none

end CameraCommand

end Stagecraft
