import Stagecraft.Json.Parser
import Stagecraft.Json.Record
import Stagecraft.Movie.Encoding

/-!
# Movies from JSON

Every record is read field by field, and whatever may be left out has its default here. Before a
movie is read, the tags of its commands are checked on the bare JSON, so that a misspelled command
is reported with its entity and its place among the commands to that entity.
-/

namespace Stagecraft

open Json (Reader)
open Json.Reader (field field? fieldD)

variable {K : Type} [Scalar K]

def Json.named {α : Type} (nested : Bool) (name : α → String) (values : List α) :
    Json K → Option α :=
  Json.oneOf nested (values.map fun a => (name a, a))

def Distance.ofJson (nested : Bool) : Json K → Option (Distance K) :=
  Json.record do
    return ⟨← field "value" Json.real?,
      ← field "unit" (Json.named nested DistanceUnit.name DistanceUnit.all)⟩

def TimeSpan.ofJson (nested : Bool) : Json K → Option (TimeSpan K) :=
  Json.record do
    return ⟨← field "value" Json.real?,
      ← field "unit" (Json.named nested TimeUnit.name TimeUnit.all)⟩

def Speed.ofJson (nested : Bool) : Json K → Option (Speed K) :=
  Json.record do
    return ⟨← field "value" Json.real?,
      ← field "unit" (Json.named nested SpeedUnit.name SpeedUnit.all)⟩

def Acceleration.ofJson : Json K → Option (Acceleration K) :=
  Json.record do
    return ⟨← field "mps2" Json.real?⟩

def Vec3.ofJson : Json K → Option (Vec3 K) :=
  Json.record do
    return ⟨← field "x" Json.real?, ← field "y" Json.real?, ← field "z" Json.real?⟩

def Rotator.ofJson : Json K → Option (Rotator K) :=
  Json.record do
    return ⟨← field "pitch" Json.real?, ← field "yaw" Json.real?, ← field "roll" Json.real?⟩

/-- Three numbers in a list. -/
def Vec3.ofColor : Json K → Option (Vec3 K)
  | .arr [r, g, b] => do return ⟨← r.real?, ← g.real?, ← b.real?⟩
  | _ => none

def FrameRate.ofJson (j : Json K) : Option (FrameRate K) :=
  FrameRate.mk <$> j.real?

def Direction.ofJson (nested : Bool) : Json K → Option Direction :=
  Json.named nested Direction.name Direction.all

def MotionSpec.ofJson (nested : Bool) : Json K → Option (MotionSpec K) :=
  Json.record do
    return ⟨← field? "distance" (Distance.ofJson nested),
      ← field? "duration" (TimeSpan.ofJson nested),
      ← field? "start_speed" (Speed.ofJson nested),
      ← field? "end_speed" (Speed.ofJson nested),
      ← field? "acceleration" Acceleration.ofJson⟩

def Corridor.ofJson (nested : Bool) : Json K → Option (Corridor K) :=
  Json.record do
    return ⟨← field "left" (Distance.ofJson nested), ← field "right" (Distance.ofJson nested)⟩

def Clip.ofJson : Json K → Option (Clip K) :=
  Json.record do
    return ⟨← field "name" Json.text?, ← fieldD "speed_multiplier" 1 Json.real?⟩

def FaceTarget.ofJson (nested : Bool) : Json K → Option (FaceTarget K) :=
  Json.choice nested "kind" [
    ("direction", do
      return .direction (← field "direction" (Direction.ofJson true)) (← field? "offset" Json.real?)),
    ("yaw", do return .yaw (← field "degrees" Json.real?)),
    ("actor", do return .actor (← field "name" Json.text?))]

/-- A length of a stay is a name, or an object whose only member names it. -/
def StayLength.ofJson (nested : Bool) : Json K → Option (StayLength K)
  | .str name => if name = "till_end" then some .tillEnd else none
  | .obj members => do
    let (name, v) ← Json.onlyMember? members
    if name = "for" then StayLength.lasting <$> TimeSpan.ofJson nested v
    else if name = "until" then StayLength.waiting <$> TimeSpan.ofJson nested v
    else if name = "till_end" ∧ v.isEmpty nested then some .tillEnd
    else none
  | _ => none

def Command.ofJson (nested : Bool) : Json K → Option (Command K) :=
  Json.choice nested "type" [
    ("move", do
      return .move ⟨← fieldD "direction" .forward (Direction.ofJson true),
        ← field? "direction_offset" Json.real?,
        ← field "motion" (MotionSpec.ofJson true),
        ← field? "corridor" (Corridor.ofJson true),
        ← field? "animation" Clip.ofJson⟩),
    ("face", do
      return .face ⟨← field "target" (FaceTarget.ofJson true),
        ← fieldD "duration" FaceCommand.standardDuration (TimeSpan.ofJson true),
        ← field? "animation" Clip.ofJson⟩),
    ("stay", do
      return .stay ⟨← field "duration" (StayLength.ofJson true),
        ← field? "animation" Clip.ofJson⟩),
    ("follow_spline", do
      return .follow ⟨← field "spline" Json.text?,
        ← fieldD "motion" {} (MotionSpec.ofJson true),
        ← field? "range_start" (Distance.ofJson true),
        ← field? "range_end" (Distance.ofJson true),
        ← fieldD "reverse" false Json.bool?,
        ← field? "animation" Clip.ofJson⟩)]

def CameraCommand.ofJson (nested : Bool) : Json K → Option (CameraCommand K) :=
  Json.choice nested "type" [
    ("look_at", do
      return .lookAt (← field "subject" Json.text?) (← field? "height_pct" Json.real?)),
    ("auto_focus", do
      return .autoFocus (← field "subject" Json.text?) (← field? "height_pct" Json.real?)),
    ("auto_zoom", do
      return .autoZoom (← field "subject" Json.text?) (← field? "occupancy" Json.real?)
        (← field? "min_focal" Json.real?) (← field? "max_focal" Json.real?)),
    ("set_focal_length", do return .setFocalLength (← field "mm" Json.real?)),
    ("stop_tracking", pure .stopTracking),
    ("hold", do return .hold (← field "duration" (TimeSpan.ofJson true)))]

def Actor.ofJson : Json K → Option (Actor K) :=
  let standard : Actor K := Actor.named ""
  Json.record do
    return ⟨← field "name" Json.text?,
      ← field "location" Vec3.ofJson,
      ← fieldD "initial_yaw" standard.initialYaw Json.real?,
      ← fieldD "yaw_offset" standard.yawOffset Json.real?,
      ← fieldD "radius" standard.radius (Distance.ofJson false),
      ← fieldD "height" standard.height (Distance.ofJson false),
      ← field? "mesh" Json.text?⟩

def Attachment.ofJson : Json K → Option (Attachment K) :=
  Json.record do
    return ⟨← field "actor" Json.text?,
      ← field? "socket" Json.text?,
      ← fieldD "offset" Vec3.zero Vec3.ofJson,
      ← fieldD "rotation" Rotator.level Rotator.ofJson⟩

def ZoomConfig.ofJson : Json K → Option (ZoomConfig K) :=
  Json.record do
    return ⟨← field "target_occupancy" Json.real?, ← field "min_focal" Json.real?,
      ← field "max_focal" Json.real?⟩

def Camera.ofJson : Json K → Option (Camera K) :=
  let standard : Camera K := Camera.named ""
  Json.record do
    return ⟨← field "name" Json.text?,
      ← field "location" Vec3.ofJson,
      ← fieldD "rotation" standard.rotation Rotator.ofJson,
      ← fieldD "focal_length" standard.focalLength Json.real?,
      ← fieldD "sensor_height_mm" standard.sensorHeight Json.real?,
      ← field? "attachment" Attachment.ofJson,
      ← field? "auto_zoom" ZoomConfig.ofJson⟩

def Light.ofJson : Json K → Option (Light K) :=
  let standard : Light K := Light.named "" .point
  Json.record do
    return ⟨← field "name" Json.text?,
      ← field "kind" (Json.named false LightKind.name LightKind.all),
      ← fieldD "location" standard.location Vec3.ofJson,
      ← fieldD "rotation" standard.rotation Rotator.ofJson,
      ← fieldD "intensity" standard.intensity Json.real?,
      ← fieldD "color" standard.color Vec3.ofColor⟩

def Spline.ofJson : Json K → Option (Spline K) :=
  let standard : Spline K := Spline.named "" []
  Json.record do
    return ⟨← field "name" Json.text?,
      ← field "points" (Json.list? Vec3.ofJson),
      ← fieldD "closed" standard.closed Json.bool?,
      ← fieldD "tension" standard.tension Json.real?⟩

/-- Reads a unit of the script. A unit of `n + 1` levels holds units of at most `n`. -/
def Block.ofLevels (nested : Bool) : Nat → Json K → Option (Block K)
  | 0, _ => none
  | n + 1, j =>
    Json.choice nested "block" [
      ("actor", do
        return .actor ⟨← field "actor" Json.text?,
          ← field "commands" (Json.list? (Command.ofJson true))⟩),
      ("camera", do
        return .camera ⟨← field "camera" Json.text?,
          ← field "commands" (Json.list? (CameraCommand.ofJson true))⟩),
      ("simultaneous", do
        return .simultaneous (← field "members" (Json.list? (Block.ofLevels true n))))] j

def Block.ofJson (j : Json K) : Option (Block K) :=
  Block.ofLevels false j.depth j

def TimelineEvent.ofJson : Json K → Option (TimelineEvent K) :=
  Json.choice false "type" [
    ("camera_cut", do
      return .cameraCut (← field "at" (TimeSpan.ofJson true)) (← field "camera" Json.text?)),
    ("marker", do
      return .marker (← field "at" (TimeSpan.ofJson true)) (← field "label" Json.text?))]

def Movie.ofJson : Json K → Option (Movie K) :=
  Json.record do
    return ⟨← field "name" Json.text?,
      ← field "fps" FrameRate.ofJson,
      ← field? "duration" (TimeSpan.ofJson false),
      ← fieldD "actors" [] (Json.list? Actor.ofJson),
      ← fieldD "cameras" [] (Json.list? Camera.ofJson),
      ← fieldD "lights" [] (Json.list? Light.ofJson),
      ← fieldD "splines" [] (Json.list? Spline.ofJson),
      ← fieldD "script" [] (Json.list? Block.ofJson),
      ← fieldD "timeline" [] (Json.list? TimelineEvent.ofJson)⟩

end Stagecraft
