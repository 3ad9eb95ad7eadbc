import Stagecraft.Json.Basic
import Stagecraft.Movie.Basic

/-!
# Movies as JSON

Records are written with their fields in the order of declaration, an optional field only when it
has a value, and alternatives with their tag in front.
-/

namespace Stagecraft

variable {K : Type}

/-- A member for an optional field: none when it has no value. -/
def Json.optional {α : Type} (name : String) (encode : α → Json K) :
    Option α → List (String × Json K)
  | some a => [(name, encode a)]
  | none => []

namespace DistanceUnit

def name : DistanceUnit → String
  | meters => "meters"
  | centimeters => "centimeters"
  | kilometers => "kilometers"
  | feet => "feet"

def all : List DistanceUnit := [meters, centimeters, kilometers, feet]

end DistanceUnit

namespace TimeUnit

def name : TimeUnit → String
  | seconds => "seconds"
  | minutes => "minutes"
  | hours => "hours"

def all : List TimeUnit := [seconds, minutes, hours]

end TimeUnit

namespace SpeedUnit

def name : SpeedUnit → String
  | metersPerSecond => "meters_per_second"
  | centimetersPerSecond => "centimeters_per_second"
  | kilometersPerHour => "kilometers_per_hour"
  | milesPerHour => "miles_per_hour"

def all : List SpeedUnit :=
  [metersPerSecond, centimetersPerSecond, kilometersPerHour, milesPerHour]

end SpeedUnit

def Distance.toJson (d : Distance K) : Json K :=
  .obj [("value", .ofReal d.value), ("unit", .str d.unit.name)]

def TimeSpan.toJson (t : TimeSpan K) : Json K :=
  .obj [("value", .ofReal t.value), ("unit", .str t.unit.name)]

def Speed.toJson (v : Speed K) : Json K :=
  .obj [("value", .ofReal v.value), ("unit", .str v.unit.name)]

def Acceleration.toJson (a : Acceleration K) : Json K :=
  .obj [("mps2", .ofReal a.mps2)]

def Vec3.toJson (v : Vec3 K) : Json K :=
  .obj [("x", .ofReal v.x), ("y", .ofReal v.y), ("z", .ofReal v.z)]

def Rotator.toJson (r : Rotator K) : Json K :=
  .obj [("pitch", .ofReal r.pitch), ("yaw", .ofReal r.yaw), ("roll", .ofReal r.roll)]

def Direction.toJson (d : Direction) : Json K := .str d.name

def FrameRate.toJson (r : FrameRate K) : Json K := .ofReal r.fps

def MotionSpec.toJson (s : MotionSpec K) : Json K :=
  .obj (Json.optional "distance" Distance.toJson s.distance ++
    Json.optional "duration" TimeSpan.toJson s.duration ++
    Json.optional "start_speed" Speed.toJson s.startSpeed ++
    Json.optional "end_speed" Speed.toJson s.endSpeed ++
    Json.optional "acceleration" Acceleration.toJson s.acceleration)

def Corridor.toJson (c : Corridor K) : Json K :=
  .obj [("left", c.left.toJson), ("right", c.right.toJson)]

def Clip.toJson (c : Clip K) : Json K :=
  .obj [("name", .str c.name), ("speed_multiplier", .ofReal c.speedMultiplier)]

def FaceTarget.toJson : FaceTarget K → Json K
  | .direction d offset =>
    .obj ([("kind", .str "direction"), ("direction", d.toJson)] ++
      Json.optional "offset" .ofReal offset)
  | .yaw degrees => .obj [("kind", .str "yaw"), ("degrees", .ofReal degrees)]
  | .actor name => .obj [("kind", .str "actor"), ("name", .str name)]

def StayLength.toJson : StayLength K → Json K
  | .lasting span => .obj [("for", span.toJson)]
  | .waiting moment => .obj [("until", moment.toJson)]
  | .tillEnd => .str "till_end"

def Command.toJson (c : Command K) : Json K :=
  let fields : List (String × Json K) :=
    match c with
    | .move c =>
      [("direction", c.direction.toJson)] ++
        Json.optional "direction_offset" .ofReal c.directionOffset ++
        [("motion", c.motion.toJson)] ++
        Json.optional "corridor" Corridor.toJson c.corridor ++
        Json.optional "animation" Clip.toJson c.animation
    | .face c =>
      [("target", c.target.toJson), ("duration", c.duration.toJson)] ++
        Json.optional "animation" Clip.toJson c.animation
    | .stay c =>
      [("duration", c.length.toJson)] ++ Json.optional "animation" Clip.toJson c.animation
    | .follow c =>
      [("spline", .str c.spline), ("motion", c.motion.toJson)] ++
        Json.optional "range_start" Distance.toJson c.rangeStart ++
        Json.optional "range_end" Distance.toJson c.rangeEnd ++
        [("reverse", .bool c.reverse)] ++
        Json.optional "animation" Clip.toJson c.animation
  .obj (("type", .str c.kind) :: fields)

def CameraCommand.toJson (c : CameraCommand K) : Json K :=
  let fields : List (String × Json K) :=
    match c with
    | .lookAt subject heightPct | .autoFocus subject heightPct =>
      [("subject", .str subject)] ++ Json.optional "height_pct" .ofReal heightPct
    | .autoZoom subject occupancy minFocal maxFocal =>
      [("subject", .str subject)] ++ Json.optional "occupancy" .ofReal occupancy ++
        Json.optional "min_focal" .ofReal minFocal ++ Json.optional "max_focal" .ofReal maxFocal
    | .setFocalLength mm => [("mm", .ofReal mm)]
    | .stopTracking => []
    | .hold duration => [("duration", duration.toJson)]
  .obj (("type", .str c.kind) :: fields)

def Actor.toJson (a : Actor K) : Json K :=
  .obj ([("name", .str a.name), ("location", a.location.toJson),
      ("initial_yaw", .ofReal a.initialYaw), ("yaw_offset", .ofReal a.yawOffset),
      ("radius", a.radius.toJson), ("height", a.height.toJson)] ++
    Json.optional "mesh" .str a.mesh)

def Attachment.toJson (a : Attachment K) : Json K :=
  .obj ([("actor", .str a.actor)] ++ Json.optional "socket" .str a.socket ++
    [("offset", a.offset.toJson), ("rotation", a.rotation.toJson)])

def ZoomConfig.toJson (z : ZoomConfig K) : Json K :=
  .obj [("target_occupancy", .ofReal z.occupancy), ("min_focal", .ofReal z.minFocal),
    ("max_focal", .ofReal z.maxFocal)]

def Camera.toJson (c : Camera K) : Json K :=
  .obj ([("name", .str c.name), ("location", c.location.toJson), ("rotation", c.rotation.toJson),
      ("focal_length", .ofReal c.focalLength), ("sensor_height_mm", .ofReal c.sensorHeight)] ++
    Json.optional "attachment" Attachment.toJson c.attachment ++
    Json.optional "auto_zoom" ZoomConfig.toJson c.autoZoom)

def Light.toJson (l : Light K) : Json K :=
  .obj [("name", .str l.name), ("kind", .str l.kind.name), ("location", l.location.toJson),
    ("rotation", l.rotation.toJson), ("intensity", .ofReal l.intensity),
    ("color", .arr [.ofReal l.color.x, .ofReal l.color.y, .ofReal l.color.z])]

def Spline.toJson (s : Spline K) : Json K :=
  .obj [("name", .str s.name), ("points", .arr (s.points.map Vec3.toJson)),
    ("closed", .bool s.closed), ("tension", .ofReal s.tension)]

mutual

def Block.toJson : Block K → Json K
  | .actor s =>
    .obj [("block", .str "actor"), ("actor", .str s.actor),
      ("commands", .arr (s.commands.map Command.toJson))]
  | .camera s =>
    .obj [("block", .str "camera"), ("camera", .str s.camera),
      ("commands", .arr (s.commands.map CameraCommand.toJson))]
  | .simultaneous members =>
    .obj [("block", .str "simultaneous"), ("members", .arr (Block.listToJson members))]

def Block.listToJson : List (Block K) → List (Json K)
  | [] => []
  | b :: rest => b.toJson :: Block.listToJson rest

end

def TimelineEvent.toJson : TimelineEvent K → Json K
  | .cameraCut moment camera =>
    .obj [("type", .str "camera_cut"), ("at", moment.toJson), ("camera", .str camera)]
  | .marker moment label =>
    .obj [("type", .str "marker"), ("at", moment.toJson), ("label", .str label)]

def Movie.toJson (m : Movie K) : Json K :=
  .obj ([("name", .str m.name), ("fps", m.fps.toJson)] ++
    Json.optional "duration" TimeSpan.toJson m.duration ++
    [("actors", .arr (m.actors.map Actor.toJson)),
      ("cameras", .arr (m.cameras.map Camera.toJson)),
      ("lights", .arr (m.lights.map Light.toJson)),
      ("splines", .arr (m.splines.map Spline.toJson)),
      ("script", .arr (Block.listToJson m.script)),
      ("timeline", .arr (m.timeline.map TimelineEvent.toJson))])

end Stagecraft
