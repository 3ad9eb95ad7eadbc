import Stagecraft.Diagnostic
import Stagecraft.Motion
import Stagecraft.Movie.Encoding
import Stagecraft.Track

/-!
# Reels

A reel is a movie that has been planned to the frame: tracks for every actor and camera, events at
frames, and what was found on the way.
-/

namespace Stagecraft

variable {K : Type}

/-- What planning finds without stopping. -/
inductive Finding (K : Type) where
  | motion (note : MotionNote K)
  | corridorWidened (declared radius widened : K)
  | faceTargetCoincides
  | travelOverruns (travel : K) (spline : String) (length : K)
  | tillEndTooLate
  | scriptsOverrun (declared extent : Nat)
  | eventTooLate (frame last : Nat)
  | zoomClamped (frames : Nat)
  deriving BEq

def Finding.message [Numeral K] : Finding K → String
  | .motion note => note.message
  | .corridorWidened declared radius widened =>
    "corridor " ++ Numeral.fixed 1 declared ++ "cm wide cannot hold radius " ++
      Numeral.fixed 1 radius ++ "cm, widened to " ++ Numeral.fixed 1 widened ++ "cm"
  | .faceTargetCoincides => "face target coincides with the actor, keeping current yaw"
  | .travelOverruns travel spline length =>
    "travel of " ++ Numeral.fixed 1 travel ++ "cm overruns open spline '" ++ spline ++ "' (" ++
      Numeral.fixed 1 length ++ "cm long)"
  | .tillEndTooLate => "till-end stay starts after the movie ends"
  | .scriptsOverrun declared extent =>
    "declared duration ends at frame " ++ toString declared ++ " but scripts run to frame " ++
      toString extent
  | .eventTooLate frame last =>
    "timeline event at frame " ++ toString frame ++ " falls after the last frame " ++
      toString last
  | .zoomClamped frames => "auto-zoom focal length clamped on " ++ toString frames ++ " frames"

structure ActorReel (K : Type) where
  actor : Actor K
  transform : TransformTrack K
  animation : AnimationTrack K

structure CameraReel (K : Type) where
  camera : Camera K
  transform : TransformTrack K
  settings : SettingsTrack K

inductive ReelEvent (K : Type) where
  | cameraCut (frame : Nat) (time : K) (camera : String)
  | marker (frame : Nat) (time : K) (label : String)
  deriving BEq

def ReelEvent.frame : ReelEvent K → Nat
  | .cameraCut frame _ _ => frame
  | .marker frame _ _ => frame

structure Reel (K : Type) where
  name : String
  fps : FrameRate K
  /-- The last frame of the movie. -/
  lastFrame : Nat
  actors : List (ActorReel K)
  cameras : List (CameraReel K)
  lights : List (Light K)
  timeline : List (ReelEvent K)
  diagnostics : List (Diagnostic (Finding K))

namespace Reel

def actor? (r : Reel K) (name : String) : Option (ActorReel K) :=
  r.actors.find? fun a => a.actor.name = name

def camera? (r : Reel K) (name : String) : Option (CameraReel K) :=
  r.cameras.find? fun c => c.camera.name = name

def messages [Numeral K] (r : Reel K) : List (Diagnostic String) :=
  r.diagnostics.map (Diagnostic.map Finding.message)

end Reel

def ActorReel.toJson (a : ActorReel K) : Json K :=
  .obj [("actor", a.actor.toJson), ("transform", a.transform.toJson TransformKey.toJson),
    ("animation", a.animation.toJson Segment.toJson)]

def CameraReel.toJson (c : CameraReel K) : Json K :=
  .obj [("camera", c.camera.toJson), ("transform", c.transform.toJson TransformKey.toJson),
    ("settings", c.settings.toJson SettingsKey.toJson)]

def ReelEvent.toJson : ReelEvent K → Json K
  | .cameraCut frame time camera =>
    .obj [("type", .str "camera_cut"), ("frame", .ofNat frame), ("time", .ofReal time),
      ("camera", .str camera)]
  | .marker frame time label =>
    .obj [("type", .str "marker"), ("frame", .ofNat frame), ("time", .ofReal time),
      ("label", .str label)]

end Stagecraft
