import Stagecraft.Digest.Content

/-!
# Manifests

The manifest of an exported movie lists its entities and carries the digest of its tracks. Beside
it every entity has settings: what an engine needs to know of it apart from the tracks. Lengths
are in centimeters.
-/

namespace Stagecraft

variable {K : Type}

structure Manifest (K : Type) where
  name : String
  fps : K
  lastFrame : Nat
  actors : List String
  cameras : List String
  lights : List String
  contentHash : String
  deriving BEq

def Reel.manifest [Numeral K] (r : Reel K) : Manifest K where
  name := r.name
  fps := r.fps.fps
  lastFrame := r.lastFrame
  actors := r.actors.map (·.actor.name)
  cameras := r.cameras.map (·.camera.name)
  lights := r.lights.map (·.name)
  contentHash := r.contentHash

def Manifest.toJson (m : Manifest K) : Json K :=
  .obj [("name", .str m.name), ("fps", .ofReal m.fps), ("duration_frames", .ofNat m.lastFrame),
    ("actor_list", .arr (m.actors.map .str)), ("camera_list", .arr (m.cameras.map .str)),
    ("light_list", .arr (m.lights.map .str)), ("content_hash", .str m.contentHash)]

def Actor.settingsJson [Scalar K] (a : Actor K) : Json K :=
  .obj ([("name", .str a.name)] ++ Json.optional "mesh" .str a.mesh ++
    [("yaw_offset", .ofReal a.yawOffset), ("radius", .ofReal a.radius.internal),
      ("height", .ofReal a.height.internal)])

def Camera.settingsJson (c : Camera K) : Json K :=
  .obj ([("name", .str c.name), ("sensor_height_mm", .ofReal c.sensorHeight),
      ("focal_length", .ofReal c.focalLength)] ++
    Json.optional "attachment" Attachment.toJson c.attachment ++
    Json.optional "auto_zoom" ZoomConfig.toJson c.autoZoom)

end Stagecraft
