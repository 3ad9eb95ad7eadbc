import Stagecraft.Export.Folder
import Stagecraft.Export.Manifest
import Stagecraft.Files.Tree

/-!
# The layout of an export

An exported movie is a folder with the manifest and the timeline on top and a folder for every
entity. The layout says which files there are and what they hold, and the steps of an export put
it in place of whatever stood there before.
-/

namespace Stagecraft

variable {K : Type}

structure EntityFiles (K : Type) where
  name : String
  files : List (String × Json K)

namespace Reel

def topFiles [Numeral K] (r : Reel K) : List (String × Json K) :=
  [("manifest.json", r.manifest.toJson),
    ("timeline.json", .arr (r.timeline.map ReelEvent.toJson))]

def entityFiles [Scalar K] (r : Reel K) : List (EntityFiles K) :=
  (r.actors.map fun a =>
    ⟨a.actor.name, [("transform.json", a.transform.toJson TransformKey.toJson),
      ("animation.json", a.animation.toJson Segment.toJson),
      ("settings.json", a.actor.settingsJson)]⟩) ++
  (r.cameras.map fun c =>
    ⟨c.camera.name, [("transform.json", c.transform.toJson TransformKey.toJson),
      ("camera_settings.json", c.settings.toJson SettingsKey.toJson),
      ("settings.json", c.camera.settingsJson)]⟩) ++
  (r.lights.map fun l => ⟨l.name, [("settings.json", l.toJson)]⟩)

def entityNames (r : Reel K) : List String :=
  r.actors.map (·.actor.name) ++ r.cameras.map (·.camera.name) ++ r.lights.map (·.name)

end Reel

def writeSteps [Numeral K] (style : Json.Style) (directory : Path)
    (files : List (String × Json K)) : List FileStep :=
  files.map fun f => .write (directory.child f.1) (f.2.render style)

def EntityFiles.steps [Numeral K] (style : Json.Style) (directory : Path) (e : EntityFiles K) :
    List FileStep :=
  let folder := directory.child (folderName e.name)
  .makeDirectories folder :: writeSteps style folder e.files

/-- The steps that export a movie to a directory, after clearing it. -/
def Reel.exportSteps [Scalar K] [Numeral K] (r : Reel K) (style : Json.Style) (directory : Path) :
    List FileStep :=
  [.clear directory, .makeDirectories directory] ++ writeSteps style directory r.topFiles ++
    r.entityFiles.flatMap (EntityFiles.steps style directory)

end Stagecraft
