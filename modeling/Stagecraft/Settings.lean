import Stagecraft.Plan.Basic
import Stagecraft.Toml.Reader
import Stagecraft.Toml.Writer

/-!
# Settings

A project keeps its settings in a file. A section that is missing has its defaults; one that is
there must be complete. The settings decide the options movies are planned with.
-/

namespace Stagecraft

variable {K : Type}

structure ProjectSettings (K : Type) where
  defaultFps : K
  outputDir : String
  deriving BEq

/-- Settings of cameras. Lengths are in millimeters. -/
structure LensSettings (K : Type) where
  sensorHeight : K
  focalLength : K
  minFocal : K
  maxFocal : K
  occupancy : K
  heightPct : K
  deriving BEq

structure Settings (K : Type) where
  project : ProjectSettings K
  camera : LensSettings K
  anchor : Anchor
  samplesPerSegment : Nat
  logLevel : String
  deriving BEq

namespace Anchor

def name : Anchor → String
  | midpoint => "midpoint"
  | nearestEdge => "nearest_edge"

def title : Anchor → String
  | midpoint => "Midpoint"
  | nearestEdge => "NearestEdge"

def all : List Anchor := [midpoint, nearestEdge]

end Anchor

namespace Settings

def standard [Scalar K] : Settings K where
  project := ⟨30, "out"⟩
  camera := ⟨24, 35, 12, 300, 0.7, 0.7⟩
  anchor := .midpoint
  samplesPerSegment := 32
  logLevel := "info"

def options (s : Settings K) : PlanOptions K where
  anchor := s.anchor
  samplesPerSegment := s.samplesPerSegment
  minFocal := s.camera.minFocal
  maxFocal := s.camera.maxFocal
  occupancy := s.camera.occupancy
  heightPct := s.camera.heightPct

end Settings

def ProjectSettings.ofToml [Scalar K] (v : Toml.Value K) : Option (ProjectSettings K) := do
  match (← v.fields? ["default_fps", "output_dir"]) with
  | [some fps, some dir] => return ⟨← fps.real?, ← dir.text?⟩
  | _ => none

def LensSettings.ofToml [Scalar K] (v : Toml.Value K) : Option (LensSettings K) := do
  let fields ← v.fields? ["sensor_height_mm", "default_focal_length", "min_focal_length",
    "max_focal_length", "default_occupancy", "default_height_pct"]
  match fields with
  | [some sensor, some focal, some minFocal, some maxFocal, some occupancy, some heightPct] =>
    return ⟨← sensor.real?, ← focal.real?, ← minFocal.real?, ← maxFocal.real?,
      ← occupancy.real?, ← heightPct.real?⟩
  | _ => none

namespace Settings

def onlyField {α : Type} (name : String) (read : Toml.Value K → Option α) (v : Toml.Value K) :
    Option α := do
  match (← v.fields? [name]) with
  | [some field] => read field
  | _ => none

def sectionOr {α : Type} (default_ : α) (read : Toml.Value K → Option α) :
    Option (Toml.Value K) → Option α
  | some v => read v
  | none => some default_

def ofToml [Scalar K] (v : Toml.Value K) : Option (Settings K) := do
  let defaults : Settings K := standard
  match (← v.fields? ["project", "camera", "corridor", "spline", "logging"]) with
  | [project, camera, corridor, spline, logging] =>
    return ⟨← sectionOr defaults.project ProjectSettings.ofToml project,
      ← sectionOr defaults.camera LensSettings.ofToml camera,
      ← sectionOr defaults.anchor
        (onlyField "anchor" (Toml.Value.oneOf (Anchor.all.map fun a => (a.name, a)))) corridor,
      ← sectionOr defaults.samplesPerSegment
        (onlyField "samples_per_segment" Toml.Value.count?) spline,
      ← sectionOr defaults.logLevel (onlyField "level" Toml.Value.text?) logging⟩
  | _ => none

def toJson (s : Settings K) : Json K :=
  .obj [
    ("project", .obj [("default_fps", .ofReal s.project.defaultFps),
      ("output_dir", .str s.project.outputDir)]),
    ("camera", .obj [("sensor_height_mm", .ofReal s.camera.sensorHeight),
      ("default_focal_length", .ofReal s.camera.focalLength),
      ("min_focal_length", .ofReal s.camera.minFocal),
      ("max_focal_length", .ofReal s.camera.maxFocal),
      ("default_occupancy", .ofReal s.camera.occupancy),
      ("default_height_pct", .ofReal s.camera.heightPct)]),
    ("corridor", .obj [("anchor", .str s.anchor.name)]),
    ("spline", .obj [("samples_per_segment", .ofNat s.samplesPerSegment)]),
    ("logging", .obj [("level", .str s.logLevel)])]

def read [Scalar K] [Numeral K] (text : String) : Option (Settings K) := do
  ofToml (← Toml.parse? text)

def write [Numeral K] (s : Settings K) : String :=
  let real (name : String) (x : K) : String := name ++ " = " ++ Toml.realText x
  let text (name : String) (x : String) : String := name ++ " = " ++ Toml.quote x
  let section_ (name : String) (lines : List String) : String :=
    String.join ((("[" ++ name ++ "]") :: lines).map (· ++ "\n"))
  "\n".intercalate [
    section_ "project" [real "default_fps" s.project.defaultFps,
      text "output_dir" s.project.outputDir],
    section_ "camera" [real "sensor_height_mm" s.camera.sensorHeight,
      real "default_focal_length" s.camera.focalLength,
      real "min_focal_length" s.camera.minFocal,
      real "max_focal_length" s.camera.maxFocal,
      real "default_occupancy" s.camera.occupancy,
      real "default_height_pct" s.camera.heightPct],
    section_ "corridor" [text "anchor" s.anchor.name],
    section_ "spline" ["samples_per_segment = " ++ toString s.samplesPerSegment],
    section_ "logging" [text "level" s.logLevel]]

end Settings

def PlanOptions.toJson (o : PlanOptions K) : Json K :=
  .obj [("corridor_anchor", .str o.anchor.name),
    ("samples_per_segment", .ofNat o.samplesPerSegment),
    ("min_focal_length", .ofReal o.minFocal), ("max_focal_length", .ofReal o.maxFocal),
    ("default_occupancy", .ofReal o.occupancy), ("default_height_pct", .ofReal o.heightPct)]

end Stagecraft
