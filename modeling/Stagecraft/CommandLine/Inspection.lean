import Stagecraft.CommandLine.Console

/-!
# Inspections

What is shown of a planned actor or camera: all of its tracks in short, or its state at a frame.
-/

namespace Stagecraft.CommandLine

variable {K : Type} [Scalar K] [Numeral K]

def titled (title text : String) : String :=
  "   " ++ title ++ String.ofList (List.replicate (11 - title.length) ' ') ++ text

def clipText (c : Clip K) : String :=
  c.name ++ " x" ++ Numeral.text c.speedMultiplier

def placeLines (rate : FrameRate K) (frame : Nat) (t : Transform K) (roll : Bool) : List String :=
  let angle (name : String) (x : K) : String := name ++ " " ++ Numeral.fixed 2 x
  let r := t.rotation
  let angles := [angle "pitch" r.pitch, angle "yaw" r.yaw] ++
    if roll then [angle "roll" r.roll] else []
  [titled "Frame:" (toString frame ++ " (" ++ rate.timecode frame ++ ")"),
    titled "Location:" t.location.text,
    titled "Rotation:" ("  ".intercalate angles)]

def animationLine (s : Option (Segment K)) : String :=
  titled "Animation:" <|
    match s with
    | some s =>
      clipText s.clip ++ " (frames " ++ toString s.startFrame ++ "..=" ++ toString s.endFrame ++ ")"
    | none => "none"

def actorAt (rate : FrameRate K) (a : ActorReel K) (frame : Nat) : Option (List String) := do
  let t ← a.transform.sample frame
  return placeLines rate frame t true ++ [animationLine (a.animation.activeAt frame)]

def actorSummary (a : ActorReel K) : List String :=
  let ends :=
    match a.transform.first?, a.transform.last? with
    | some first, some last =>
      [titled "Start:" first.transform.location.text,
        titled "End:" (last.transform.location.text ++ " (frame " ++ toString last.frame ++ ")")]
    | _, _ => []
  let segments := a.animation.keys.toList.map fun s =>
    "   " ++ padLeft (toString s.startFrame) ++ "..=" ++ padRight (toString s.endFrame) ++ " " ++
      clipText s.clip
  titled "Keys:" (toString a.transform.length) :: ends ++ segments

def opticsLines (k : SettingsKey K) : List String :=
  titled "Focal:" (Numeral.fixed 2 k.focalLength ++ " mm") ::
    match k.focusDistance with
    | some d => [titled "Focus:" (Numeral.fixed 1 d ++ " cm")]
    | none => []

def cameraAt (rate : FrameRate K) (c : CameraReel K) (frame : Nat) : Option (List String) := do
  let t ← c.transform.sample frame
  let key := c.settings.keys.toList.reverse.find? fun k => k.frame ≤ frame
  return placeLines rate frame t false ++ (key.map opticsLines).getD []

def cameraSummary (c : CameraReel K) : List String :=
  let focal :=
    match c.settings.keys.toList.map SettingsKey.focalLength with
    | [] => []
    | f :: rest =>
      let least := rest.foldl Scalar.smaller f
      let greatest := rest.foldl Scalar.larger f
      if Scalar.isFinite least then
        [titled "Focal:" (Numeral.fixed 2 least ++ ".." ++ Numeral.fixed 2 greatest ++ " mm")]
      else []
  titled "Keys:" (toString c.transform.length) :: focal

/-- What is shown of an entity: its title, and the lines below, if there are any to show. -/
structure Inspection where
  title : String
  lines : Option (List String)
  deriving DecidableEq, Repr

/-- The inspection of an actor or a camera, at a frame or in short. -/
def inspect? (r : Reel K) (entity : String) (frame : Option Nat) : Option Inspection :=
  match r.actor? entity, r.camera? entity with
  | some a, _ =>
    some ⟨"🏃 Actor '" ++ entity ++ "'",
      match frame with
      | some frame => actorAt r.fps a frame
      | none => some (actorSummary a)⟩
  | none, some c =>
    some ⟨"🎥 Camera '" ++ entity ++ "'",
      match frame with
      | some frame => cameraAt r.fps c frame
      | none => some (cameraSummary c)⟩
  | none, none => none

end Stagecraft.CommandLine
