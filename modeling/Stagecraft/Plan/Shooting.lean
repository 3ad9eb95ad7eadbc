import Stagecraft.Framing
import Stagecraft.Plan.Run

/-!
# Shooting

A camera's commands are cues at moments of the movie. When all actors are planned, the camera is
shot frame by frame: the cues that are due change the framing in effect, and the framing decides
the frame's transform and optics. How long an automatic zoom was held at its bounds is counted and
reported when that zoom ends.
-/

namespace Stagecraft

variable {K : Type}

structure Cue (K : Type) where
  time : K
  index : Nat
  command : CameraCommand K

structure CueSheet (K : Type) where
  camera : Camera K
  /-- The time up to which the camera is planned. -/
  cursor : K
  /-- The number of commands so far. -/
  nextIndex : Nat
  cues : List (Cue K)

namespace CueSheet

def blank [Scalar K] (c : Camera K) : CueSheet K := ⟨c, 0, 0, []⟩

/-- Adds a cue at the cursor; only a hold takes time. -/
def add [Scalar K] (s : CueSheet K) (c : CameraCommand K) : CueSheet K :=
  let cursor :=
    match c with
    | .hold duration => s.cursor + Scalar.larger duration.internal 0
    | _ => s.cursor
  ⟨s.camera, cursor, s.nextIndex + 1, s.cues ++ [⟨s.cursor, s.nextIndex, c⟩]⟩

end CueSheet

/-- The bounds and occupancy of a zoom: what the command leaves open the camera decides, and after
it the options. -/
def zoomConfig (c : Camera K) (o : PlanOptions K) (occupancy minFocal maxFocal : Option K) :
    ZoomConfig K where
  occupancy := (occupancy.or (c.autoZoom.map (·.occupancy))).getD o.occupancy
  minFocal := (minFocal.or (c.autoZoom.map (·.minFocal))).getD o.minFocal
  maxFocal := (maxFocal.or (c.autoZoom.map (·.maxFocal))).getD o.maxFocal

/-- An automatic zoom in effect: the index of its command, and the frames it was clamped on. -/
structure ZoomTally where
  index : Nat
  frames : Nat
  deriving BEq, DecidableEq, Repr

/-- A camera while it is shot. -/
structure Shooting (K : Type) where
  framing : Framing K
  /-- The focal length of the last frame. -/
  lastFocal : K
  tally : Option ZoomTally
  /-- The cues still to come. -/
  cues : List (Cue K)
  transform : TransformTrack K
  settings : SettingsTrack K
  findings : List (Nat × Finding K)

namespace Shooting

def start (s : CueSheet K) : Shooting K :=
  ⟨Framing.initial s.camera, s.camera.focalLength, none, s.cues, Track.empty, Track.empty, []⟩

def endTally (s : Shooting K) : Shooting K :=
  let found :=
    match s.tally with
    | some t => if 0 < t.frames then [(t.index, .zoomClamped t.frames)] else []
    | none => []
  { s with tally := none, findings := s.findings ++ found }

def cue (c : Camera K) (o : PlanOptions K) (s : Shooting K) (q : Cue K) : Shooting K :=
  match q.command with
  | .lookAt subject heightPct =>
    { s with framing := { s.framing with lookAt := some ⟨subject, heightPct.getD o.heightPct⟩ } }
  | .autoFocus subject heightPct =>
    { s with framing := { s.framing with focus := some ⟨subject, heightPct.getD o.heightPct⟩ } }
  | .autoZoom subject occupancy minFocal maxFocal =>
    let config := zoomConfig c o occupancy minFocal maxFocal
    { s.endTally with
      framing := { s.framing with zoom := some (subject, config) }
      tally := some ⟨q.index, 0⟩ }
  | .setFocalLength mm =>
    { s.endTally with framing := { s.framing with zoom := none, focalLength := mm } }
  | .stopTracking =>
    { s.endTally with
      framing := { s.framing.stopTracking with focalLength := s.lastFocal } }
  | .hold _ => s

variable [Scalar K]

/-- A cue is due from the frame of its moment on. -/
def isDue (rate : FrameRate K) (frame : Nat) (q : Cue K) : Bool :=
  decide (rate.frameAt q.time ≤ frame)

def advance (rate : FrameRate K) (c : Camera K) (o : PlanOptions K) (frame : Nat)
    (s : Shooting K) : Shooting K :=
  let due := s.cues.takeWhile (isDue rate frame)
  let rest := s.cues.dropWhile (isDue rate frame)
  { due.foldl (cue c o) s with cues := rest }

/-- Shoots a frame; none when the bounds of the zoom are crossed or undefined. -/
def frame? (rate : FrameRate K) (c : Camera K) (o : PlanOptions K)
    (subject? : Nat → String → Option (Subject K)) (s : Shooting K) (frame : Nat) :
    Option (Shooting K) := do
  let s := s.advance rate c o frame
  let shot ← s.framing.shot? c (subject? frame)
  let tally :=
    if shot.zoomClamped then s.tally.map fun t => ⟨t.index, t.frames + 1⟩ else s.tally
  return { s with
    lastFocal := shot.focalLength
    tally
    transform := s.transform.push ⟨frame, shot.transform⟩
    settings := s.settings.push ⟨frame, shot.focalLength, shot.focusDistance⟩ }

end Shooting

def Run.subjectAt [Scalar K] (r : Run K) (frame : Nat) : Option (Subject K) :=
  (r.transform.sample frame).map fun t =>
    ⟨t.location, t.rotation.yaw - r.actor.yawOffset, r.actor.height.internal⟩

def CueSheet.shoot? [Scalar K] (rate : FrameRate K) (o : PlanOptions K)
    (subject? : Nat → String → Option (Subject K)) (lastFrame : Nat) (s : CueSheet K) :
    Option (CameraReel K × List (Nat × Finding K)) := do
  let done ← (List.range (lastFrame + 1)).foldlM (Shooting.frame? rate s.camera o subject?)
    (Shooting.start s)
  return (⟨s.camera, done.transform, done.settings⟩, done.endTally.findings)

end Stagecraft
