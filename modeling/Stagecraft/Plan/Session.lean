import Stagecraft.Movie.Validation
import Stagecraft.Plan.Shooting

/-!
# Sessions

A session plans a whole movie. It walks the script and lets every actor run through its commands
and every camera collect its cues; a group starts all its members at the latest time anyone has
reached. Then the end of the movie is fixed, the stays that wait for it are played, and last the
cameras are shot against the finished tracks.
-/

namespace Stagecraft

variable {K : Type}

structure Session (K : Type) where
  movie : Movie K
  options : PlanOptions K
  runs : List (Run K)
  sheets : List (CueSheet K)
  /-- The curves of the splines, measured when they are first used. -/
  curves : List (String × Thunk (Option (Curve K)))
  diagnostics : List (Diagnostic (Finding K))

namespace Session

variable [Scalar K]

def start (m : Movie K) (o : PlanOptions K) : Session K where
  movie := m
  options := o
  runs := m.actors.map Run.start
  sheets := m.cameras.map CueSheet.blank
  curves := m.splines.map fun s => (s.name, ⟨fun _ => Curve.ofSpline? s o.samplesPerSegment⟩)
  diagnostics := []

omit [Scalar K] in
def warn (s : Session K) (entity : String) (index : Nat) (findings : List (Finding K)) :
    Session K :=
  { s with
    diagnostics := s.diagnostics ++ findings.map (Diagnostic.warning entity (some index)) }

omit [Scalar K] in
def warnMovie (s : Session K) (finding : Finding K) : Session K :=
  { s with diagnostics := s.diagnostics ++ [Diagnostic.warning s.movie.name none finding] }

omit [Scalar K] in
def run (s : Session K) (actor : String) : Except (PlanError K) (Run K) :=
  match s.runs.find? fun r => r.actor.name = actor with
  | some r => .ok r
  | none => .error (.unresolved .actor actor .script)

omit [Scalar K] in
def sheet (s : Session K) (camera : String) : Except (PlanError K) (CueSheet K) :=
  match s.sheets.find? fun c => c.camera.name = camera with
  | some c => .ok c
  | none => .error (.unresolved .camera camera .script)

omit [Scalar K] in
def curve (s : Session K) (spline : String) : Except (PlanError K) (Curve K) :=
  match s.curves.lookup spline with
  | none => .error (.unresolved .spline spline .followSpline)
  | some c =>
    match c.get with
    | some curve => .ok curve
    | none => .error (.splineTooShort spline)

omit [Scalar K] in
/-- Puts back the run of an actor. -/
def setRun (s : Session K) (r : Run K) : Session K :=
  { s with runs := s.runs.map fun q => if q.actor.name = r.actor.name then r else q }

omit [Scalar K] in
/-- Puts back the cues of a camera. -/
def setSheet (s : Session K) (c : CueSheet K) : Session K :=
  { s with sheets := s.sheets.map fun d => if d.camera.name = c.camera.name then c else d }

/-- The latest time any script has reached. -/
def horizon (s : Session K) : K :=
  (s.runs.map Run.cursor ++ s.sheets.map CueSheet.cursor).foldl Scalar.larger 0

/-- The yaw toward another actor, where that actor is at the time; none when it is here. -/
def yawToward? (s : Session K) (r : Run K) (other : Run K) : Option K :=
  let frame := s.movie.fps.frameAt r.cursor
  let delta := other.locationAt frame - r.pose.location
  if delta.horizontalLength < 1e-6 then none else some delta.yaw

def faceYaw (s : Session K) (r : Run K) : FaceTarget K → Except (PlanError K) (Option K)
  | .direction d offset => .ok (some (d.heading r.pose.yaw offset))
  | .yaw degrees => .ok (some degrees)
  | .actor name => do return s.yawToward? r (← s.run name)

def command (actor : String) (s : Session K) (c : Command K) :
    Except (PlanError K) (Session K) := do
  let r ← s.run actor
  let index := r.nextIndex
  let r := { r with nextIndex := index + 1 }
  if r.parked.isSome then throw (.afterTillEnd actor index)
  let rate := s.movie.fps
  let (r, findings) ←
    match c with
    | .move c => r.move rate s.options.anchor index c
    | .face c => do
      match (← s.faceYaw r c.target) with
      | some yaw => pure (r.face rate c yaw, [])
      | none => pure (r.face rate c r.pose.yaw, [.faceTargetCoincides])
    | .stay c => pure (r.stay rate index c, [])
    | .follow c => do r.follow rate index c (← s.curve c.spline)
  return (s.setRun r).warn actor index findings

def actorSequence (s : Session K) (q : ActorSequence K) : Except (PlanError K) (Session K) := do
  let _ ← s.run q.actor
  q.commands.foldlM (command q.actor) s

def cameraSequence (s : Session K) (q : CameraSequence K) : Except (PlanError K) (Session K) := do
  let c ← s.sheet q.camera
  return s.setSheet (q.commands.foldl CueSheet.add c)

/-- A member of a group: it waits for the start of the group. -/
def member (begin_ : K) (s : Session K) : Block K → Except (PlanError K) (Session K)
  | .actor q => do
    let r ← s.run q.actor
    (s.setRun (r.holdUntil s.movie.fps begin_ none)).actorSequence q
  | .camera q => do
    let c ← s.sheet q.camera
    (s.setSheet { c with cursor := Scalar.larger c.cursor begin_ }).cameraSequence q
  | .simultaneous _ => .error .groupNested

def block (s : Session K) : Block K → Except (PlanError K) (Session K)
  | .actor q => s.actorSequence q
  | .camera q => s.cameraSequence q
  | .simultaneous members => members.foldlM (member s.horizon) s

/-- The last frame any script has reached. -/
def extent (s : Session K) : Nat :=
  (s.runs.filterMap (·.transform.lastFrame?) ++
    s.sheets.map fun c => s.movie.fps.frameAt c.cursor).foldl max 0

/-- The last frame of the movie: where its scripts end, or later where a duration is declared. -/
def lastFrame (s : Session K) : Except (PlanError K) (Nat × Session K) :=
  let extent := s.extent
  match s.movie.duration with
  | some duration =>
    let declared := s.movie.fps.frameAt duration.internal
    let s := if declared < extent then s.warnMovie (.scriptsOverrun declared extent) else s
    .ok (max declared extent, s)
  | none =>
    if s.runs.any (·.parked.isSome) && extent == 0 then .error .endless else .ok (extent, s)

def finishRun (last : Nat) (s : Session K) (r : Run K) : Session K :=
  let (r, findings) := r.finish s.movie.fps last
  findings.foldl (fun s f => s.warn r.actor.name f.1 [f.2]) (s.setRun r)

def finishRuns (last : Nat) (s : Session K) : Session K :=
  s.runs.foldl (finishRun last) s

def subject? (s : Session K) (frame : Nat) (name : String) : Option (Subject K) :=
  (s.runs.find? fun r => r.actor.name = name).bind fun r => r.subjectAt frame

def shoot (last : Nat) (done : List (CameraReel K) × Session K) (c : CueSheet K) :
    Except (PlanError K) (List (CameraReel K) × Session K) :=
  let (reels, s) := done
  match c.shoot? s.movie.fps s.options s.subject? last with
  | some (reel, findings) =>
    .ok (reels ++ [reel], findings.foldl (fun s f => s.warn c.camera.name f.1 [f.2]) s)
  | none => .error .boundsUndefined

def placeEvent (rate : FrameRate K) : TimelineEvent K → ReelEvent K
  | .cameraCut moment camera =>
    .cameraCut (rate.frameAt moment.internal) moment.internal camera
  | .marker moment label => .marker (rate.frameAt moment.internal) moment.internal label

/-- Events in the order of their frames, those of one frame as they were declared. -/
def placeEvents (s : Session K) : List (ReelEvent K) :=
  (s.movie.timeline.map (placeEvent s.movie.fps)).mergeSort fun a b => a.frame ≤ b.frame

def checkEvents (last : Nat) (s : Session K) : Session K :=
  (s.movie.timeline.map (placeEvent s.movie.fps)).foldl
    (fun s e => if last < e.frame then s.warnMovie (.eventTooLate e.frame last) else s) s

def reel (s : Session K) (last : Nat) (cameras : List (CameraReel K)) : Reel K where
  name := s.movie.name
  fps := s.movie.fps
  lastFrame := last
  actors := s.runs.map fun r => ⟨r.actor, r.transform, r.animation⟩
  cameras := cameras
  lights := s.movie.lights
  timeline := s.placeEvents
  diagnostics := s.diagnostics

end Session

def Movie.plan [Scalar K] (o : PlanOptions K) (m : Movie K) : Except (PlanError K) (Reel K) := do
  if m.issues.isEmpty then
    let s ← m.script.foldlM Session.block (Session.start m o)
    let (last, s) ← s.lastFrame
    let s := s.finishRuns last
    let (cameras, s) ← s.sheets.foldlM (Session.shoot last) ([], s)
    return (s.checkEvents last).reel last cameras
  else
    throw (.invalid m.issues)

end Stagecraft
