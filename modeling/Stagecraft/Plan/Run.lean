import Stagecraft.Curve
import Stagecraft.Plan.Basic

/-!
# Runs

A run takes one actor through its commands. Every command becomes a span of time with a pose in
closed form, and playing a span keys that pose at every frame the span touches, moves on the
animation and leaves the actor where the span ends. Spans follow one another without a gap, and
neighbours share a frame.
-/

namespace Stagecraft

variable {K : Type}

/-- Where an actor is and how it is turned. The yaw is the actor's own heading, without the mesh
correction. -/
structure Pose (K : Type) where
  location : Vec3 K
  yaw : K
  pitch : K
  deriving BEq

/-- A stretch of time with the pose at every moment of it, counted from its start, and the clip it
begins to play. -/
structure Span (K : Type) where
  start : K
  duration : K
  pose : K → Pose K
  clip : Option (Clip K)

namespace Span

variable [Scalar K]

def firstFrame (rate : FrameRate K) (s : Span K) : Nat :=
  rate.frameAt s.start

def lastFrame (rate : FrameRate K) (s : Span K) : Nat :=
  rate.frameAt (s.start + s.duration)

/-- The moment of a span that a frame shows: the last frame shows its exact end. -/
def momentAt (rate : FrameRate K) (s : Span K) (last frame : Nat) : K :=
  if frame = last then s.duration
  else Scalar.clamp 0 s.duration (rate.secondsAt frame - s.start)

/-- The part of a span that is over; a span without time is over at once. -/
def fraction (duration t : K) : K :=
  if Scalar.tolerance < duration then t / duration else 1

end Span

/-- A stay to the end of the movie that waits for that end to be known. -/
structure Parked (K : Type) where
  index : Nat
  start : K
  clip : Option (Clip K)

/-- An actor on its way through its commands. -/
structure Run (K : Type) where
  actor : Actor K
  pose : Pose K
  /-- The yaw of the last key. -/
  emittedYaw : K
  /-- The clip that is playing. -/
  clip : Option (Clip K)
  /-- The time up to which the actor is planned. -/
  cursor : K
  /-- The heading of the last move and the lane it was in, if it had a corridor. -/
  lane : Option (K × Lane K)
  /-- The number of commands so far. -/
  nextIndex : Nat
  parked : Option (Parked K)
  transform : TransformTrack K
  animation : AnimationTrack K
  /-- The spans played so far, latest first. -/
  spans : List (Span K)

namespace Run

variable [Scalar K]

/-- Keys a pose. The yaw that is emitted follows the one before by the short way round. -/
def key (r : Run K) (frame : Nat) (p : Pose K) : Run K :=
  let yaw := unwrapYaw r.emittedYaw (p.yaw + r.actor.yawOffset)
  { r with
    emittedYaw := yaw
    transform := r.transform.push ⟨frame, ⟨p.location, ⟨p.pitch, yaw, 0⟩⟩⟩ }

/-- An actor at its declared place, keyed at frame zero. -/
def start (a : Actor K) : Run K :=
  let pose : Pose K := ⟨a.location, a.initialYaw, 0⟩
  let r : Run K :=
    { actor := a, pose, emittedYaw := a.initialYaw + a.yawOffset, clip := none, cursor := 0
      lane := none, nextIndex := 0, parked := none
      transform := Track.empty, animation := Track.empty, spans := [] }
  r.key 0 pose

/-- Keys a span at every frame it touches. -/
def sample (rate : FrameRate K) (s : Span K) (r : Run K) : Run K :=
  let first := s.firstFrame rate
  let last := s.lastFrame rate
  (List.range' first (last + 1 - first)).foldl
    (fun r frame => r.key frame (s.pose (s.momentAt rate last frame))) r

/-- Plays the span's clip, or goes on with the one that is playing, over the span's frames. -/
def animate (rate : FrameRate K) (s : Span K) (r : Run K) : Run K :=
  let clip := s.clip.or r.clip
  match clip with
  | some c =>
    let segment : Segment K := ⟨s.firstFrame rate, s.lastFrame rate, c⟩
    { r with clip, animation := r.animation.extendOrPush segment }
  | none => r

def play (rate : FrameRate K) (s : Span K) (r : Run K) : Run K :=
  let r := (r.sample rate s).animate rate s
  { r with pose := s.pose s.duration, cursor := r.cursor + s.duration, spans := s :: r.spans }

def hold (rate : FrameRate K) (duration : K) (clip : Option (Clip K)) (r : Run K) : Run K :=
  let pose := r.pose
  r.play rate ⟨r.cursor, duration, fun _ => pose, clip⟩

/-- Stays in place up to a moment, unless it is past. -/
def holdUntil (rate : FrameRate K) (moment : K) (clip : Option (Clip K)) (r : Run K) : Run K :=
  if moment ≤ r.cursor + Scalar.tolerance then r else r.hold rate (moment - r.cursor) clip

/-- The drift into a corridor from the lane the actor is in, the lane after it, and whether the
corridor had to be widened. A lane only lasts while the heading does. -/
def enter (anchor : Anchor) (heading : K) (corridor : Corridor K) (r : Run K) :
    Except (PlanError K) (Drift K × Lane K × List (Finding K)) :=
  let radius := r.actor.radius.internal
  let declared := Bounds.ofCorridor corridor
  let bounds := declared.fit radius
  let findings :=
    if declared.isTight radius then [.corridorWidened declared.width radius bounds.width] else []
  let previous :=
    (r.lane.filter fun l => Scalar.abs (shortestYaw l.1 heading) < 1e-6).map (·.2)
  match Drift.into? previous bounds radius anchor with
  | some drift => .ok (drift, drift.lane bounds, findings)
  | none => .error .boundsUndefined

/-- The way of a move: along the heading by the profile, and aside by the drift. -/
def movePose (start : Pose K) (heading : K) (profile : Profile K) (drift : Option (Drift K))
    (t : K) : Pose K :=
  let forward := yawVector heading
  let right := yawVector (heading + 90)
  let aside :=
    match drift with
    | some d => d.deltaAt (Span.fraction profile.duration t)
    | none => 0
  ⟨start.location + forward * profile.distanceAt t + right * aside, start.yaw, 0⟩

/-- A move in a straight line. It never turns the actor. -/
def move (rate : FrameRate K) (anchor : Anchor) (index : Nat) (c : MoveCommand K) (r : Run K) :
    Except (PlanError K) (Run K × List (Finding K)) := do
  let motion ← c.motion.resolve.mapError (PlanError.motion r.actor.name index)
  let heading := c.direction.heading r.pose.yaw c.directionOffset
  let (drift, lane, findings) ←
    match c.corridor with
    | some corridor => do
      let (drift, lane, findings) ← r.enter anchor heading corridor
      pure (some drift, some (heading, lane), findings)
    | none => pure (none, none, [])
  let span : Span K :=
    ⟨r.cursor, motion.profile.duration, movePose r.pose heading motion.profile drift, c.animation⟩
  return ({ r.play rate span with lane := lane }, motion.notes.map .motion ++ findings)

/-- A turn on the spot, evenly and by the short way round. -/
def turnPose (start : Pose K) (delta duration t : K) : Pose K :=
  ⟨start.location, start.yaw + delta * Span.fraction duration t, 0⟩

def face (rate : FrameRate K) (c : FaceCommand K) (target : K) (r : Run K) : Run K :=
  let duration := Scalar.larger c.duration.internal 0
  let delta := shortestYaw r.pose.yaw target
  r.play rate ⟨r.cursor, duration, turnPose r.pose delta duration, c.animation⟩

def stay (rate : FrameRate K) (index : Nat) (c : StayCommand K) (r : Run K) : Run K :=
  match c.length with
  | .lasting span => r.hold rate (Scalar.larger span.internal 0) c.animation
  | .waiting moment => r.holdUntil rate moment.internal c.animation
  | .tillEnd => { r with parked := some ⟨index, r.cursor, c.animation⟩ }

/-- The way along a curve, from an arclength on and in the direction of a sign. -/
def followPose (start : Pose K) (curve : Curve K) (origin sign : K) (profile : Profile K) (t : K) :
    Pose K :=
  match curve.travelAt? (origin + sign * profile.distanceAt t) with
  | some s =>
    let tangent := s.tangent * sign
    ⟨s.position, tangent.yaw, tangent.pitch⟩
  | none => start

/-- The motion along a range of a curve: the range gives the distance unless the motion states it,
or states how fast and how long. -/
def followMotion (motion : MotionSpec K) (range : K) : MotionSpec K :=
  let timedSpeed :=
    motion.duration.isSome && (motion.startSpeed.isSome || motion.endSpeed.isSome)
  if motion.distance.isNone && !timedSpeed then
    { motion with distance := some (Distance.centimeters range) }
  else motion

/-- Travel along a curve. The range is kept on the curve; travel beyond the end of an open curve
stops there and is reported. -/
def follow (rate : FrameRate K) (index : Nat) (c : FollowCommand K) (curve : Curve K)
    (r : Run K) : Except (PlanError K) (Run K × List (Finding K)) := do
  let onCurve (arclength : K) : Except (PlanError K) K :=
    match Scalar.clamp? 0 curve.length arclength with
    | some s => .ok s
    | none => .error .boundsUndefined
  let first ← onCurve ((c.rangeStart.map Distance.internal).getD 0)
  let last ← onCurve ((c.rangeEnd.map Distance.internal).getD curve.length)
  let motion ← (followMotion c.motion (Scalar.abs (last - first))).resolve.mapError
    (PlanError.motion r.actor.name index)
  let profile := motion.profile
  let (origin, sign) := if c.reverse then (last, -1) else (first, 1)
  let finish := origin + sign * profile.distance
  let overruns := !curve.closed && (finish < -1e-6 || curve.length + 1e-6 < finish)
  let findings :=
    if overruns then [.travelOverruns profile.distance c.spline curve.length] else []
  let span : Span K :=
    ⟨r.cursor, profile.duration, followPose r.pose curve origin sign profile, c.animation⟩
  return ({ r.play rate span with lane := none }, motion.notes.map .motion ++ findings)

def finish (rate : FrameRate K) (lastFrame : Nat) (r : Run K) : Run K × List (Nat × Finding K) :=
  match r.parked with
  | none => (r, [])
  | some p =>
    let duration := Scalar.larger (rate.secondsAt lastFrame - p.start) 0
    let findings := if lastFrame < rate.frameAt p.start then [(p.index, .tillEndTooLate)] else []
    ({ r with parked := none }.hold rate duration p.clip, findings)

/-- Where the actor is at a frame: on its track as far as that goes, and else where it is now. -/
def locationAt (r : Run K) (frame : Nat) : Vec3 K :=
  match r.transform.lastFrame? with
  | some last =>
    if frame ≤ last then
      match r.transform.sample frame with
      | some t => t.location
      | none => r.pose.location
    else r.pose.location
  | none => r.pose.location

end Run

end Stagecraft
