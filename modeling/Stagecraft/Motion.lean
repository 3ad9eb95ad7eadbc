import Stagecraft.Command

/-!
# Motion

A motion is a linear ramp of speed that is followed by a cruise at the speed reached. `resolve`
finds the profile of a motion from whichever of distance, duration, speeds and acceleration are
stated. All computing is in centimeters and seconds.
-/

namespace Stagecraft

variable {K : Type}

/-- A ramp from the start speed to the end speed, then a cruise at the end speed up to the
duration. -/
structure Profile (K : Type) where
  startSpeed : K
  endSpeed : K
  ramp : K
  duration : K
  distance : K

namespace Profile

variable [Scalar K]

/-- The profile of a ramp and a cruise; the ramp is kept within the duration, and the distance
follows from both. -/
def rampThenCruise (startSpeed endSpeed ramp duration : K) : Profile K :=
  let duration := Scalar.larger duration 0
  let ramp := Scalar.clamp 0 duration ramp
  { startSpeed, endSpeed, ramp, duration
    distance := (startSpeed + endSpeed) / 2 * ramp + endSpeed * (duration - ramp) }

def stationary (duration : K) : Profile K :=
  rampThenCruise 0 0 0 duration

def constant (speed duration : K) : Profile K :=
  rampThenCruise speed speed 0 duration

def rampOver (startSpeed endSpeed duration : K) : Profile K :=
  rampThenCruise startSpeed endSpeed duration duration

def isStationary (p : Profile K) : Bool :=
  decide (Scalar.abs p.distance ≤ Scalar.tolerance)

def speedAt (p : Profile K) (t : K) : K :=
  let t := Scalar.clamp 0 p.duration t
  if t < p.ramp then p.startSpeed + (p.endSpeed - p.startSpeed) * t / p.ramp else p.endSpeed

def distanceAt (p : Profile K) (t : K) : K :=
  let t := Scalar.clamp 0 p.duration t
  if p.duration ≤ t then p.distance
  else if t < p.ramp then
    let acceleration := (p.endSpeed - p.startSpeed) / p.ramp
    p.startSpeed * t + 0.5 * acceleration * t * t
  else (p.startSpeed + p.endSpeed) / 2 * p.ramp + p.endSpeed * (t - p.ramp)

end Profile

/-- Why stated quantities have no profile. Lengths, times and speeds are in centimeters and
seconds. -/
inductive MotionError (K : Type) where
  | infiniteSpeed (distance : K)
  | stalled (distance : K)
  | distanceNegative
  | durationNegative
  | rampMismatch (startSpeed endSpeed duration covered distance : K)
  | speedFixed
  | wrongAcceleration (acceleration startSpeed endSpeed : K)
  | underdetermined (given : List String)
  deriving BEq

inductive MotionNote (K : Type) where
  | startSpeedNegative (speed : K)
  | endSpeedNegative (speed : K)
  | endSpeedClamped (speed : K)
  | startSpeedClamped (speed reachable : K)
  | stopsAfterTime (seconds : K)
  | stopsAfterDistance (reached distance : K)
  deriving BEq

namespace MotionError

variable [Numeral K]

def inconsistent (what : String) : String := "inconsistent motion: " ++ what

def message : MotionError K → String
  | infiniteSpeed distance =>
    "infinite speed: " ++ Numeral.fixed 1 distance ++ "cm requested in zero time"
  | stalled distance => "zero speed can never cover " ++ Numeral.fixed 1 distance ++ "cm"
  | distanceNegative => inconsistent "distance must not be negative"
  | durationNegative => inconsistent "duration must not be negative"
  | rampMismatch startSpeed endSpeed duration covered distance =>
    inconsistent ("a ramp from " ++ Numeral.fixed 1 startSpeed ++ " to " ++
      Numeral.fixed 1 endSpeed ++ "cm/s over " ++ Numeral.fixed 3 duration ++ "s covers " ++
      Numeral.fixed 1 covered ++ "cm, not " ++ Numeral.fixed 1 distance ++ "cm")
  | speedFixed => inconsistent "zero acceleration cannot change speed"
  | wrongAcceleration acceleration startSpeed endSpeed =>
    inconsistent ("acceleration " ++ Numeral.fixed 1 acceleration ++ "cm/s² never takes " ++
      Numeral.fixed 1 startSpeed ++ "cm/s to " ++ Numeral.fixed 1 endSpeed ++ "cm/s")
  | underdetermined given =>
    "cannot resolve motion from " ++
      (if given.isEmpty then "no quantities" else " + ".intercalate given)

end MotionError

namespace MotionNote

variable [Numeral K]

def message : MotionNote K → String
  | startSpeedNegative speed =>
    "negative start speed " ++ Numeral.fixed 1 speed ++ "cm/s clamped to zero"
  | endSpeedNegative speed =>
    "negative end speed " ++ Numeral.fixed 1 speed ++ "cm/s clamped to zero"
  | endSpeedClamped speed =>
    "end speed solved to " ++ Numeral.fixed 1 speed ++ "cm/s, clamped to zero"
  | startSpeedClamped speed reachable =>
    "start speed " ++ Numeral.fixed 1 speed ++ "cm/s clamped to zero, end speed " ++
      Numeral.fixed 1 reachable ++ "cm/s"
  | stopsAfterTime seconds =>
    "deceleration stops the actor after " ++ Numeral.fixed 3 seconds ++ "s, speed clamped to zero"
  | stopsAfterDistance reached distance =>
    "deceleration stops the actor after " ++ Numeral.fixed 1 reached ++ "cm of " ++
      Numeral.fixed 1 distance ++ "cm, speed clamped to zero"

end MotionNote

structure ResolvedMotion (K : Type) where
  profile : Profile K
  notes : List (MotionNote K)

namespace MotionSpec

variable [Scalar K]

def given (s : MotionSpec K) : List String :=
  (if s.distance.isSome then ["distance"] else []) ++
  (if s.duration.isSome then ["duration"] else []) ++
  (if s.startSpeed.isSome then ["start speed"] else []) ++
  (if s.endSpeed.isSome then ["end speed"] else []) ++
  (if s.acceleration.isSome then ["acceleration"] else [])

/-- What a motion that has no time amounts to: rest, unless there is a distance to cover. -/
def inNoTime (distance : K) : Except (MotionError K) (Profile K) :=
  if Scalar.tolerance < distance then .error (.infiniteSpeed distance)
  else .ok (Profile.stationary 0)

def coverAtSpeed (distance speed : K) : Except (MotionError K) (Profile K) :=
  if distance ≤ Scalar.tolerance then .ok (Profile.stationary 0)
  else if speed ≤ Scalar.tolerance then .error (.stalled distance)
  else .ok (Profile.constant speed (distance / speed))

def rampTime (startSpeed endSpeed acceleration : K) : Except (MotionError K) K :=
  if Scalar.abs acceleration ≤ Scalar.tolerance then
    if Scalar.abs (endSpeed - startSpeed) ≤ Scalar.tolerance then .ok 0 else .error .speedFixed
  else
    let ramp := (endSpeed - startSpeed) / acceleration
    if ramp < 0 then .error (.wrongAcceleration acceleration startSpeed endSpeed) else .ok ramp

/-- A constant acceleration over a distance, which ends early where the actor comes to rest
before. -/
def accelerateOver (distance startSpeed acceleration : K) : Profile K × List (MotionNote K) :=
  let square := startSpeed * startSpeed + 2 * acceleration * distance
  if square < 0 then
    (Profile.rampOver startSpeed 0 (startSpeed / -acceleration),
      [.stopsAfterDistance (startSpeed * startSpeed / (2 * -acceleration)) distance])
  else
    let time := (-startSpeed + Scalar.sqrt square) / acceleration
    (Profile.rampOver startSpeed (startSpeed + acceleration * time) time, [])

/-- The profile of a motion from its quantities in centimeters and seconds. -/
def solve (given : List String) (distance duration startSpeed endSpeed acceleration : Option K) :
    Except (MotionError K) (Profile K × List (MotionNote K)) := do
  match distance, duration, startSpeed, endSpeed, acceleration with
  | none, some t, none, none, none => return (Profile.stationary t, [])
  | some d, some t, none, none, none =>
    if t ≤ Scalar.tolerance then return (← inNoTime d, [])
    return (Profile.constant (d / t) t, [])
  | some d, none, some v, none, none => return (← coverAtSpeed d v, [])
  | none, some t, some v, none, none => return (Profile.constant v t, [])
  | some d, none, some v0, some v1, none =>
    if d ≤ Scalar.tolerance then return (Profile.stationary 0, [])
    if v0 + v1 ≤ Scalar.tolerance then throw (.stalled d)
    return (Profile.rampOver v0 v1 (2 * d / (v0 + v1)), [])
  | none, some t, some v0, some v1, none => return (Profile.rampOver v0 v1 t, [])
  | some d, some t, some v0, none, none =>
    if t ≤ Scalar.tolerance then return (← inNoTime d, [])
    let v1 := 2 * d / t - v0
    if 0 ≤ v1 then return (Profile.rampOver v0 v1 t, [])
    -- The start speed is positive here: brake to rest early, then hold.
    return (Profile.rampThenCruise v0 0 (2 * d / v0) t, [.endSpeedClamped v1])
  | some d, some t, none, some v1, none =>
    if t ≤ Scalar.tolerance then return (← inNoTime d, [])
    let v0 := 2 * d / t - v1
    if 0 ≤ v0 then return (Profile.rampOver v0 v1 t, [])
    -- From rest, distance and duration limit the end speed.
    let reachable := 2 * d / t
    return (Profile.rampOver 0 reachable t, [.startSpeedClamped v0 reachable])
  | some d, some t, some v0, some v1, none =>
    if t ≤ Scalar.tolerance then return (← inNoTime d, [])
    let covered := (v0 + v1) / 2 * t
    if 1e-6 * Scalar.larger d 1 < Scalar.abs (covered - d) then
      throw (.rampMismatch v0 v1 t covered d)
    return (Profile.rampOver v0 v1 t, [])
  | some d, none, v0, none, some a =>
    let v0 := v0.getD 0
    if Scalar.abs a ≤ Scalar.tolerance then return (← coverAtSpeed d v0, [])
    return accelerateOver d v0 a
  | none, some t, v0, none, some a =>
    let v0 := v0.getD 0
    let v1 := v0 + a * t
    if 0 ≤ v1 then return (Profile.rampOver v0 v1 t, [])
    return (Profile.rampThenCruise v0 0 (v0 / -a) t, [.stopsAfterTime (v0 / -a)])
  | none, none, v0, some v1, some a =>
    let v0 := v0.getD 0
    return (Profile.rampOver v0 v1 (← rampTime v0 v1 a), [])
  | some d, none, v0, some v1, some a =>
    let v0 := v0.getD 0
    let ramp ← rampTime v0 v1 a
    let covered := (v0 + v1) / 2 * ramp
    if covered ≤ d + Scalar.tolerance then
      let rest := Scalar.larger (d - covered) 0
      if rest ≤ Scalar.tolerance then return (Profile.rampThenCruise v0 v1 ramp ramp, [])
      if v1 ≤ Scalar.tolerance then throw (.stalled rest)
      return (Profile.rampThenCruise v0 v1 ramp (ramp + rest / v1), [])
    -- The distance runs out before the end speed is reached.
    return accelerateOver d v0 a
  | none, some t, v0, some v1, some a =>
    let v0 := v0.getD 0
    let ramp ← rampTime v0 v1 a
    if ramp ≤ t then return (Profile.rampThenCruise v0 v1 ramp t, [])
    return (Profile.rampOver v0 (v0 + a * t) t, [])
  | _, _, _, _, _ => throw (.underdetermined given)

/-- A speed without its sign if that is negative, which is noted. -/
def nonNegative (note : K → MotionNote K) : Option K → Option K × List (MotionNote K)
  | some v => if v < 0 then (some 0, [note v]) else (some v, [])
  | none => (none, [])

def resolve (s : MotionSpec K) : Except (MotionError K) (ResolvedMotion K) := do
  let distance := s.distance.map Distance.internal
  let duration := s.duration.map TimeSpan.internal
  let (startSpeed, startNotes) := nonNegative .startSpeedNegative (s.startSpeed.map Speed.internal)
  let (endSpeed, endNotes) := nonNegative .endSpeedNegative (s.endSpeed.map Speed.internal)
  let acceleration := s.acceleration.map Acceleration.internal
  if distance.any (· < 0) then throw .distanceNegative
  if duration.any (· < 0) then throw .durationNegative
  let (profile, notes) ← solve s.given distance duration startSpeed endSpeed acceleration
  return ⟨profile, startNotes ++ endNotes ++ notes⟩

end MotionSpec

end Stagecraft
