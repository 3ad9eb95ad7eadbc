import Stagecraft.Proofs.RangeWindows

/-!
# Defaulted ranges

Along a curve the length of the range is the distance of a motion that states none, unless it states
how long and how fast. Quantities that can be solved as they are, or together with that length, may
fail all the same: the range may be too long for no time at all, or for an actor that comes to rest.
-/

namespace Stagecraft.Proofs

section Resolving

variable {s : MotionSpec ℝ} {e : MotionError ℝ}

/-- A speed as it is resolved, which is not backward. -/
noncomputable def forwardSpeed (v : Option (Speed ℝ)) : Option ℝ :=
  v.map fun speed => max speed.internal 0

/-- The profile of the quantities that are stated, whatever their signs. -/
noncomputable def solution (s : MotionSpec ℝ) : Except (MotionError ℝ)
    (Profile ℝ × List (MotionNote ℝ)) :=
  MotionSpec.solve s.given (s.distance.map Distance.internal) (s.duration.map TimeSpan.internal)
    (forwardSpeed s.startSpeed) (forwardSpeed s.endSpeed)
    (s.acceleration.map Acceleration.internal)

end Resolving

section Solving

variable {x y : ℝ} {v0 v1 a : Option ℝ} {given given' : List String} {e : MotionError ℝ}

end Solving

section Following

variable {s : MotionSpec ℝ} {x : ℝ} {e : MotionError ℝ}

end Following

section Tracks

end Tracks

end Stagecraft.Proofs
