import Stagecraft.Proofs.CueSheets
import Stagecraft.Proofs.SafeWalks
import Stagecraft.Settings

/-!
# Bounds of a zoom

A zoom takes each of its bounds from its command, or else from its camera, or else from the
options. Each of the three is checked by itself, so the two bounds may be out of order where one
is stated by the command and the other is not. Then the movie has no plan.
-/

namespace Stagecraft.Proofs

section Cues

variable {K : Type}

end Cues

section Walking

variable {m : Movie ℝ} {o : PlanOptions ℝ} {s : Session ℝ}

end Walking

section Bounds

variable {m : Movie ℝ}

end Bounds

section Plans

variable {m : Movie ℝ} {o : PlanOptions ℝ}

end Plans

section Overzooming

end Overzooming

end Stagecraft.Proofs
