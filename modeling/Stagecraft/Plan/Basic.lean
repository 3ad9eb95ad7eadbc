import Stagecraft.Lane
import Stagecraft.Movie.Issue
import Stagecraft.Reel.Basic

/-!
# Planning

What a plan is made with, and why there may be none.
-/

namespace Stagecraft

variable {K : Type}

structure PlanOptions (K : Type) where
  anchor : Anchor
  samplesPerSegment : Nat
  minFocal : K
  maxFocal : K
  occupancy : K
  heightPct : K
  deriving BEq

/-- Why a movie has no plan. -/
inductive PlanError (K : Type) where
  | invalid (issues : List (Issue K))
  | unresolved (kind : EntityKind) (name : String) (usage : Usage)
  | motion (actor : String) (index : Nat) (cause : MotionError K)
  | afterTillEnd (actor : String) (index : Nat)
  | groupNested
  | splineTooShort (spline : String)
  | endless
  | boundsUndefined
  deriving BEq

namespace PlanError

def message [Numeral K] : PlanError K → String
  | .invalid issues =>
    "plan validation failed:\n" ++ "\n".intercalate (issues.map fun i => "  - " ++ i.message)
  | .unresolved kind name usage => Issue.unresolvedText kind name usage
  | .motion actor index cause => Issue.commandText actor index cause.message
  | .afterTillEnd actor index =>
    Issue.commandText actor index "no command may follow a till-end stay"
  | .groupNested => Issue.argumentText "simultaneous groups cannot be nested"
  | .splineTooShort spline => Issue.argumentText (Issue.splineTooShortText spline)
  | .endless => "open-ended stay cannot be resolved: the movie has no terminal time"
  | .boundsUndefined => "bounds are crossed or undefined"

end PlanError

end Stagecraft
