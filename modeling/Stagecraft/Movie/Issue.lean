import Stagecraft.Decimal

/-!
# Issues

What can be wrong with a movie before it is planned. An issue says what is wrong with which part;
`Issue.message` puts it into words.
-/

namespace Stagecraft

variable {K : Type}

inductive EntityKind where
  | actor
  | camera
  | light
  | spline
  deriving DecidableEq, Repr

def EntityKind.label : EntityKind → String
  | actor => "actor"
  | camera => "camera"
  | light => "light"
  | spline => "spline"

inductive Usage where
  | attachment (camera : String)
  | actorSequence
  | cameraSequence
  | command (entity : String) (index : Nat)
  | timelineEvent (index : Nat)
  | script
  | followSpline
  deriving DecidableEq, Repr

def Usage.text : Usage → String
  | attachment camera => "attachment of camera '" ++ camera ++ "'"
  | actorSequence => "actor sequence"
  | cameraSequence => "camera sequence"
  | command entity index => "command #" ++ toString index ++ " for '" ++ entity ++ "'"
  | timelineEvent index => "timeline event #" ++ toString index
  | script => "script"
  | followSpline => "follow_spline"

inductive CommandIssue where
  | facesItself
  | waitsUntilNegative
  | tillEndNotLast
  | focalLengthNotPositive
  | holdNegative
  deriving DecidableEq, Repr

def CommandIssue.message : CommandIssue → String
  | facesItself => "an actor cannot face itself"
  | waitsUntilNegative => "cannot wait until a negative time"
  | tillEndNotLast => "a till-end stay must be the actor's last command"
  | focalLengthNotPositive => "focal length must be positive"
  | holdNegative => "hold duration must not be negative"

/-- Something wrong with a movie. -/
inductive Issue (K : Type) where
  | frameRate (movie : String) (fps : K)
  | durationNegative
  | nameBlank (kind : EntityKind)
  | nameRepeated (name : String) (first second : EntityKind)
  | radiusNegative (actor : String)
  | heightNotPositive (actor : String)
  | opticsNotPositive (camera : String)
  | occupancy (camera : String) (value : K)
  | focalBounds (camera : String) (min max : K)
  | splineTooShort (spline : String)
  | tensionNegative (spline : String)
  | groupNested (block : Nat)
  | memberRepeated (block : Nat) (name : String)
  | wrongKind (usage : Usage) (name : String) (found expected : EntityKind)
  | unresolved (kind : EntityKind) (name : String) (usage : Usage)
  | command (entity : String) (index : Nat) (cause : CommandIssue)
  | eventNegative (index : Nat)
  deriving BEq

/-- The sort of an issue: a name that is not declared, a command, or any other argument. -/
inductive IssueSort where
  | unresolved
  | command
  | argument
  deriving DecidableEq, Repr

namespace Issue

def sort : Issue K → IssueSort
  | .unresolved .. => .unresolved
  | .command .. => .command
  | _ => .argument

def unresolvedText (kind : EntityKind) (name : String) (usage : Usage) : String :=
  "unresolved reference: " ++ kind.label ++ " '" ++ name ++ "' is not declared (" ++ usage.text ++
    ")"

def commandText (entity : String) (index : Nat) (cause : String) : String :=
  "command #" ++ toString index ++ " for '" ++ entity ++ "': " ++ cause

def argumentText (cause : String) : String :=
  "invalid argument: " ++ cause

def splineTooShortText (spline : String) : String :=
  "spline '" ++ spline ++ "' needs at least 2 control points"

def message [Numeral K] : Issue K → String
  | .frameRate movie fps =>
    argumentText ("movie '" ++ movie ++ "' frame rate must be positive, got " ++ Numeral.text fps)
  | .durationNegative => argumentText "movie duration must not be negative"
  | .nameBlank kind => argumentText ("a " ++ kind.label ++ " has an empty name")
  | .nameRepeated name first second =>
    argumentText ("duplicate entity name '" ++ name ++ "' (" ++ first.label ++ " and " ++
      second.label ++ ")")
  | .radiusNegative actor => argumentText ("actor '" ++ actor ++ "' has a negative radius")
  | .heightNotPositive actor =>
    argumentText ("actor '" ++ actor ++ "' must have a positive height")
  | .opticsNotPositive camera =>
    argumentText ("camera '" ++ camera ++ "' needs a positive sensor height and focal length")
  | .occupancy camera value =>
    argumentText ("camera '" ++ camera ++ "' auto-zoom occupancy must be in (0, 1], got " ++
      Numeral.text value)
  | .focalBounds camera min max =>
    argumentText ("camera '" ++ camera ++ "' auto-zoom focal bounds are invalid (" ++
      Numeral.text min ++ " > " ++ Numeral.text max ++ ")")
  | .splineTooShort spline => argumentText (splineTooShortText spline)
  | .tensionNegative spline =>
    argumentText ("spline '" ++ spline ++ "' tension must not be negative")
  | .groupNested block =>
    argumentText ("script block #" ++ toString block ++
      " nests a simultaneous group inside another")
  | .memberRepeated block name =>
    argumentText ("script block #" ++ toString block ++ " lists '" ++ name ++
      "' twice in one simultaneous group")
  | .wrongKind usage name found expected =>
    argumentText (usage.text ++ ": '" ++ name ++ "' is a " ++ found.label ++ ", expected a " ++
      expected.label)
  | .unresolved kind name usage => unresolvedText kind name usage
  | .command entity index cause => commandText entity index cause.message
  | .eventNegative index =>
    argumentText ("timeline event #" ++ toString index ++ " has a negative time")

end Issue

end Stagecraft
