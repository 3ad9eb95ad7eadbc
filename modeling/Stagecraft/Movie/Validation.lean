import Stagecraft.Movie.Basic
import Stagecraft.Movie.Issue
import Stagecraft.Text.Blank

/-!
# Validation

`Movie.issues` collects everything that is wrong with a movie, part by part and in a fixed order.
A movie without issues may be planned. Names are resolved in the one space of all entities, where
a repeated name means its last declaration and a blank one nothing.
-/

namespace Stagecraft

variable {K : Type}

namespace Movie

/-- All entities with their kinds, in the order of declaration. -/
def declared (m : Movie K) : List (String × EntityKind) :=
  m.actors.map (fun a => (a.name, .actor)) ++ m.cameras.map (fun c => (c.name, .camera)) ++
    m.lights.map (fun l => (l.name, .light)) ++ m.splines.map (fun s => (s.name, .spline))

def kind? (m : Movie K) (name : String) : Option EntityKind :=
  if isBlankText name then none else m.declared.reverse.lookup name

/-- Blank and repeated names. `earlier` are the entities named before, latest first. -/
def nameIssues (earlier : List (String × EntityKind)) :
    List (String × EntityKind) → List (Issue K)
  | [] => []
  | (name, kind) :: rest =>
    if isBlankText name then .nameBlank kind :: nameIssues earlier rest
    else
      (match earlier.lookup name with
        | some first => [.nameRepeated name first kind]
        | none => []) ++
      nameIssues ((name, kind) :: earlier) rest

/-- The issue with a name that is used for an entity of a kind. -/
def nameIssue? (m : Movie K) (expected : EntityKind) (name : String) (usage : Usage) :
    Option (Issue K) :=
  match m.kind? name with
  | some kind => if kind = expected then none else some (.wrongKind usage name kind expected)
  | none => some (.unresolved expected name usage)

variable [Scalar K]

def zoomIssues (camera : String) (occupancy : Option K) (min max : K) : List (Issue K) :=
  (match occupancy with
    | some o => if 0 < o ∧ o ≤ 1 then [] else [.occupancy camera o]
    | none => []) ++
  (if min ≤ 0 ∨ max < min then [.focalBounds camera min max] else [])

def actorIssues (a : Actor K) : List (Issue K) :=
  (if a.radius.internal < 0 then [.radiusNegative a.name] else []) ++
  (if a.height.internal ≤ 0 then [.heightNotPositive a.name] else [])

def cameraIssues (m : Movie K) (c : Camera K) : List (Issue K) :=
  (if c.sensorHeight ≤ 0 ∨ c.focalLength ≤ 0 then [.opticsNotPositive c.name] else []) ++
  (match c.attachment with
    | some a => (m.nameIssue? .actor a.actor (.attachment c.name)).toList
    | none => []) ++
  (match c.autoZoom with
    | some z => zoomIssues c.name (some z.occupancy) z.minFocal z.maxFocal
    | none => [])

def splineIssues (s : Spline K) : List (Issue K) :=
  (if s.points.length < 2 then [.splineTooShort s.name] else []) ++
  (if s.tension < 0 then [.tensionNegative s.name] else [])

omit [Scalar K] in
/-- The issues with the members of a group. `earlier` are the entities of the members before. -/
def memberIssues (block : Nat) (earlier : List String) : List (Block K) → List (Issue K)
  | [] => []
  | b :: rest =>
    match b.entity? with
    | none => .groupNested block :: memberIssues block earlier rest
    | some name =>
      if name ∈ earlier then .memberRepeated block name :: memberIssues block earlier rest
      else memberIssues block (name :: earlier) rest

omit [Scalar K] in
def groupIssues (m : Movie K) : List (Issue K) :=
  m.script.zipIdx.flatMap fun
    | (.simultaneous members, block) => memberIssues block [] members
    | _ => []

def commandIssues (m : Movie K) (actor : String) (index : Nat) : Command K → List (Issue K)
  | .move _ => []
  | .face ⟨.actor name, _, _⟩ =>
    if name = actor then [.command actor index .facesItself]
    else (m.nameIssue? .actor name (.command actor index)).toList
  | .face _ => []
  | .stay ⟨.waiting moment, _⟩ =>
    if moment.internal < 0 then [.command actor index .waitsUntilNegative] else []
  | .stay _ => []
  | .follow c => (m.nameIssue? .spline c.spline (.command actor index)).toList

/-- The issues with the command to a camera at an index. Where a bound of a zoom is not stated,
the least or the greatest number stands in. -/
def cameraCommandIssues (m : Movie K) (camera : String) (index : Nat) (c : CameraCommand K) :
    List (Issue K) :=
  (match c.subject? with
    | some subject => (m.nameIssue? .actor subject (.command camera index)).toList
    | none => []) ++
  (match c with
    | .autoZoom _ occupancy minFocal maxFocal =>
      zoomIssues camera occupancy (minFocal.getD Scalar.leastNormal)
        (maxFocal.getD Scalar.greatest)
    | .setFocalLength mm =>
      if mm ≤ 0 then [.command camera index .focalLengthNotPositive] else []
    | .hold duration =>
      if duration.internal < 0 then [.command camera index .holdNegative] else []
    | _ => [])

omit [Scalar K] in
/-- How many of the commands in some sequences are addressed to an actor. -/
def actorCommandCount (actor : String) (sequences : List (Block K)) : Nat :=
  (sequences.flatMap fun
    | .actor s => if s.actor = actor then s.commands else []
    | _ => []).length

omit [Scalar K] in
/-- How many of the commands in some sequences are addressed to a camera. -/
def cameraCommandCount (camera : String) (sequences : List (Block K)) : Nat :=
  (sequences.flatMap fun
    | .camera s => if s.camera = camera then s.commands else []
    | _ => []).length

def sequenceIssues (m : Movie K) (earlier : List (Block K)) : Block K → List (Issue K)
  | .actor s =>
    match m.nameIssue? .actor s.actor .actorSequence with
    | some issue => [issue]
    | none =>
      (s.commands.zipIdx (actorCommandCount s.actor earlier)).flatMap fun (c, index) =>
        m.commandIssues s.actor index c
  | .camera s =>
    match m.nameIssue? .camera s.camera .cameraSequence with
    | some issue => [issue]
    | none =>
      (s.commands.zipIdx (cameraCommandCount s.camera earlier)).flatMap fun (c, index) =>
        m.cameraCommandIssues s.camera index c
  | .simultaneous _ => []

def scriptIssues (m : Movie K) (earlier : List (Block K)) : List (Block K) → List (Issue K)
  | [] => []
  | b :: rest => m.sequenceIssues earlier b ++ scriptIssues m (b :: earlier) rest

omit [Scalar K] in
/-- A stay to the end has no end until everything else is planned, so nothing may follow it. -/
def tillEndIssues (m : Movie K) (a : Actor K) : List (Issue K) :=
  let commands := m.commandsFor a.name
  match commands.findIdx? Command.isTillEnd with
  | some index =>
    if index + 1 < commands.length then [.command a.name index .tillEndNotLast] else []
  | none => []

def eventIssues (m : Movie K) (index : Nat) (e : TimelineEvent K) : List (Issue K) :=
  (if e.moment.internal < 0 then [.eventNegative index] else []) ++
  (match e with
    | .cameraCut _ camera => (m.nameIssue? .camera camera (.timelineEvent index)).toList
    | .marker _ _ => [])

/-- Everything that is wrong with a movie. -/
def issues (m : Movie K) : List (Issue K) :=
  (if m.fps.isValid then [] else [.frameRate m.name m.fps.fps]) ++
  (match m.duration with
    | some duration => if duration.internal < 0 then [.durationNegative] else []
    | none => []) ++
  nameIssues [] m.declared ++
  m.actors.flatMap actorIssues ++
  m.cameras.flatMap m.cameraIssues ++
  m.splines.flatMap splineIssues ++
  m.groupIssues ++
  m.scriptIssues [] m.sequences ++
  m.actors.flatMap m.tillEndIssues ++
  m.timeline.zipIdx.flatMap fun (e, index) => m.eventIssues index e

end Movie

end Stagecraft
