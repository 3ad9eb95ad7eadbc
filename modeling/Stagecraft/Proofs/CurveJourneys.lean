import Stagecraft.Proofs.MeasuredCurves
import Stagecraft.Proofs.RefusedPlans
import Stagecraft.Proofs.SafeWalks
import Stagecraft.Proofs.SoloMovies
import Stagecraft.Proofs.SolvedMotions
import Stagecraft.Proofs.StraightCurves

/-!
# Journeys along curves

A command to follow a spline states a window of arclengths. Travel begins at one end of it, in the
direction of the command, and goes on by its profile whether or not the other end lies ahead.
Everything about such a command is told from its journey: where the walk of the script meets it,
the curve it is on and the motion that is resolved for it. There is just one.
-/

namespace Stagecraft.Proofs

section Windows

variable {K : Type} [Scalar K]

/-- The arclength where the window of a command starts, as it is stated. -/
def windowStart (c : FollowCommand K) : K :=
  (c.rangeStart.map Distance.internal).getD 0

/-- The arclength where the window of a command ends, as it is stated. -/
def windowEnd (c : FollowCommand K) (curve : Curve K) : K :=
  (c.rangeEnd.map Distance.internal).getD curve.length

def keptStart (c : FollowCommand K) (curve : Curve K) : K :=
  Scalar.clamp 0 curve.length (windowStart c)

def keptEnd (c : FollowCommand K) (curve : Curve K) : K :=
  Scalar.clamp 0 curve.length (windowEnd c curve)

/-- The length of the window that is kept of the one stated. -/
def windowLength (c : FollowCommand K) (curve : Curve K) : K :=
  Scalar.abs (keptEnd c curve - keptStart c curve)

/-- Where travel begins. -/
def origin (c : FollowCommand K) (curve : Curve K) : K :=
  if c.reverse then keptEnd c curve else keptStart c curve

/-- The other end of the window. -/
def goal (c : FollowCommand K) (curve : Curve K) : K :=
  if c.reverse then keptStart c curve else keptEnd c curve

def direction (c : FollowCommand K) : K :=
  if c.reverse then -1 else 1

/-- The arclength after some distance of travel, not yet brought onto the curve. -/
def travelled (c : FollowCommand K) (curve : Curve K) (distance : K) : K :=
  origin c curve + direction c * distance

/-- Travel ends beyond an end of an open curve. -/
def runsOver (c : FollowCommand K) (curve : Curve K) (p : Profile K) : Bool :=
  !curve.closed && (travelled c curve p.distance < -1e-6 ||
    curve.length + 1e-6 < travelled c curve p.distance)

def journeySpan (r : Run K) (c : FollowCommand K) (curve : Curve K) (p : Profile K) : Span K :=
  followSpan r c curve (origin c curve) (direction c) p

def journeyFindings (c : FollowCommand K) (curve : Curve K) (motion : ResolvedMotion K) :
    List (Finding K) :=
  motion.notes.map .motion ++
    if runsOver c curve motion.profile then
      [.travelOverruns motion.profile.distance c.spline curve.length]
    else []

variable {rate : FrameRate K} {r : Run K} {index : ℕ} {c : FollowCommand K} {curve : Curve K}

/-- On a curve with a length, a command to follow it fails by its motion only. -/
theorem follow_eq (h : (@OfNat.ofNat K 0 Scalar.instOfNat) ≤ curve.length) :
    r.follow rate index c curve = do
      let motion ← (Run.followMotion c.motion (windowLength c curve)).resolve.mapError
        (PlanError.motion r.actor.name index)
      return ({ r.play rate (journeySpan r c curve motion.profile) with lane := none },
        journeyFindings c curve motion) := by
  have hclamp (x : K) : Scalar.clamp? 0 curve.length x = some (Scalar.clamp 0 curve.length x) :=
    if_pos h
  unfold Run.follow
  simp only [hclamp]
  cases hreverse : c.reverse
  · simp only [journeySpan, journeyFindings, runsOver, travelled, origin, direction, hreverse]
    rfl
  · simp only [journeySpan, journeyFindings, runsOver, travelled, origin, direction, hreverse]
    rfl

end Windows

section Places

lemma ofSpline?_bounded {spline : Spline ℝ} {samples : ℕ} {curve : Curve ℝ}
    (h : Curve.ofSpline? spline samples = some curve) :
    (@OfNat.ofNat ℝ 0 Scalar.instOfNat) ≤ curve.length := by
  rw [zero_real]
  exact ofSpline?_length h

/-- Any arclength is brought to a place on the curve. -/
lemma exists_place {spline : Spline ℝ} {samples : ℕ} {curve : Curve ℝ}
    (h : Curve.ofSpline? spline samples = some curve) (arclength : ℝ) :
    ∃ place, curve.travelAt? arclength = some place := by
  have hlength := ofSpline?_bounded h
  have hwrap : ∃ s, curve.wrap? arclength = some s := by
    unfold Curve.wrap?
    split
    · exact ⟨_, rfl⟩
    · exact ⟨_, clamp?_of_le hlength arclength⟩
  obtain ⟨s, hs⟩ := hwrap
  obtain ⟨place, hplace, -⟩ := sampleAt?_eq (ofSpline?_segments h) (ofSpline?_length h) s
  have htravel : curve.travelAt? arclength = curve.sampleAt? s := by
    unfold Curve.travelAt?
    rw [hs]
    rfl
  exact ⟨place, htravel.trans hplace⟩

end Places

section Journeys

/-- What a command to follow a spline leads to: the stage that the walk of the script has come to
when it meets the command, the curve and the motion along it. -/
structure Journey (o : PlanOptions ℝ) (m : Movie ℝ) (name : String) (index : ℕ)
    (c : FollowCommand ℝ) where
  front : List (Step ℝ)
  after : List (Step ℝ)
  stage : Stage ℝ
  run : Run ℝ
  spline : Spline ℝ
  curve : Curve ℝ
  motion : ResolvedMotion ℝ
  steps_eq : scriptSteps m = front ++ .command name (.follow c) :: after
  index_eq : (commandsIn name front).length = index
  reached : front.foldlM perform ⟨Session.start m o, 0⟩ = .ok stage
  run_eq : stage.session.run name = .ok run
  spline_eq : m.spline? c.spline = some spline
  curve_eq : Curve.ofSpline? spline o.samplesPerSegment = some curve
  resolved : (Run.followMotion c.motion (windowLength c curve)).resolve = .ok motion

variable {o : PlanOptions ℝ} {m : Movie ℝ} {name : String} {index : ℕ} {c : FollowCommand ℝ}
  {s : Session ℝ} {reel : Reel ℝ}

/-- A session measures the spline that is declared under a name. -/
lemma curve_iff {spline : String} {curve : Curve ℝ} (hs : Follows (Session.start m o) s) :
    s.curve spline = .ok curve ↔ ∃ declared, m.spline? spline = some declared ∧
      Curve.ofSpline? declared o.samplesPerSegment = some curve := by
  have hfind : m.spline? spline = m.splines.find? fun declared => declared.name = spline := rfl
  unfold Session.curve
  rw [hs.curves_eq, Session.start, lookup_map_name, hfind]
  cases m.splines.find? fun declared => declared.name = spline with
  | none => simp
  | some declared =>
    cases hcurve : Curve.ofSpline? declared o.samplesPerSegment with
    | none => simp [Thunk.get, hcurve]
    | some measured => simp [Thunk.get, hcurve]

/-- A command to follow a declared spline fails by its motion only. -/
theorem obey_follow_eq {spline : Spline ℝ} {curve : Curve ℝ} (hs : Follows (Session.start m o) s)
    (hspline : m.spline? c.spline = some spline)
    (hcurve : Curve.ofSpline? spline o.samplesPerSegment = some curve) (i : ℕ) (r : Run ℝ) :
    obey s i r (.follow c) = do
      let motion ← (Run.followMotion c.motion (windowLength c curve)).resolve.mapError
        (PlanError.motion r.actor.name i)
      return ({ r.play s.movie.fps (journeySpan r c curve motion.profile) with lane := none },
        journeyFindings c curve motion) := by
  refine (bind_of_ok ((curve_iff hs).mpr ⟨spline, hspline, hcurve⟩) _).trans ?_
  rw [follow_eq (ofSpline?_bounded hcurve)]

namespace Journey

/-- There is only one journey of a command. -/
lemma eq_of_same (j j' : Journey o m name index c) : j = j' := by
  obtain ⟨front, after, stage, run, spline, curve, motion, hsteps, hindex, hreached, hrun, hspline,
    hcurve, hresolved⟩ := j
  obtain ⟨front', after', stage', run', spline', curve', motion', hsteps', hindex', hreached',
    hrun', hspline', hcurve', hresolved'⟩ := j'
  obtain ⟨rfl, -, rfl⟩ :=
    steps_split_unique (hsteps.symm.trans hsteps') (hindex.trans hindex'.symm)
  cases hreached.symm.trans hreached'
  cases hrun.symm.trans hrun'
  cases hspline.symm.trans hspline'
  cases hcurve.symm.trans hcurve'
  cases hresolved.symm.trans hresolved'
  rfl

lemma length_nonneg (j : Journey o m name index c) : 0 ≤ j.curve.length :=
  ofSpline?_length j.curve_eq

noncomputable def span (j : Journey o m name index c) : Span ℝ :=
  journeySpan j.run c j.curve j.motion.profile

/-- The arclength at a time of the journey. -/
noncomputable def arclengthAt (j : Journey o m name index c) (t : ℝ) : ℝ :=
  travelled c j.curve (j.motion.profile.distanceAt t)

/-- The place at a time is the one at the arclength of that time, whichever way it is faced. -/
lemma pose_eq (j : Journey o m name index c) (t : ℝ) : ∃ place,
    j.curve.travelAt? (j.arclengthAt t) = some place ∧ j.span.pose t =
      ⟨place.position, (place.tangent * direction c).yaw, (place.tangent * direction c).pitch⟩ := by
  obtain ⟨place, hplace⟩ := exists_place j.curve_eq (j.arclengthAt t)
  refine ⟨place, hplace, ?_⟩
  change Run.followPose j.run.pose j.curve (origin c j.curve) (direction c) j.motion.profile t = _
  unfold Run.followPose
  have htravel : j.curve.travelAt? (origin c j.curve +
      direction c * j.motion.profile.distanceAt t) = some place := hplace
  rw [htravel]

lemma drivable (j : Journey o m name index c) : Drivable j.motion.profile :=
  (resolve_forward j.resolved).drivable

lemma run_mem (j : Journey o m name index c) :
    j.run ∈ j.stage.session.runs ∧ j.run.actor.name = name :=
  run_ok j.run_eq

/-- The command is counted as it stands in the script. -/
lemma nextIndex_eq (j : Journey o m name index c) : j.run.nextIndex = index := by
  obtain ⟨hmem, hname⟩ := j.run_mem
  rw [counted_invariant.steps_runs j.reached j.run hmem, hname, j.index_eq]

lemma walked (j : Journey o m name index c) : j.front.foldlM perform
    ⟨Session.start m o, @OfNat.ofNat ℝ 0 Scalar.instOfNat⟩ = .ok j.stage := by
  rw [zero_real]
  exact j.reached

lemma stage_follows (j : Journey o m name index c) (hv : Valid m) :
    Follows (Session.start m o) j.stage.session :=
  steps_follow hv (.refl (Session.start m o)) j.reached

/-- What becomes of the run of the actor, and what is found. -/
lemma obey_eq (j : Journey o m name index c) (hv : Valid m) (i : ℕ) :
    obey j.stage.session i { j.run with nextIndex := i + 1 } (.follow c) =
      .ok ({ { j.run with nextIndex := i + 1 }.play j.stage.session.movie.fps j.span with
        lane := none }, journeyFindings c j.curve j.motion) := by
  rw [obey_follow_eq (j.stage_follows hv) j.spline_eq j.curve_eq]
  exact bind_of_ok (mapError_ok.mpr j.resolved) _

lemma run_free (j : Journey o m name index c) (h : m.plan o = .ok reel) : j.run.parked = none := by
  obtain ⟨st, st', s, hfront, hstep, -⟩ := plan_split h j.steps_eq
  cases hfront.symm.trans j.reached
  obtain ⟨s', hcommand, -⟩ := bind_eq_ok.mp hstep
  obtain ⟨r, r', findings, hr, hparked, -⟩ := command_ok hcommand
  cases hr.symm.trans j.run_eq
  exact hparked

/-- The journey is part of what its actor plays in the movie. -/
lemma span_played (j : Journey o m name index c) (h : m.plan o = .ok reel) : ∃ s final,
    played o m = .ok (reel.lastFrame, s) ∧ s.run name = .ok final ∧ j.span ∈ final.spans := by
  have hv := valid_of_issues_nil (issues_nil_of_plan h)
  obtain ⟨st, st', s, hfront, hstep, hplayed, -, hst, hst', hend⟩ := plan_split h j.steps_eq
  cases hfront.symm.trans j.reached
  obtain ⟨s', hcommand, hdone⟩ := bind_eq_ok.mp hstep
  obtain ⟨r, r', findings, hr, -, hobey, rfl⟩ := command_ok hcommand
  cases hdone
  cases hr.symm.trans j.run_eq
  have hmeets := j.obey_eq hv j.run.nextIndex
  rw [hmeets] at hobey
  obtain ⟨rfl, -⟩ := Prod.mk.inj (Except.ok.inj hobey)
  obtain ⟨hmem, hname⟩ := j.run_mem
  have hrun := run_setRun (hst.runNames_nodup hv) hmem (congrArg Actor.name (obey_kept hmeets).1)
  obtain ⟨final, hfinal, hadvance⟩ := mem_of_forall₂_left hend.runs_advance (run_ok hrun).1
  have hfound := run_of_mem ((hst.trans (hst'.trans hend)).runNames_nodup hv) hfinal
  rw [hadvance.actor_eq, (obey_kept hmeets).1] at hfound
  refine ⟨s, final, hplayed, hname ▸ hfound, hadvance.spans_suffix.subset ?_⟩
  exact List.mem_cons_self

end Journey

/-- A command to follow a spline in a planned movie leads on one journey. -/
theorem exists_journey (h : m.plan o = .ok reel)
    (hc : (m.commandsFor name)[index]? = some (.follow c)) :
    ∃ j : Journey o m name index c, ∀ j', j' = j := by
  rw [← commandsIn_scriptSteps] at hc
  obtain ⟨front, after, hsteps, hindex⟩ := exists_step_of_command hc
  obtain ⟨st, st', s, hfront, hstep, -, -, hst, -, -⟩ := plan_split h hsteps
  obtain ⟨s', hcommand, -⟩ := bind_eq_ok.mp hstep
  obtain ⟨r, r', findings, hr, -, hobey, -⟩ := command_ok hcommand
  obtain ⟨curve, hcurve, -⟩ := bind_eq_ok.mp hobey
  obtain ⟨declared, hdeclared, hmeasured⟩ := (curve_iff hst).mp hcurve
  rw [obey_follow_eq hst hdeclared hmeasured] at hobey
  obtain ⟨motion, hmotion, -⟩ := bind_eq_ok.mp hobey
  let j : Journey o m name index c := ⟨front, after, st, r, declared, curve, motion, hsteps, hindex,
    hfront, hr, hdeclared, hmeasured, mapError_ok.mp hmotion⟩
  exact ⟨j, fun j' => j'.eq_of_same j⟩

end Journeys

section Shuttles

variable {o : PlanOptions ℝ} {c : FollowCommand ℝ}

/-- A straight track of 128 centimeters. -/
noncomputable def track : Spline ℝ :=
  straight ⟨0, 0, 0⟩ ⟨128, 0, 0⟩ "track"

/-- An actor is told to follow a straight track. -/
noncomputable def shuttle (c : FollowCommand ℝ) : Movie ℝ :=
  { Movie.empty "shuttle" 1 with
    actors := [Actor.named "A"]
    splines := [track]
    script := [.actor ⟨"A", [.follow c]⟩] }

lemma shuttle_issues (hc : c.spline = "track") : (shuttle c).issues = [] := by
  have hactor : Movie.actorIssues (Actor.named "A" : Actor ℝ) = [] := actorIssues_named "A"
  have htension : Movie.splineIssues track = [] := by
    simp [Movie.splineIssues, track, straight]
  have hname : track.name = "track" := rfl
  simp only [Movie.issues, shuttle, Movie.empty, List.flatMap_cons, List.flatMap_nil, hactor,
    htension]
  simp [isValid_real, Movie.declared, Movie.nameIssues, Movie.groupIssues, hname,
    Movie.scriptIssues, Movie.sequences, Block.flatten, Movie.sequenceIssues,
    Movie.commandIssues, Movie.nameIssue?, Movie.kind?, Actor.named, Movie.tillEndIssues,
    Movie.commandsFor, isBlankText, isBlankChar, List.lookup_cons, Command.isTillEnd, hc]

lemma track_curve (samples : ℕ) : ∃ curve, Curve.ofSpline? track samples = some curve ∧
    curve.closed = false ∧ curve.length = 128 := by
  obtain ⟨curve, hcurve, hopen, hlength⟩ := straight_curve ⟨0, 0, 0⟩ ⟨128, 0, 0⟩ "track" samples
  refine ⟨curve, hcurve, hopen, hlength.trans ?_⟩
  change Real.sqrt ((128 - 0) * (128 - 0) + (0 - 0) * (0 - 0) + (0 - 0) * (0 - 0)) = 128
  have hsquare : ((128 - 0) * (128 - 0) + (0 - 0) * (0 - 0) + (0 - 0) * (0 - 0) : ℝ) = 128 ^ 2 := by
    norm_num
  rw [hsquare]
  exact Real.sqrt_sq (by norm_num)

lemma shuttle_command : ((shuttle c).commandsFor "A")[0]? = some (.follow c) := rfl

lemma shuttle_spline (hc : c.spline = "track") : (shuttle c).spline? c.spline = some track := by
  rw [hc]
  rfl

/-- Every journey of a shuttle is along its track. -/
lemma shuttle_along (hc : c.spline = "track") (j : Journey o (shuttle c) "A" 0 c) :
    j.curve.closed = false ∧ j.curve.length = 128 := by
  obtain ⟨curve, hcurve, hopen, hlength⟩ := track_curve o.samplesPerSegment
  have hspline : track = j.spline := Option.some.inj ((shuttle_spline hc).symm.trans j.spline_eq)
  have hsame : curve = j.curve := by
    rw [hspline] at hcurve
    exact Option.some.inj (hcurve.symm.trans j.curve_eq)
  exact hsame ▸ ⟨hopen, hlength⟩

/-- The plan of a shuttle asks for nothing but a motion. -/
lemma shuttle_plan (hc : c.spline = "track")
    (hmotion : ∀ curve : Curve ℝ, curve.length = 128 →
      ∃ motion, (Run.followMotion c.motion (windowLength c curve)).resolve = .ok motion) :
    ∃ reel, (shuttle c).plan o = .ok reel := by
  have hissues := shuttle_issues hc
  obtain ⟨curve, hcurve, -, hlength⟩ := track_curve o.samplesPerSegment
  obtain ⟨motion, hresolve⟩ := hmotion curve hlength
  have hstart : Alone (shuttle c) o (Session.start (shuttle c) o) (Run.start (Actor.named "A")) :=
    ⟨.refl _, rfl, rfl, rfl, rfl⟩
  have hobey (i : ℕ) (r : Run ℝ) : obey (Session.start (shuttle c) o) i r (.follow c) =
      .ok ({ r.play (shuttle c).fps (journeySpan r c curve motion.profile) with lane := none },
        journeyFindings c curve motion) := by
    rw [obey_follow_eq (.refl _) (shuttle_spline hc) hcurve]
    exact bind_of_ok (mapError_ok.mpr hresolve) _
  obtain ⟨s, hblock, hs⟩ := hstart.obey (valid_of_issues_nil hissues) (hobey _ _)
    (play_parked _ _ _)
  have hwalk : walk o (shuttle c) = .ok s := bind_eq_ok.mpr ⟨s, hblock, rfl⟩
  obtain ⟨reel, -, hplan, -⟩ := hs.plan hissues rfl hwalk
  exact ⟨reel, hplan⟩

/-- To follow the track at 64 centimeters per second, within a window. -/
noncomputable def tram (first last : ℝ) (reverse : Bool) : FollowCommand ℝ where
  spline := "track"
  motion := { startSpeed := some (.centimetersPerSecond 64) }
  rangeStart := some (.centimeters first)
  rangeEnd := some (.centimeters last)
  reverse := reverse
  animation := none

variable {first last w : ℝ} {reverse : Bool}

lemma tram_window (first last : ℝ) (reverse : Bool) (curve : Curve ℝ) :
    windowStart (tram first last reverse) = first ∧
      windowEnd (tram first last reverse) curve = last :=
  ⟨centimeters_real first, centimeters_real last⟩

lemma tram_resolve (hw : 1e-9 < w) :
    (Run.followMotion (tram first last reverse).motion w).resolve =
      .ok ⟨Profile.constant 64 (w / 64), []⟩ := by
  have hforward : ¬(64 : ℝ) < 0 ∧ ¬w < 0 ∧ ¬w ≤ 1e-9 ∧ ¬(64 : ℝ) ≤ 1e-9 := by
    refine ⟨by norm_num, (pos_of_past hw).le.not_gt, hw.not_ge, by norm_num⟩
  simp only [MotionSpec.resolve, Run.followMotion, tram]
  simp [centimeters_real, centimetersPerSecond_real, MotionSpec.nonNegative, MotionSpec.solve,
    MotionSpec.coverAtSpeed, tolerance_real, hforward]

lemma tram_plan (o : PlanOptions ℝ) (hw : 1e-9 < w) (hwindow : ∀ curve : Curve ℝ, curve.length = 128 →
    windowLength (tram first last reverse) curve = w) :
    ∃ reel, (shuttle (tram first last reverse)).plan o = .ok reel := by
  refine shuttle_plan rfl fun curve hlength => ?_
  rw [hwindow curve hlength]
  exact ⟨_, tram_resolve hw⟩

lemma tram_motion (hw : 1e-9 < w) (j : Journey o (shuttle (tram first last reverse)) "A" 0
    (tram first last reverse)) (hwindow : windowLength (tram first last reverse) j.curve = w) :
    j.motion = ⟨⟨64, 64, 0, w / 64, w⟩, []⟩ := by
  have hresolved := j.resolved
  have hduration : 0 ≤ w / 64 := div_nonneg (pos_of_past hw).le (by norm_num)
  rw [hwindow, tram_resolve hw, constant_of_nonneg hduration,
    mul_div_cancel₀ w (by norm_num : (64 : ℝ) ≠ 0)] at hresolved
  exact (Except.ok.inj hresolved).symm

end Shuttles

end Stagecraft.Proofs
