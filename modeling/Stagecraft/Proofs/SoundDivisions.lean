import Stagecraft.Proofs.SessionRuns
import Stagecraft.Proofs.ZeroDivisors
import Stagecraft.Proofs.ZoomedFocals

/-!
# Sound divisions

Planning a movie without issues never divides by zero. Most divisors are looked at right before
they are divided by. The others come from the movie: its rate is positive, the runs of a session are
keyed at every frame, so neighbouring keys are a frame apart, and a zoom is to fill some of its
frame with a subject that has a height. So each part of planning makes the same of its numbers
whatever a division by zero gives.
-/

namespace Stagecraft.Proofs

variable {f g : ℝ → ℝ}

section Lanes

lemma midpoint_divided (b : Bounds ℝ) : @Bounds.midpoint ℝ (divided f g) b = b.midpoint :=
  div_divided (literal_ne_zero two_ne_zero)

lemma fit_divided (b : Bounds ℝ) (radius : ℝ) :
    @Bounds.fit ℝ (divided f g) b radius = b.fit radius := by
  unfold Bounds.fit
  rw [midpoint_divided]
  dsimp only
  rw [div_divided (literal_ne_zero two_ne_zero)]
  rfl

lemma into?_divided (previous : Option (Lane ℝ)) (bounds : Bounds ℝ) (radius : ℝ)
    (anchor : Anchor) :
    @Drift.into? ℝ (divided f g) previous bounds radius anchor =
      Drift.into? previous bounds radius anchor := by
  unfold Drift.into?
  rw [midpoint_divided]
  rfl

end Lanes

section Runs

variable {rate : FrameRate ℝ} {r : Run ℝ}

lemma fraction_divided (duration t : ℝ) :
    @Span.fraction ℝ (divided f g) duration t = Span.fraction duration t := by
  unfold Span.fraction
  refine ite_congr rfl (fun hlong => ?_) fun _ => rfl
  rw [tolerance_real] at hlong
  rw [div_divided (by linarith)]

lemma momentAt_divided (h : rate.fps ≠ 0) (s : Span ℝ) (last frame : ℕ) :
    @Span.momentAt ℝ (divided f g) rate s last frame = s.momentAt rate last frame := by
  unfold Span.momentAt
  rw [secondsAt_divided h]
  rfl

lemma key_divided (r : Run ℝ) (frame : ℕ) (p : Pose ℝ) :
    @Run.key ℝ (divided f g) r frame p = r.key frame p := by
  unfold Run.key
  rw [unwrapYaw_divided]

lemma run_start_divided (a : Actor ℝ) : @Run.start ℝ (divided f g) a = Run.start a := by
  unfold Run.start
  dsimp only
  rw [key_divided]

lemma sample_divided (h : rate.fps ≠ 0) (s : Span ℝ) (r : Run ℝ) :
    @Run.sample ℝ (divided f g) rate s r = r.sample rate s := by
  unfold Run.sample
  simp only [momentAt_divided h, key_divided]
  rfl

lemma play_divided (h : rate.fps ≠ 0) (s : Span ℝ) (r : Run ℝ) :
    @Run.play ℝ (divided f g) rate s r = r.play rate s := by
  unfold Run.play
  rw [sample_divided h]
  rfl

lemma hold_divided (h : rate.fps ≠ 0) (duration : ℝ) (clip : Option (Clip ℝ)) (r : Run ℝ) :
    @Run.hold ℝ (divided f g) rate duration clip r = r.hold rate duration clip := by
  unfold Run.hold
  rw [play_divided h]

lemma holdUntil_divided (h : rate.fps ≠ 0) (moment : ℝ) (clip : Option (Clip ℝ)) (r : Run ℝ) :
    @Run.holdUntil ℝ (divided f g) rate moment clip r = r.holdUntil rate moment clip := by
  unfold Run.holdUntil
  rw [hold_divided h]
  rfl

lemma enter_divided (anchor : Anchor) (heading : ℝ) (corridor : Corridor ℝ) (r : Run ℝ) :
    @Run.enter ℝ (divided f g) anchor heading corridor r = r.enter anchor heading corridor := by
  unfold Run.enter
  simp only [fit_divided, shortestYaw_divided, into?_divided]
  rfl

lemma movePose_divided (start : Pose ℝ) (heading : ℝ) (profile : Profile ℝ)
    (drift : Option (Drift ℝ)) :
    @Run.movePose ℝ (divided f g) start heading profile drift =
      Run.movePose start heading profile drift := by
  funext t
  unfold Run.movePose
  simp only [distanceAt_divided, fraction_divided]
  rfl

lemma move_divided (h : rate.fps ≠ 0) (anchor : Anchor) (index : ℕ) (c : MoveCommand ℝ)
    (r : Run ℝ) :
    @Run.move ℝ (divided f g) rate anchor index c r = r.move rate anchor index c := by
  unfold Run.move
  simp only [resolve_divided, enter_divided, movePose_divided, play_divided h]
  rfl

lemma turnPose_divided (start : Pose ℝ) (delta duration : ℝ) :
    @Run.turnPose ℝ (divided f g) start delta duration = Run.turnPose start delta duration := by
  funext t
  unfold Run.turnPose
  rw [fraction_divided]

lemma face_divided (h : rate.fps ≠ 0) (c : FaceCommand ℝ) (target : ℝ) (r : Run ℝ) :
    @Run.face ℝ (divided f g) rate c target r = r.face rate c target := by
  unfold Run.face
  simp only [shortestYaw_divided, turnPose_divided, play_divided h]
  rfl

lemma stay_divided (h : rate.fps ≠ 0) (index : ℕ) (c : StayCommand ℝ) (r : Run ℝ) :
    @Run.stay ℝ (divided f g) rate index c r = r.stay rate index c := by
  unfold Run.stay
  simp only [hold_divided h, holdUntil_divided h]
  rfl

lemma followPose_divided (start : Pose ℝ) (curve : Curve ℝ) (origin sign : ℝ)
    (profile : Profile ℝ) :
    @Run.followPose ℝ (divided f g) start curve origin sign profile =
      Run.followPose start curve origin sign profile := by
  funext t
  unfold Run.followPose
  simp only [distanceAt_divided, travelAt?_divided]
  rfl

lemma follow_divided (h : rate.fps ≠ 0) (index : ℕ) (c : FollowCommand ℝ) (curve : Curve ℝ)
    (r : Run ℝ) :
    @Run.follow ℝ (divided f g) rate index c curve r = r.follow rate index c curve := by
  unfold Run.follow
  simp only [resolve_divided, followPose_divided, play_divided h]
  rfl

lemma finish_divided (h : rate.fps ≠ 0) (lastFrame : ℕ) (r : Run ℝ) :
    @Run.finish ℝ (divided f g) rate lastFrame r = r.finish rate lastFrame := by
  unfold Run.finish
  simp only [secondsAt_divided h, hold_divided h]
  rfl

end Runs

section Sessions

/-- A track with a key at every frame is never sampled between two keys. -/
lemma track_sample_divided {t : TransformTrack ℝ} {n : ℕ} (h : Filled t (n + 1)) (frame : ℕ) :
    @Track.sample ℝ (divided f g) t frame = t.sample frame := by
  rw [@Filled.sample_eq n ℝ (divided f g) t h, h.sample_eq]

lemma locationAt_divided {r : Run ℝ} {n : ℕ} (h : Filled r.transform (n + 1)) (frame : ℕ) :
    @Run.locationAt ℝ (divided f g) r frame = r.locationAt frame := by
  unfold Run.locationAt
  rw [track_sample_divided h]

/-- A session of a rate that divides time, whose runs are keyed at every frame. -/
structure Dense (s : Session ℝ) : Prop where
  rate_ne_zero : s.movie.fps.fps ≠ 0
  filled : ∀ r ∈ s.runs, ∃ n, Filled r.transform (n + 1)

lemma Follows.dense {m : Movie ℝ} {o : PlanOptions ℝ} {s : Session ℝ} (hv : Valid m)
    (h : Follows (Session.start m o) s) : Dense s where
  rate_ne_zero := by
    rw [h.movie_eq]
    exact hv.rate_pos.ne'
  filled r hr := ⟨_, (h.onTime hv hr).filled⟩

namespace Dense

variable {s : Session ℝ}

lemma faceYaw_divided (hs : Dense s) (r : Run ℝ) (target : FaceTarget ℝ) :
    @Session.faceYaw ℝ (divided f g) s r target = s.faceYaw r target := by
  cases target with
  | direction d offset => rfl
  | yaw degrees => rfl
  | actor name =>
    refine bind_congr_ok rfl fun other hother => ?_
    obtain ⟨n, hfilled⟩ := hs.filled other (run_ok hother).1
    unfold Session.yawToward?
    dsimp only
    rw [locationAt_divided hfilled]
    rfl

lemma command_divided (hs : Dense s) (actor : String) (c : Command ℝ) :
    @Session.command ℝ (divided f g) actor s c = Session.command actor s c := by
  have hrate := hs.rate_ne_zero
  refine bind_congr_ok rfl fun r _ => ite_congr rfl (fun _ => bind_congr_ok rfl nofun) fun _ => ?_
  cases c with
  | move c => exact bind_congr_ok (move_divided hrate _ _ c _) fun _ _ => rfl
  | face c => simp only [hs.faceYaw_divided, face_divided hrate]
  | stay c =>
    dsimp only
    rw [stay_divided hrate]
  | follow c => simp only [follow_divided hrate]

end Dense

lemma session_start_divided (m : Movie ℝ) (o : PlanOptions ℝ) :
    @Session.start ℝ (divided f g) m o = Session.start m o := by
  unfold Session.start
  simp only [ofSpline?_divided, funext run_start_divided]
  rfl

lemma perform_divided {st : Stage ℝ} (hs : Dense st.session) (step : Step ℝ) :
    @perform ℝ (divided f g) st step = perform st step := by
  cases step with
  | gather => rfl
  | joinActor name =>
    refine bind_congr_ok rfl fun r _ => ?_
    rw [holdUntil_divided hs.rate_ne_zero]
  | joinCamera name => rfl
  | call actor => rfl
  | command actor c => exact bind_congr_ok (hs.command_divided actor c) fun _ _ => rfl
  | cues q => rfl
  | nest => rfl

theorem walk_divided {m : Movie ℝ} (hv : Valid m) (o : PlanOptions ℝ) :
    @walk ℝ (divided f g) o m = walk o m := by
  rw [@walk_eq_steps ℝ (divided f g) o m 0, walk_eq_steps o m 0, session_start_divided]
  refine congrArg (Stage.session <$> ·) ?_
  refine foldlM_congr_ok (P := fun st => Follows (Session.start m o) st.session) ?_ ?_ (.refl _)
  · exact fun st step st' hst h => hst.trans ((perform_ok h).follows hv hst)
  · exact fun st hst step _ => perform_divided (hst.dense hv) step

end Sessions

section Checks

lemma cameraCommandIssues_divided (m : Movie ℝ) (camera : String) (index : ℕ)
    (c : CameraCommand ℝ) :
    @Movie.cameraCommandIssues ℝ (divided f g) m camera index c =
      m.cameraCommandIssues camera index c := by
  unfold Movie.cameraCommandIssues
  rw [leastNormal_divided]
  rfl

lemma sequenceIssues_divided (m : Movie ℝ) (earlier : List (Block ℝ)) (b : Block ℝ) :
    @Movie.sequenceIssues ℝ (divided f g) m earlier b = m.sequenceIssues earlier b := by
  cases b with
  | actor q => rfl
  | camera q =>
    unfold Movie.sequenceIssues
    simp only [cameraCommandIssues_divided]
  | simultaneous members => rfl

lemma scriptIssues_divided (m : Movie ℝ) (earlier l : List (Block ℝ)) :
    @Movie.scriptIssues ℝ (divided f g) m earlier l = m.scriptIssues earlier l := by
  induction l generalizing earlier with
  | nil => rfl
  | cons b l ih => exact congrArg₂ (· ++ ·) (sequenceIssues_divided m earlier b) (ih _)

lemma issues_divided (m : Movie ℝ) : @Movie.issues ℝ (divided f g) m = m.issues := by
  unfold Movie.issues
  rw [scriptIssues_divided]
  rfl

end Checks

section Shots

lemma focalLength_divided (sensorHeight distance : ℝ) {height occupancy : ℝ} (hh : height ≠ 0)
    (ho : occupancy ≠ 0) :
    @Optics.focalLength ℝ (divided f g) sensorHeight distance height occupancy =
      Optics.focalLength sensorHeight distance height occupancy := by
  unfold Optics.focalLength
  dsimp only
  rw [div_divided ho, div_divided (div_ne_zero hh ho)]
  rfl

lemma solve?_divided {z : ZoomConfig ℝ} (sensorHeight distance : ℝ) {height : ℝ}
    (hh : height ≠ 0) (ho : z.occupancy ≠ 0) :
    @ZoomConfig.solve? ℝ (divided f g) z sensorHeight distance height =
      z.solve? sensorHeight distance height := by
  unfold ZoomConfig.solve?
  rw [focalLength_divided sensorHeight distance hh ho]
  rfl

/-- A zoom on a subject that has a height and is to fill some of the frame. -/
def ZoomSolves (z : Option (String × ZoomConfig ℝ)) (subject? : String → Option (Subject ℝ)) :
    Prop :=
  ∀ name config sub, z = some (name, config) → subject? name = some sub →
    sub.height ≠ 0 ∧ config.occupancy ≠ 0

lemma shot?_divided {fr : Framing ℝ} (c : Camera ℝ) {subject? : String → Option (Subject ℝ)}
    (h : ZoomSolves fr.zoom subject?) :
    @Framing.shot? ℝ (divided f g) fr c subject? = fr.shot? c subject? := by
  unfold Framing.shot?
  cases hzoom : fr.zoom with
  | none => rfl
  | some z =>
    cases hsub : subject? z.1 with
    | none =>
      simp only [Option.bind_some, hsub]
      rfl
    | some sub =>
      obtain ⟨hheight, hoccupancy⟩ := h z.1 z.2 sub hzoom hsub
      simp only [Option.bind_some, hsub, Option.map_some]
      rw [solve?_divided _ _ hheight hoccupancy]
      rfl

lemma frame?_divided {rate : FrameRate ℝ} (c : Camera ℝ) {o : PlanOptions ℝ}
    {subject? : ℕ → String → Option (Subject ℝ)} {s : Shooting ℝ} {frame : ℕ}
    (h : ZoomSolves (s.advance rate c o frame).framing.zoom (subject? frame)) :
    @Shooting.frame? ℝ (divided f g) rate c o subject? s frame =
      s.frame? rate c o subject? frame := by
  unfold Shooting.frame?
  exact congrArg (· >>= _) (shot?_divided c h)

theorem shoot?_divided {rate : FrameRate ℝ} {o : PlanOptions ℝ}
    {subject? : ℕ → String → Option (Subject ℝ)} {sheet : CueSheet ℝ}
    (h : ∀ frame, ZoomSolves (zoomAt? rate o sheet frame) (subject? frame)) (last : ℕ) :
    @CueSheet.shoot? ℝ (divided f g) rate o subject? last sheet =
      sheet.shoot? rate o subject? last := by
  unfold CueSheet.shoot?
  refine congrArg (· >>= _) (range_foldlM_congr (P := ShotUpTo rate sheet.camera o sheet.cues)
    (start_shotUpTo sheet) (fun _ _ _ => frame?_shotUpTo) (fun n s hs => ?_) (last + 1))
  refine frame?_divided sheet.camera ?_
  rw [(advance_zoom hs).2]
  exact h n

end Shots

section Plans

variable {m : Movie ℝ} {o : PlanOptions ℝ} {s : Session ℝ} {last : ℕ}

lemma subject?_divided (hs : Dense s) :
    @Session.subject? ℝ (divided f g) s = s.subject? := by
  funext frame name
  refine Option.bind_congr fun r hr => ?_
  obtain ⟨n, hfilled⟩ := hs.filled r (List.mem_of_find?_eq_some hr)
  unfold Run.subjectAt
  rw [track_sample_divided hfilled]
  rfl

lemma finishRun_divided (hrate : s.movie.fps.fps ≠ 0) (last : ℕ) (r : Run ℝ) :
    @Session.finishRun ℝ (divided f g) last s r = s.finishRun last r := by
  unfold Session.finishRun
  rw [finish_divided hrate]

lemma finishRuns_divided (hrate : s.movie.fps.fps ≠ 0) (last : ℕ) :
    @Session.finishRuns ℝ (divided f g) last s = s.finishRuns last := by
  have hruns (l : List (Run ℝ)) : ∀ s : Session ℝ, s.movie.fps.fps ≠ 0 →
      l.foldl (@Session.finishRun ℝ (divided f g) last) s = l.foldl (Session.finishRun last) s := by
    induction l with
    | nil =>
      intro s _
      rw [List.foldl_nil, List.foldl_nil]
    | cons r l ih =>
      intro s hs
      have hmovie : (s.finishRun last r).movie = s.movie := by
        obtain ⟨reports, hsame⟩ := finishRun_eq s last r
        rw [hsame]
        rfl
      rw [List.foldl_cons, List.foldl_cons, finishRun_divided hs]
      exact ih _ (by rw [hmovie]; exact hs)
  exact hruns s.runs s hrate

lemma shoots_divided (hs : Dense s)
    (hzoom : ∀ sheet ∈ s.sheets, ∀ frame,
      ZoomSolves (zoomAt? s.movie.fps s.options sheet frame) (s.subject? frame)) (last : ℕ) :
    s.sheets.foldlM (@Session.shoot ℝ (divided f g) last) ([], s) =
      s.sheets.foldlM (Session.shoot last) ([], s) := by
  refine foldlM_congr_ok (P := fun done => SameButReports s done.2) ?_ ?_ (.refl s)
  · rintro ⟨reels, s₁⟩ sheet ⟨reels', s₂⟩ hsame h
    exact hsame.trans (shoot_sameButReports h)
  · rintro ⟨reels, s₁⟩ ⟨reports, rfl⟩ sheet hsheet
    have hsubject : Session.subject? { s with diagnostics := reports } = s.subject? := rfl
    have hdense : Dense { s with diagnostics := reports } := ⟨hs.rate_ne_zero, hs.filled⟩
    unfold Session.shoot
    dsimp only
    rw [subject?_divided hdense, hsubject, shoot?_divided (hzoom sheet hsheet)]

/-- The heights of actors and the occupancies of zooms are positive. -/
lemma zoom_solves (h : m.issues = []) (ho : o.occupancy ≠ 0)
    (hplayed : played o m = .ok (last, s)) {sheet : CueSheet ℝ} (hsheet : sheet ∈ s.sheets)
    (frame : ℕ) :
    ZoomSolves (zoomAt? m.fps o sheet frame) (s.subject? frame) := by
  have hm := checked_of_issues_nil h
  have hw : WellFormed m :=
    (issues_nil_iff_of_named (named_of_issues_nil h) fun n _ => defined_real n.value).mp h
  intro name z sub hz hsub
  constructor
  · obtain ⟨r, hr, hsubject⟩ := Option.bind_eq_some_iff.mp hsub
    obtain ⟨x, -, rfl⟩ := Option.map_eq_some_iff.mp hsubject
    have hactors := (played_follows (valid_of_issues_nil h) hplayed).actors_eq
    rw [start_actors] at hactors
    have hactor : r.actor ∈ m.actors := by
      rw [← hactors]
      exact List.mem_map_of_mem (List.mem_of_find?_eq_some hr)
    exact ne_zero_of_pos (hw.actors _ hactor).height_pos
  · obtain ⟨occupancy, minFocal, maxFocal, hcommand, rfl⟩ := zoomAt?_command hm hplayed hsheet hz
    obtain ⟨hcamera, -⟩ := sheet_cues hm hplayed hsheet
    obtain ⟨q, hq, -, hmem⟩ := mem_cueCommands hcommand
    have hfits := ((hw.cameraSequences q hq).2 _ hmem).shot
    unfold zoomConfig
    cases occupancy with
    | some x => exact ne_zero_of_pos (hfits.occupancy x rfl).1
    | none =>
      cases hauto : sheet.camera.autoZoom with
      | none => exact ho
      | some z =>
        exact ne_zero_of_pos (((hw.cameras _ hcamera).zoom z hauto).occupancy z.occupancy rfl).1

theorem played_divided (hv : Valid m) (o : PlanOptions ℝ) :
    @played ℝ (divided f g) o m = played o m := by
  refine bind_congr_ok (walk_divided hv o) fun s hwalk => bind_congr_ok rfl fun ⟨n, s₁⟩ hlast => ?_
  have hsame := (lastFrame_ok hlast).1.follows
  dsimp only
  rw [finishRuns_divided (((walk_follows hv hwalk).trans hsame).dense hv).rate_ne_zero]

theorem plan_divided (h : m.issues = []) (ho : o.occupancy ≠ 0) :
    @Movie.plan ℝ (divided f g) o m = m.plan o := by
  have hv := valid_of_issues_nil h
  rw [plan_eq h, @plan_eq ℝ (divided f g) m o ((issues_divided m).trans h)]
  refine bind_congr_ok (played_divided hv o) fun ⟨last, s⟩ hplayed => ?_
  have hfollows := played_follows hv hplayed
  refine bind_congr_ok (shoots_divided (hfollows.dense hv) ?_ last) fun _ _ => rfl
  intro sheet hsheet frame
  rw [hfollows.movie_eq, hfollows.options_eq]
  exact zoom_solves h ho hplayed hsheet frame

/-- A session on the way of planning a movie: some steps of its script are done, or all of it is
played. -/
inductive Planning (o : PlanOptions ℝ) (m : Movie ℝ) : Session ℝ → Prop
  | walking {front rest : List (Step ℝ)} {st : Stage ℝ} (hsteps : scriptSteps m = front ++ rest)
    (h : front.foldlM perform ⟨Session.start m o, 0⟩ = .ok st) : Planning o m st.session
  | played {last : ℕ} {s : Session ℝ} (h : played o m = .ok (last, s)) : Planning o m s

lemma Planning.follows (hv : Valid m) (h : Planning o m s) : Follows (Session.start m o) s := by
  cases h with
  | walking _ h => exact steps_follow hv (.refl _) h
  | played h => exact played_follows hv h

/-- Planning a movie never divides by zero. The divisors that come from the movie are not zero, and
whatever else divides looks at its divisor first: it makes the same of any numbers, even if a
division by zero gave an arbitrary quotient or remainder. So does the whole plan. -/
structure DividesSoundly (o : PlanOptions ℝ) (m : Movie ℝ) (quotient remainder : ℝ → ℝ) :
    Prop where
  /-- The speeds and times a motion is solved for. -/
  solver : ∀ s : MotionSpec ℝ, @MotionSpec.resolve ℝ (divided quotient remainder) s = s.resolve
  /-- The way along a profile, and the speed on it. -/
  distance : ∀ (p : Profile ℝ) (t : ℝ),
    @Profile.distanceAt ℝ (divided quotient remainder) p t = p.distanceAt t
  speed : ∀ (s : MotionSpec ℝ) (r : ResolvedMotion ℝ) (t : ℝ), s.resolve = .ok r →
    @Profile.speedAt ℝ (divided quotient remainder) r.profile t = r.profile.speedAt t
  /-- The part of a move or a turn that is over. -/
  drift : ∀ duration t : ℝ,
    @Span.fraction ℝ (divided quotient remainder) duration t = Span.fraction duration t
  /-- The table of a curve. -/
  survey : ∀ (spline : Spline ℝ) (samples : ℕ),
    @Curve.ofSpline? ℝ (divided quotient remainder) spline samples =
      Curve.ofSpline? spline samples
  /-- The place between two rows of such a table. -/
  lookup : ∀ (c : Curve ℝ) (distance : ℝ),
    @Curve.parameterAt ℝ (divided quotient remainder) c distance = c.parameterAt distance
  /-- The length of a vector that is brought to length one; a multiple of a vector without length
  would not show what the quotient was. -/
  direction : ∀ a : Vec3 ℝ, ¬a.length ≤ Scalar.epsilon → a.length ≠ 0
  /-- The way around a closed curve. -/
  wrap : ∀ (c : Curve ℝ) (distance : ℝ),
    @Curve.wrap? ℝ (divided quotient remainder) c distance = c.wrap? distance
  /-- The moment a frame starts. -/
  rate : m.fps.fps ≠ 0
  /-- The place between two neighbouring keys. -/
  interpolation : ∀ s, Planning o m s → ∀ r ∈ s.runs, ∀ (i : ℕ) (a b : TransformKey ℝ),
    r.transform.keys[i]? = some a → r.transform.keys[i + 1]? = some b →
      ((b.frame - a.frame : ℕ) : ℝ) ≠ 0
  /-- The proportions of a pinhole. -/
  zoom : ∀ last s, played o m = .ok (last, s) → ∀ sheet ∈ s.sheets, ∀ frame name config sub,
    zoomAt? m.fps o sheet frame = some (name, config) → s.subject? frame name = some sub →
      config.occupancy ≠ 0 ∧ sub.height / config.occupancy ≠ 0
  plan : @Movie.plan ℝ (divided quotient remainder) o m = m.plan o

/-- With the default options, planning a movie without issues never divides by zero. -/
theorem plan_divides_soundly (h : m.issues = []) (quotient remainder : ℝ → ℝ) :
    DividesSoundly Settings.standard.options m quotient remainder := by
  have hv := valid_of_issues_nil h
  have hoccupancy : (Settings.standard : Settings ℝ).options.occupancy ≠ 0 := by
    change (0.7 : ℝ) ≠ 0
    norm_num
  refine ⟨resolve_divided, distanceAt_divided, ?_, fraction_divided, ofSpline?_divided,
    parameterAt_divided, fun a hlong => (length_pos hlong).ne', wrap?_divided, hv.rate_pos.ne', ?_,
    ?_, plan_divided h hoccupancy⟩
  · exact fun s r t hr => speedAt_divided (resolve_built s r hr).duration_nonneg t
  · intro s hs r hr i a b ha hb
    obtain ⟨n, hfilled⟩ := ((hs.follows hv).dense hv).filled r hr
    have hafter : b.frame - a.frame = 1 := by
      have hi : a.frame = i := hfilled.frame_eq ha
      have hnext : b.frame = i + 1 := hfilled.frame_eq hb
      omega
    rw [hafter, Nat.cast_one]
    exact one_ne_zero
  · intro last s hplayed sheet hsheet frame name config sub hz hsub
    obtain ⟨hheight, hoccupied⟩ :=
      zoom_solves h hoccupancy hplayed hsheet frame name config sub hz hsub
    exact ⟨hoccupied, div_ne_zero hheight hoccupied⟩

end Plans

section Touring

/-- An actor goes to a path and follows it, and a camera keeps it at half the height of the
frame. -/
noncomputable def outing : Movie ℝ :=
  { Movie.empty "outing" 2 with
    actors := [Actor.named "A"]
    cameras := [Camera.named "C"]
    splines := [Spline.named "P" [⟨180, 0, 0⟩, ⟨180, 360, 0⟩]]
    script :=
      [.actor ⟨"A", [
        .move ⟨.north, none, { distance := some (.centimeters 180), duration := some (.seconds 2) },
          none, none⟩,
        .follow ⟨"P", { duration := some (.seconds 2) }, none, none, false, none⟩]⟩,
      .camera ⟨"C", [.autoZoom "A" (some 0.5) (some 2) (some 180)]⟩] }

lemma outing_issues : outing.issues = [] := by
  have hactor : Movie.actorIssues (Actor.named "A" : Actor ℝ) = [] := actorIssues_named "A"
  simp only [Movie.issues, outing, Movie.empty, List.flatMap_cons, List.flatMap_nil, hactor]
  simp [FrameRate.isValid, Movie.declared, Movie.nameIssues, Movie.groupIssues, Actor.named,
    Movie.scriptIssues, Movie.sequences, Block.flatten, Movie.sequenceIssues, Movie.nameIssue?,
    Movie.kind?, Movie.tillEndIssues, Movie.commandsFor, isBlankText, isBlankChar, List.lookup_cons,
    Movie.cameraIssues, Camera.named, Movie.cameraCommandIssues, Movie.cameraCommandCount,
    CameraCommand.subject?, Movie.zoomIssues, Movie.splineIssues, Spline.named, Movie.commandIssues,
    Movie.actorCommandCount, Command.isTillEnd, List.findIdx?_cons]
  norm_num

theorem outing_divides_soundly : outing.issues = [] ∧
    DividesSoundly Settings.standard.options outing (fun x => x + 1) (fun x => x) :=
  ⟨outing_issues, plan_divides_soundly outing_issues _ _⟩

end Touring

end Stagecraft.Proofs
