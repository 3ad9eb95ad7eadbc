import Stagecraft.Proofs.FaceTargets
import Stagecraft.Proofs.IndependentSteps
import Stagecraft.Proofs.KeyedSpans

/-!
# Other frame rates

Between its commands a run carries no frame on: where the actor is, how far it is planned and the
lane it is in are told in time. So two runs of one script at two rates go the same course, with
other keys on the way, as long as no actor turns to another, whose place is read from a track. The
last key of a track shows the end of the course.
-/

namespace Stagecraft.Proofs

section Courses

variable {K : Type} [Scalar K] {rate rate' : FrameRate K} {r r' : Run K} {index : ℕ}

/-- Two runs of one course: what the frames decide may differ, but not where and when the actor is,
nor what it has yet to do. -/
structure SameCourse (r r' : Run K) : Prop where
  actor_eq : r'.actor = r.actor
  pose_eq : r'.pose = r.pose
  cursor_eq : r'.cursor = r.cursor
  lane_eq : r'.lane = r.lane
  nextIndex_eq : r'.nextIndex = r.nextIndex
  parked_eq : r'.parked = r.parked

namespace SameCourse

omit [Scalar K] in
lemma refl (r : Run K) : SameCourse r r := ⟨rfl, rfl, rfl, rfl, rfl, rfl⟩

lemma play (h : SameCourse r r') (rate rate' : FrameRate K) (s : Span K) :
    SameCourse (r.play rate s) (r'.play rate' s) := by
  constructor
  · rw [play_actor, play_actor, h.actor_eq]
  · rw [play_pose, play_pose]
  · rw [play_cursor, play_cursor, h.cursor_eq]
  · rw [play_lane, play_lane, h.lane_eq]
  · rw [play_nextIndex, play_nextIndex, h.nextIndex_eq]
  · rw [play_parked, play_parked, h.parked_eq]

omit [Scalar K] in
lemma withLane (h : SameCourse r r') (lane : Option (K × Lane K)) :
    SameCourse { r with lane := lane } { r' with lane := lane } :=
  ⟨h.actor_eq, h.pose_eq, h.cursor_eq, rfl, h.nextIndex_eq, h.parked_eq⟩

omit [Scalar K] in
lemma counted (h : SameCourse r r') (index : ℕ) :
    SameCourse { r with nextIndex := index } { r' with nextIndex := index } :=
  ⟨h.actor_eq, h.pose_eq, h.cursor_eq, h.lane_eq, rfl, h.parked_eq⟩

lemma hold (h : SameCourse r r') (duration : K) (clip : Option (Clip K)) :
    SameCourse (r.hold rate duration clip) (r'.hold rate' duration clip) := by
  unfold Run.hold
  rw [h.pose_eq, h.cursor_eq]
  exact h.play rate rate' _

lemma holdUntil (h : SameCourse r r') (moment : K) (clip : Option (Clip K)) :
    SameCourse (r.holdUntil rate moment clip) (r'.holdUntil rate' moment clip) := by
  unfold Run.holdUntil
  rw [h.cursor_eq]
  split
  · exact h
  · exact h.hold _ clip

lemma enter_eq (h : SameCourse r r') (anchor : Anchor) (heading : K) (corridor : Corridor K) :
    r'.enter anchor heading corridor = r.enter anchor heading corridor := by
  unfold Run.enter
  rw [h.actor_eq, h.lane_eq]

lemma move (h : SameCourse r r') (anchor : Anchor) (c : MoveCommand K) :
    Matches (fun x y => SameCourse x.1 y.1) (r.move rate anchor index c)
      (r'.move rate' anchor index c) := by
  unfold Run.move
  rw [h.actor_eq, h.pose_eq, h.cursor_eq]
  refine .bind_same fun motion _ => ?_
  cases c.corridor with
  | none => exact .ok ((h.play rate rate' _).withLane none)
  | some corridor =>
    dsimp only
    rw [h.enter_eq]
    refine .bind_same fun entered _ => ?_
    exact .ok ((h.play rate rate' _).withLane _)

lemma face (h : SameCourse r r') (c : FaceCommand K) (target : K) :
    SameCourse (r.face rate c target) (r'.face rate' c target) := by
  unfold Run.face
  rw [h.pose_eq, h.cursor_eq]
  exact h.play rate rate' _

lemma stay (h : SameCourse r r') (c : StayCommand K) :
    SameCourse (r.stay rate index c) (r'.stay rate' index c) := by
  unfold Run.stay
  cases c.length with
  | lasting span => exact h.hold _ c.animation
  | waiting moment => exact h.holdUntil _ c.animation
  | tillEnd =>
    exact ⟨h.actor_eq, h.pose_eq, h.cursor_eq, h.lane_eq, h.nextIndex_eq,
      congrArg (fun cursor => some (Parked.mk index cursor c.animation)) h.cursor_eq⟩

lemma follow (h : SameCourse r r') (c : FollowCommand K) (curve : Curve K) :
    Matches (fun x y => SameCourse x.1 y.1) (r.follow rate index c curve)
      (r'.follow rate' index c curve) := by
  unfold Run.follow
  rw [h.actor_eq, h.pose_eq, h.cursor_eq]
  refine .bind_same fun first _ => .bind_same fun last _ => .bind_same fun motion _ => ?_
  exact .ok ((h.play rate rate' _).withLane none)

end SameCourse

end Courses

section Sessions

variable {K : Type} [Scalar K] {s s' : Session K} {st st' : Stage K} {r r' : Run K}

/-- Two sessions whose actors and cameras go the same ways. -/
structure SameCourses (s s' : Session K) : Prop where
  options_eq : s'.options = s.options
  curves_eq : s'.curves = s.curves
  sheets_eq : s'.sheets = s.sheets
  runs : List.Forall₂ SameCourse s.runs s'.runs

namespace SameCourses

omit [Scalar K]

lemma setSheet (h : SameCourses s s') (c : CueSheet K) :
    SameCourses (s.setSheet c) (s'.setSheet c) := by
  refine ⟨h.options_eq, h.curves_eq, ?_, h.runs⟩
  unfold Session.setSheet
  rw [h.sheets_eq]

lemma setRun (h : SameCourses s s') (hr : SameCourse r r') :
    SameCourses (s.setRun r) (s'.setRun r') :=
  ⟨h.options_eq, h.curves_eq, h.sheets_eq, forall₂_setRuns h.runs (fun _ _ hr => hr.actor_eq) hr⟩

lemma run (h : SameCourses s s') (name : String) :
    Matches SameCourse (s.run name) (s'.run name) :=
  matches_run h.runs (fun _ _ hr => hr.actor_eq) name

lemma sheet_eq (h : SameCourses s s') (name : String) : s'.sheet name = s.sheet name := by
  unfold Session.sheet
  rw [h.sheets_eq]

lemma horizon_eq [Scalar K] (h : SameCourses s s') : s'.horizon = s.horizon :=
  horizon_congr h.runs (fun _ _ hr => hr.cursor_eq) h.sheets_eq

end SameCourses

lemma SameCourse.obey (hs : SameCourses s s') (h : SameCourse r r') (index : ℕ) {c : Command K}
    (hc : faced? c = none) :
    Matches (fun x y => SameCourse x.1 y.1) (obey s index r c) (obey s' index r' c) := by
  cases c with
  | move c =>
    unfold Proofs.obey
    rw [hs.options_eq]
    exact h.move _ c
  | face c =>
    obtain ⟨target, duration, animation⟩ := c
    unfold Proofs.obey
    cases target with
    | direction d offset =>
      have hyaw : s'.faceYaw r' (.direction d offset) = s.faceYaw r (.direction d offset) := by
        unfold Session.faceYaw
        rw [h.pose_eq]
      dsimp only
      rw [hyaw]
      exact .ok (h.face _ _)
    | yaw degrees => exact .ok (h.face _ _)
    | actor name => cases hc
  | stay c => exact .ok (h.stay c)
  | follow c =>
    have hcurve : s'.curve c.spline = s.curve c.spline := by
      unfold Session.curve
      rw [hs.curves_eq]
    unfold Proofs.obey
    dsimp only
    rw [hcurve]
    exact .bind_same fun curve _ => h.follow c curve

/-- The same change, but for what the rate of frames decides. -/
inductive SameChange : Change K → Change K → Prop
  | nothing : SameChange .nothing .nothing
  | run {r r' : Run K} (h : SameCourse r r') (reports reports' : List (Diagnostic (Finding K))) :
    SameChange (.run r reports) (.run r' reports')
  | sheet (c : CueSheet K) : SameChange (.sheet c) (.sheet c)

omit [Scalar K] in
lemma SameCourses.apply (h : SameCourses s s') {u u' : Change K} (hu : SameChange u u') :
    SameCourses (u.apply s) (u'.apply s') := by
  cases hu with
  | nothing => exact h
  | run hr reports reports' => exact ⟨h.options_eq, h.curves_eq, h.sheets_eq, (h.setRun hr).runs⟩
  | sheet c => exact h.setSheet c

/-- What a step decides on does not depend on the rate, unless it turns to another actor. -/
lemma SameCourses.decided (h : SameCourses s s') (t : K) {step : Step K}
    (hstep : step.faced? = none) : Matches SameChange (decided s t step) (decided s' t step) := by
  cases step with
  | gather => exact .ok .nothing
  | joinActor name =>
    exact (h.run name).bind fun r r' hr => .ok (.run (hr.holdUntil _ _) _ _)
  | joinCamera name =>
    unfold Proofs.decided
    dsimp only
    rw [h.sheet_eq name]
    exact .bind_same fun c _ => .ok (.sheet _)
  | call actor => exact (h.run actor).bind fun r r' hr => .ok .nothing
  | command actor c =>
    refine (h.run actor).bind fun r r' hr => ?_
    rw [hr.nextIndex_eq]
    by_cases hparked : r.parked.isSome = true
    · have hparked' : r'.parked.isSome = true := hr.parked_eq ▸ hparked
      rw [if_pos hparked, if_pos hparked']
      exact .error _ _
    · have hparked' : ¬r'.parked.isSome = true := hr.parked_eq ▸ hparked
      rw [if_neg hparked, if_neg hparked']
      refine ((hr.counted (r.nextIndex + 1)).obey h r.nextIndex hstep).bind fun x y hxy => ?_
      exact .ok (.run hxy _ _)
  | cues q =>
    unfold Proofs.decided
    dsimp only
    rw [h.sheet_eq q.camera]
    exact .bind_same fun c _ => .ok (.sheet _)
  | nest => exact .error _ _

/-- Stages whose sessions go the same ways. -/
structure SameStages (st st' : Stage K) : Prop where
  courses : SameCourses st.session st'.session
  groupStart_eq : st'.groupStart = st.groupStart

lemma SameStages.perform (h : SameStages st st') {step : Step K} (hstep : step.faced? = none) :
    Matches SameStages (perform st step) (perform st' step) := by
  obtain ⟨s, t⟩ := st
  obtain ⟨s', t'⟩ := st'
  obtain ⟨hs, ht⟩ := h
  dsimp only at hs ht
  subst ht
  by_cases hgather : step = .gather
  · subst hgather
    exact .ok ⟨hs, hs.horizon_eq⟩
  · rw [perform_eq_change hgather, perform_eq_change hgather]
    exact (hs.decided t' hstep).bind fun u u' hu => .ok ⟨hs.apply hu, rfl⟩

omit [Scalar K] in
/-- No command of a movie turns to another actor. -/
def FacesNoActor (m : Movie K) : Prop :=
  ∀ q, Block.actor q ∈ m.sequences → ∀ c ∈ q.commands, faced? c = none

omit [Scalar K] in
lemma FacesNoActor.steps {m : Movie K} (h : FacesNoActor m) :
    ∀ step ∈ scriptSteps m, step.faced? = none := by
  intro step hstep
  have hscripted := scripted_of_mem hstep
  cases step with
  | command actor c =>
    obtain ⟨q, hq, -, hc⟩ := hscripted
    exact h q hq c hc
  | gather | joinActor name | joinCamera name | call actor | cues q | nest => rfl

/-- At another rate the script is walked the same ways. -/
theorem walk_sameCourses {m : Movie K} (hfaces : FacesNoActor m) (rate : FrameRate K)
    (o : PlanOptions K) : Matches SameCourses (walk o m) (walk o { m with fps := rate }) := by
  have hstart : SameCourses (Session.start m o) (Session.start { m with fps := rate } o) :=
    ⟨rfl, rfl, rfl, List.forall₂_same.mpr fun r _ => .refl r⟩
  have hround : ∀ step ∈ scriptSteps m, ∀ st st', SameStages st st' →
      Matches SameStages (perform st step) (perform st' step) :=
    fun step hstep _ _ hst => hst.perform (hfaces.steps step hstep)
  have hbegin : SameStages ⟨Session.start m o, 0⟩ ⟨Session.start { m with fps := rate } o, 0⟩ :=
    ⟨hstart, rfl⟩
  rw [walk_eq_steps o m 0, walk_eq_steps o { m with fps := rate } 0]
  exact (Matches.foldlM_mem hround hbegin).map fun _ _ h => h.courses

end Sessions

section Ends

variable {rate : FrameRate ℝ} {r r' : Run ℝ}

/-- The last key of a run shows where the actor is. -/
def EndShown (r : Run ℝ) : Prop :=
  ∃ k, r.transform.last? = some k ∧ ShowsPose r.actor.yawOffset r.pose k

lemma start_endShown (a : Actor ℝ) : EndShown (Run.start a) := by
  refine ⟨_, ?_, keyOf_shows a.yawOffset (a.initialYaw + a.yawOffset) 0 _⟩
  unfold Track.last?
  rw [start_keys]
  rfl

lemma play_endShown (h : OnTime rate r) (hfps : 0 < rate.fps) {s : Span ℝ}
    (hstart : s.start = r.cursor) (hduration : 0 ≤ s.duration) : EndShown (r.play rate s) := by
  have hkeyed := h.play_keyed hfps hstart hduration
  have hlast : s.lastFrame rate = rate.frameAt (r.cursor + s.duration) :=
    congrArg (fun t => rate.frameAt (t + s.duration)) hstart
  have hle : rate.frameAt r.cursor ≤ rate.frameAt (r.cursor + s.duration) :=
    frameAt_mono hfps (by linarith)
  obtain ⟨yaw, hkey⟩ := hkeyed.added _ hle (Nat.lt_succ_self _)
  refine ⟨_, hkeyed.filled.last?_eq.trans hkey, ?_⟩
  rw [play_actor, play_pose, ← hlast, momentAt_last]
  exact keyOf_shows _ _ _ _

lemma Advances.endShown (ha : Advances rate r r') (h : OnTime rate r) (hfps : 0 < rate.fps)
    (hr : EndShown r) : EndShown r' := by
  induction ha with
  | refl => exact hr
  | tail hq hstep ih =>
    cases hstep with
    | play s hstart hduration => exact play_endShown (h.advances hfps hq) hfps hstart hduration
    | note lane index parked hparked => exact ih

end Ends

section Plans

variable {m : Movie ℝ} {o : PlanOptions ℝ} {reel reel' : Reel ℝ}

/-- Two tracks of an actor end alike: at the same place, with the same pitch and, up to full turns,
the same yaw. -/
def EndsAlike (a a' : ActorReel ℝ) : Prop :=
  a'.actor = a.actor ∧ ∃ k k', a.transform.last? = some k ∧ a'.transform.last? = some k' ∧
    k'.transform.location = k.transform.location ∧
    k'.transform.rotation.pitch = k.transform.rotation.pitch ∧
    ∃ turns : ℤ, k'.transform.rotation.yaw = k.transform.rotation.yaw + 360 * turns

lemma endsAlike_of_shown {a a' : ActorReel ℝ} {offset : ℝ} {p : Pose ℝ} {k k' : TransformKey ℝ}
    (hactor : a'.actor = a.actor) (hk : a.transform.last? = some k)
    (hk' : a'.transform.last? = some k') (h : ShowsPose offset p k) (h' : ShowsPose offset p k') :
    EndsAlike a a' := by
  obtain ⟨hlocation, hpitch, turns, hyaw⟩ := h
  obtain ⟨hlocation', hpitch', turns', hyaw'⟩ := h'
  refine ⟨hactor, k, k', hk, hk', hlocation'.trans hlocation.symm, hpitch'.trans hpitch.symm,
    turns' - turns, ?_⟩
  rw [hyaw', hyaw]
  push_cast
  ring

lemma played_endShown (h : m.plan o = .ok reel) {s : Session ℝ}
    (hplayed : played o m = .ok (reel.lastFrame, s)) : ∀ r ∈ s.runs, EndShown r := by
  have hv := valid_of_issues_nil (issues_nil_of_plan h)
  intro r hr
  obtain ⟨q, hq, ha⟩ := mem_of_forall₂_right (played_follows hv hplayed).runs_advance hr
  obtain ⟨a, -, rfl⟩ := List.mem_map.mp hq
  exact ha.endShown (onTime_start a) hv.rate_pos (start_endShown a)

/-- The runs that two plans show end alike when the walks behind them go the same ways. -/
lemma played_sameEnds {m' : Movie ℝ} (hv : Valid m) (hv' : Valid m')
    (hwalks : Matches SameCourses (walk o m) (walk o m')) {last last' : ℕ} {s s' : Session ℝ}
    (h : played o m = .ok (last, s)) (h' : played o m' = .ok (last', s')) :
    List.Forall₂ (fun r r' : Run ℝ => r'.actor = r.actor ∧ r'.pose = r.pose) s.runs s'.runs := by
  obtain ⟨s₀, hwalk, hruns, -⟩ := played_runs hv h
  obtain ⟨s₀', hwalk', hruns', -⟩ := played_runs hv' h'
  rw [hwalk, hwalk'] at hwalks
  rw [hruns, hruns', List.forall₂_map_left_iff, List.forall₂_map_right_iff]
  refine hwalks.rel.runs.imp fun r r' hr => ?_
  rw [finish_actor, finish_actor, finish_pose, finish_pose]
  exact ⟨hr.actor_eq, hr.pose_eq⟩

/-- Whatever a script contains, unless it is a turn to another actor, each actor ends up the same at
every rate of frames. -/
theorem plan_ends_alike_at_other_rate (hfaces : FacesNoActor m) {rate : FrameRate ℝ}
    (h : m.plan o = .ok reel) (h' : { m with fps := rate }.plan o = .ok reel') :
    List.Forall₂ EndsAlike reel.actors reel'.actors := by
  have hv := valid_of_issues_nil (issues_nil_of_plan h)
  have hv' := valid_of_issues_nil (issues_nil_of_plan h')
  obtain ⟨s, hplayed, hshows⟩ := plan_ok h
  obtain ⟨s', hplayed', hshows'⟩ := plan_ok h'
  have hends := played_sameEnds hv hv' (walk_sameCourses hfaces rate o) hplayed hplayed'
  have hshown := (List.forall₂_and_left _ _).mpr ⟨played_endShown h hplayed, hends⟩
  have hboth := (List.forall₂_and_left _ _).mpr ⟨played_endShown h' hplayed', hshown.flip⟩
  rw [hshows.actors_eq, hshows'.actors_eq, List.forall₂_map_left_iff, List.forall₂_map_right_iff]
  refine hboth.flip.imp ?_
  rintro r r' ⟨⟨k', hk', hpose'⟩, ⟨k, hk, hpose⟩, hactor, hsame⟩
  rw [hactor, hsame] at hpose'
  exact endsAlike_of_shown hactor hk hk' hpose hpose'

end Plans

section Striding

variable {o : PlanOptions ℝ} {rate : ℝ}

/-- An actor goes east and stays to the end, which comes at two and a half seconds. -/
noncomputable def stride (rate : ℝ) : Movie ℝ :=
  { Movie.empty "stride" rate with
    duration := some (.seconds 2.5)
    actors := [Actor.named "A"]
    script := [.actor ⟨"A", [.move stepEast]⟩, .actor ⟨"A", [.stay ⟨.tillEnd, none⟩]⟩] }

lemma stride_issues (hrate : 0 < rate) : (stride rate).issues = [] := by
  have hactor : Movie.actorIssues (Actor.named "A" : Actor ℝ) = [] := actorIssues_named "A"
  have hvalid : (stride rate).fps.isValid = true := isValid_real.mpr hrate
  have hduration : ¬(2.5 : ℝ) < 0 := by norm_num
  simp only [Movie.issues, hvalid]
  simp only [stride, Movie.empty, List.flatMap_cons, List.flatMap_nil, hactor]
  simp [Movie.declared, Movie.nameIssues, Movie.groupIssues, Movie.scriptIssues, Movie.sequences,
    Block.flatten, Movie.sequenceIssues, Movie.commandIssues, Movie.nameIssue?, Movie.kind?,
    Actor.named, Movie.tillEndIssues, Movie.commandsFor, isBlankText, isBlankChar, List.lookup_cons,
    Command.isTillEnd, Movie.actorCommandCount, List.findIdx?_cons, seconds_real, hduration]

lemma stride_walk (hrate : 0 < rate) : ∃ s, walk o (stride rate) = .ok s ∧
    Follows (Session.start (stride rate) o) s ∧ s.sheets = [] := by
  have hv := valid_of_issues_nil (stride_issues hrate)
  have hstart : (Session.start (stride rate) o).runs =
      [] ++ Run.start (Actor.named "A") :: [] := rfl
  obtain ⟨s₁, hfirst, hs₁, hruns₁, hsheets₁⟩ := block_command
    ((Follows.refl (Session.start (stride rate) o)).runNames_nodup hv) hstart rfl
    (stepEast_obey _ _ _)
  obtain ⟨s₂, hsecond, hs₂, -, hsheets₂⟩ := block_command (hs₁.runNames_nodup hv) hruns₁
    (play_parked _ _ _) (c := .stay ⟨.tillEnd, none⟩) rfl
  dsimp only at hsecond
  rw [play_actor] at hsecond
  refine ⟨s₂, ?_, hs₁.trans hs₂, hsheets₂.trans hsheets₁⟩
  exact bind_eq_ok.mpr ⟨s₁, hfirst, bind_eq_ok.mpr ⟨s₂, hsecond, rfl⟩⟩

lemma stride_plan (hrate : 0 < rate) : ∃ reel, (stride rate).plan o = .ok reel := by
  obtain ⟨s, hwalk, hfollows, hsheets⟩ := stride_walk (o := o) hrate
  have hduration : s.movie.duration = some (.seconds 2.5) := by
    rw [hfollows.movie_eq]
    rfl
  obtain ⟨last, s₁, hlast⟩ := exists_lastFrame hduration
  have hplayed : played o (stride rate) = .ok (last, s₁.finishRuns last) :=
    bind_eq_ok.mpr ⟨s, hwalk, bind_eq_ok.mpr ⟨_, hlast, rfl⟩⟩
  have hnone : (s₁.finishRuns last).sheets = [] := by
    have hv := valid_of_issues_nil (stride_issues hrate)
    obtain ⟨s₀, hwalk₀, -, hsheets₀⟩ := played_runs hv hplayed
    rw [hwalk] at hwalk₀
    cases hwalk₀
    exact hsheets₀.trans hsheets
  obtain ⟨reel, hplan, -⟩ := exists_plan (stride_issues hrate) hplayed (by simp [hnone])
  exact ⟨reel, hplan⟩

theorem stride_ends_alike : ∃ reel reel', (stride 1).plan Settings.standard.options = .ok reel ∧
    (stride 24).plan Settings.standard.options = .ok reel' ∧
    List.Forall₂ EndsAlike reel.actors reel'.actors := by
  obtain ⟨reel, hplan⟩ := stride_plan (o := Settings.standard.options) one_pos
  have hrate : (0 : ℝ) < 24 := by norm_num
  obtain ⟨reel', hplan'⟩ := stride_plan (o := Settings.standard.options) hrate
  have hfaces : FacesNoActor (stride 1) := by
    intro q hq c hc
    have hq' : q = ⟨"A", [.move stepEast]⟩ ∨ q = ⟨"A", [.stay ⟨.tillEnd, none⟩]⟩ := by
      simpa [stride, Movie.sequences, Block.flatten] using hq
    rcases hq' with rfl | rfl
    · rw [List.mem_singleton.mp hc]
      rfl
    · rw [List.mem_singleton.mp hc]
      rfl
  have hother : { stride 1 with fps := ⟨24⟩ }.plan Settings.standard.options = .ok reel' := hplan'
  exact ⟨reel, reel', hplan, hplan', plan_ends_alike_at_other_rate hfaces hplan hother⟩

end Striding
end Stagecraft.Proofs
