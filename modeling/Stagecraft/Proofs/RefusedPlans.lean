import Stagecraft.Proofs.TillEndStays

/-!
# Refused plans

A movie without issues is planned, unless it never ends or a motion of it has no profile. The
walk of its script finds every actor, camera and spline that it looks up, meets no group within a
group and no command behind a stay to the end. `Reached` is what holds of a session after some
steps, and the checks of the movie do the rest.
-/

namespace Stagecraft.Proofs

section Refusals

variable {K : Type} [Scalar K] {rate : FrameRate K} {r : Run K} {index : ℕ} {e : PlanError K}

/-- A command of the script has no profile for its motion. A motion along a spline takes its
distance from the range, unless it states one or is timed. -/
inductive MotionRefused (o : PlanOptions K) (m : Movie K) : PlanError K → Prop
  | move {actor : String} {index : ℕ} {c : MoveCommand K} {cause : MotionError K}
    (hc : (m.commandsFor actor)[index]? = some (.move c))
    (hcause : c.motion.resolve = .error cause) : MotionRefused o m (.motion actor index cause)
  | follow {actor : String} {index : ℕ} {c : FollowCommand K} {cause : MotionError K}
    {spline : Spline K} {curve : Curve K} {first last : K}
    (hc : (m.commandsFor actor)[index]? = some (.follow c))
    (hspline : m.spline? c.spline = some spline)
    (hcurve : Curve.ofSpline? spline o.samplesPerSegment = some curve)
    (hfirst : Scalar.clamp? 0 curve.length ((c.rangeStart.map Distance.internal).getD 0) =
      some first)
    (hlast : Scalar.clamp? 0 curve.length
      ((c.rangeEnd.map Distance.internal).getD curve.length) = some last)
    (hcause : (Run.followMotion c.motion (Scalar.abs (last - first))).resolve = .error cause) :
    MotionRefused o m (.motion actor index cause)

lemma mapError_error {ε ε' α : Type} {f : ε → ε'} {x : Except ε α} {e : ε'} :
    x.mapError f = .error e ↔ ∃ e', x = .error e' ∧ f e' = e := by
  cases x with
  | error e' => simp [Except.mapError]
  | ok a => simp [Except.mapError]

lemma enter_error {anchor : Anchor} {heading : K} {corridor : Corridor K}
    (h : r.enter anchor heading corridor = .error e) : e = .boundsUndefined := by
  unfold Run.enter at h
  dsimp only at h
  split at h
  · cases h
  · cases h
    rfl

lemma move_error {anchor : Anchor} {c : MoveCommand K} (h : r.move rate anchor index c = .error e)
    (he : e ≠ .boundsUndefined) :
    ∃ cause, e = .motion r.actor.name index cause ∧ c.motion.resolve = .error cause := by
  unfold Run.move at h
  rcases bind_eq_error.mp h with hmotion | ⟨motion, -, h⟩
  · obtain ⟨cause, hcause, rfl⟩ := mapError_error.mp hmotion
    exact ⟨cause, rfl, hcause⟩
  · cases hc : c.corridor with
    | none =>
      simp only [hc] at h
      cases h
    | some corridor =>
      simp only [hc] at h
      rcases bind_eq_error.mp h with henter | ⟨entered, -, h⟩
      · exact absurd (enter_error henter) he
      · cases h

/-- A number that is brought between bounds, or the break where they are out of order. -/
def bounded (x : Option K) : Except (PlanError K) K :=
  match x with
  | some s => .ok s
  | none => .error .boundsUndefined

omit [Scalar K] in
lemma bounded_ok {x : Option K} {a : K} (h : bounded x = .ok a) : x = some a := by
  cases x with
  | none => cases h
  | some s =>
    cases h
    rfl

omit [Scalar K] in
lemma bounded_error {x : Option K} (h : bounded x = .error e) : e = .boundsUndefined := by
  cases x with
  | none =>
    cases h
    rfl
  | some s => cases h

lemma follow_error {c : FollowCommand K} {curve : Curve K}
    (h : r.follow rate index c curve = .error e) (he : e ≠ .boundsUndefined) :
    ∃ first last cause, e = .motion r.actor.name index cause ∧
      Scalar.clamp? 0 curve.length ((c.rangeStart.map Distance.internal).getD 0) = some first ∧
      Scalar.clamp? 0 curve.length ((c.rangeEnd.map Distance.internal).getD curve.length) =
        some last ∧
      (Run.followMotion c.motion (Scalar.abs (last - first))).resolve = .error cause := by
  unfold Run.follow at h
  rcases bind_eq_error.mp h with hfail | ⟨first, hfirst, h⟩
  · exact absurd (bounded_error hfail) he
  rcases bind_eq_error.mp h with hfail | ⟨last, hlast, h⟩
  · exact absurd (bounded_error hfail) he
  rcases bind_eq_error.mp h with hmotion | ⟨motion, -, h⟩
  · obtain ⟨cause, hcause, rfl⟩ := mapError_error.mp hmotion
    exact ⟨first, last, cause, rfl, bounded_ok hfirst, bounded_ok hlast, hcause⟩
  · cases h

end Refusals

section Sessions

variable {K : Type} [Scalar K] {m : Movie K} {o : PlanOptions K} {front : List (Step K)}
  {step : Step K} {s s' : Session K}

/-- What holds of the session when some steps of a script are done. -/
structure Reached (o : PlanOptions K) (m : Movie K) (front : List (Step K)) (s : Session K) :
    Prop where
  movie_eq : s.movie = m
  options_eq : s.options = o
  curves_eq : s.curves = (Session.start m o).curves
  actors_eq : s.runs.map Run.actor = m.actors
  cameras_eq : s.sheets.map CueSheet.camera = m.cameras
  counted : ∀ r ∈ s.runs, r.nextIndex = (commandsIn r.actor.name front).length
  parkedBy : ∀ r ∈ s.runs, ParkedBy front r

/-- The index of a run counts the commands to its actor. -/
lemma counted_invariant : RunInvariant fun (front : List (Step K)) r =>
    r.nextIndex = (commandsIn r.actor.name front).length where
  start a := rfl
  other h hstep := by
    rw [commandsIn_other hstep]
    exact h
  join {front r} h rate moment := by
    obtain ⟨hactor, hindex⟩ := holdUntil_kept rate moment none r
    rw [hactor, hindex, commandsIn_other fun _ hc => by cases hc]
    exact h
  command {front r r' s c findings} h _ hobey := by
    obtain ⟨hactor, hindex⟩ := obey_kept hobey
    rw [hactor, hindex, commandsIn_command, List.length_append, ← h]
    rfl

lemma reached_start : Reached o m [] (Session.start m o) := by
  refine ⟨rfl, rfl, rfl, ?_, ?_, counted_invariant.start_runs, parkedBy_invariant.start_runs⟩
  · unfold Session.start
    rw [List.map_map]
    exact List.map_id m.actors
  · unfold Session.start
    rw [List.map_map]
    exact List.map_id m.cameras

namespace Reached

lemma runNames_nodup (h : Reached o m front s) (hm : Checked m) : (runNames s).Nodup := by
  have hnames := congrArg (List.map Actor.name) h.actors_eq
  rw [List.map_map] at hnames
  have heq : runNames s = m.actors.map Actor.name := hnames
  rw [heq]
  exact hm.actorNames_nodup

lemma sheetNames_nodup (h : Reached o m front s) (hm : Checked m) :
    (s.sheets.map fun c => c.camera.name).Nodup := by
  have hnames := congrArg (List.map Camera.name) h.cameras_eq
  rw [List.map_map] at hnames
  exact hnames ▸ hm.cameraNames_nodup

/-- A declared actor has a run. -/
lemma exists_run (h : Reached o m front s) (hm : Checked m) {name : String}
    (hname : ∃ a ∈ m.actors, a.name = name) :
    ∃ r ∈ s.runs, r.actor.name = name ∧ s.run name = .ok r := by
  obtain ⟨a, ha, rfl⟩ := hname
  rw [← h.actors_eq] at ha
  obtain ⟨r, hr, rfl⟩ := List.mem_map.mp ha
  exact ⟨r, hr, rfl, run_of_mem (h.runNames_nodup hm) hr⟩

/-- A declared camera has a sheet. -/
lemma exists_sheet (h : Reached o m front s) {name : String}
    (hname : ∃ c ∈ m.cameras, c.name = name) : ∃ c, s.sheet name = .ok c := by
  obtain ⟨camera, hcamera, rfl⟩ := hname
  rw [← h.cameras_eq] at hcamera
  obtain ⟨c, hc, rfl⟩ := List.mem_map.mp hcamera
  have hfound : (s.sheets.find? fun d => d.camera.name = c.camera.name).isSome = true :=
    List.find?_isSome.mpr ⟨c, hc, by simp⟩
  obtain ⟨d, hd⟩ := Option.isSome_iff_exists.mp hfound
  refine ⟨d, ?_⟩
  unfold Session.sheet
  rw [hd]

end Reached

theorem Performed.reached (hm : Checked m) {st : Stage K} (hst : Reached o m front st.session)
    (h : Performed st step s') : Reached o m (front ++ [step]) s' := by
  have hcounted := counted_invariant.step_runs hst.counted h
  have hparked := parkedBy_invariant.step_runs hst.parkedBy h
  have hruns := hst.runNames_nodup hm
  have hsheets := hst.sheetNames_nodup hm
  cases h with
  | gather => exact { hst with counted := hcounted, parkedBy := hparked }
  | call actor => exact { hst with counted := hcounted, parkedBy := hparked }
  | joinActor hr =>
    have hactors :=
      setRun_actors hruns hr (holdUntil_kept st.session.movie.fps st.groupStart none _).1
    exact { hst with
      actors_eq := hactors.trans hst.actors_eq
      counted := hcounted
      parkedBy := hparked }
  | @joinCamera c hc =>
    have hsame : { c with cursor := Scalar.larger c.cursor st.groupStart }.camera = c.camera := rfl
    have hcameras := setSheet_cameras hc hsheets hsame
    exact { hst with
      cameras_eq := hcameras.trans hst.cameras_eq
      counted := hcounted
      parkedBy := hparked }
  | command hr hnone hobey =>
    have hactors := setRun_actors hruns hr (obey_kept hobey).1
    exact { hst with
      actors_eq := hactors.trans hst.actors_eq
      counted := hcounted
      parkedBy := hparked }
  | @cues c q hc hname =>
    have hcameras := setSheet_cameras hc hsheets (add_camera c q.commands)
    exact { hst with
      cameras_eq := hcameras.trans hst.cameras_eq
      counted := hcounted
      parkedBy := hparked }

theorem steps_reached (hm : Checked m) {t : K} {st : Stage K}
    (h : front.foldlM perform ⟨Session.start m o, t⟩ = .ok st) : Reached o m front st.session :=
  foldlM_induction (P := fun front st => Reached o m front st.session) reached_start
    (fun _ _ _ _ hreached hperform => (perform_ok hperform).reached hm hreached) h

lemma walk_reached (hm : Checked m) (h : walk o m = .ok s) : Reached o m (scriptSteps m) s := by
  obtain ⟨t, hsteps⟩ := walk_ok 0 h
  exact steps_reached hm hsteps

/-- What is left of a movie when it is played: the runs of its walk with their stays to the end,
and the sheets of its walk. -/
lemma played_reached (hm : Checked m) {last : ℕ} (h : played o m = .ok (last, s)) :
    ∃ s₀, walk o m = .ok s₀ ∧ Reached o m (scriptSteps m) s₀ ∧ s.movie = m ∧ s.options = o ∧
      s.runs = s₀.runs.map (fun r => (r.finish m.fps last).1) ∧ s.sheets = s₀.sheets := by
  obtain ⟨s₀, s₁, hwalk, hlast, rfl⟩ := played_ok h
  have hreached := walk_reached hm hwalk
  obtain ⟨reports, rfl⟩ := (lastFrame_ok hlast).1
  have hnames : (runNames ({ s₀ with diagnostics := reports } : Session K)).Nodup :=
    hreached.runNames_nodup hm
  obtain ⟨finished, hfinished⟩ := finishRuns_eq hnames last
  have hrate : s₀.movie.fps = m.fps := congrArg Movie.fps hreached.movie_eq
  refine ⟨s₀, hwalk, hreached, ?_⟩
  rw [hfinished, ← hrate]
  exact ⟨hreached.movie_eq, hreached.options_eq, rfl, rfl⟩

end Sessions

section Scripts

variable {K : Type} [Scalar K] {m : Movie K} {o : PlanOptions K} {front after : List (Step K)}
  {step : Step K} {s : Session K} {e : PlanError K}

omit [Scalar K] in
lemma lookup_map_name {α : Type} (f : Spline K → α) (l : List (Spline K)) (name : String) :
    (l.map fun spline => (spline.name, f spline)).lookup name =
      (l.find? fun spline => spline.name = name).map f := by
  induction l with
  | nil => rfl
  | cons spline l ih =>
    rw [List.map_cons, List.lookup_cons, List.find?_cons, ih]
    by_cases h : spline.name = name
    · simp [h]
    · have hne : (name == spline.name) = false := beq_false_of_ne (Ne.symm h)
      simp [h, hne]

lemma exists_ofSpline? {spline : Spline K} (h : Movie.splineIssues spline = []) (samples : ℕ) :
    ∃ curve, Curve.ofSpline? spline samples = some curve := by
  obtain ⟨hpoints, -⟩ := List.append_eq_nil_iff.mp h
  have hlong : ¬spline.points.length < 2 := by
    intro hshort
    simp [hshort] at hpoints
  unfold Curve.ofSpline?
  rw [if_neg hlong]
  exact ⟨_, rfl⟩

/-- A declared spline has a curve. -/
lemma Reached.exists_curve (h : Reached o m front s) (hm : Checked m) {name : String}
    (hname : ∃ spline ∈ m.splines, spline.name = name) : ∃ spline curve,
      m.spline? name = some spline ∧ Curve.ofSpline? spline o.samplesPerSegment = some curve ∧
      s.curve name = .ok curve := by
  have hfound : (m.spline? name).isSome = true := by
    obtain ⟨spline, hspline, hname⟩ := hname
    exact List.find?_isSome.mpr ⟨spline, hspline, by simpa using hname⟩
  obtain ⟨spline, hspline⟩ := Option.isSome_iff_exists.mp hfound
  obtain ⟨curve, hcurve⟩ :=
    exists_ofSpline? (hm.splines_pass _ (List.mem_of_find?_eq_some hspline)) o.samplesPerSegment
  refine ⟨spline, curve, hspline, hcurve, ?_⟩
  have hlookup : s.curves.lookup name =
      some ⟨fun _ => Curve.ofSpline? spline o.samplesPerSegment⟩ := by
    rw [h.curves_eq]
    unfold Session.start
    rw [lookup_map_name]
    exact congrArg (Option.map _) hspline
  unfold Session.curve
  rw [hlookup]
  simp only [Thunk.get, hcurve]

/-- Nothing in front of another command of an actor is a stay to the end. -/
lemma Checked.open_before (hm : Checked m) {name : String} (hname : ∃ a ∈ m.actors, a.name = name)
    {before rest : List (Command K)} {c : Command K}
    (h : m.commandsFor name = before ++ c :: rest) : ∀ c' ∈ before, c'.isTillEnd = false := by
  obtain ⟨a, ha, rfl⟩ := hname
  have hends := tillEndIssues_nil_iff_dropLast.mp (hm.ends_pass a ha)
  rw [h, List.dropLast_append_cons] at hends
  exact fun c' hc' => hends c' (List.mem_append_left _ hc')

/-- A command that is to be obeyed finds its actor free, and is counted as it stands in the
script. -/
lemma Reached.ready (h : Reached o m front s) (hm : Checked m) {name : String} {c : Command K}
    (hname : ∃ a ∈ m.actors, a.name = name)
    (hsteps : scriptSteps m = front ++ .command name c :: after) :
    ∃ r ∈ s.runs, r.actor.name = name ∧ s.run name = .ok r ∧ r.parked = none ∧
      (m.commandsFor name)[r.nextIndex]? = some c := by
  obtain ⟨r, hr, hrname, hrun⟩ := h.exists_run hm hname
  have hcommands : m.commandsFor name = commandsIn name front ++ c :: commandsIn name after := by
    rw [← commandsIn_scriptSteps, hsteps, commandsIn_split]
  refine ⟨r, hr, hrname, hrun, ?_, ?_⟩
  · by_contra hparked
    obtain ⟨c', hc', hend⟩ :=
      (h.parkedBy r hr).parked_iff.mp (Option.isSome_iff_ne_none.mpr hparked)
    rw [hrname] at hc'
    rw [hm.open_before hname hcommands c' hc'] at hend
    cases hend
  · rw [h.counted r hr, hrname, hcommands, List.getElem?_append_right (le_refl _), Nat.sub_self]
    rfl

end Scripts

section Plans

variable {K : Type} [Scalar K] {m : Movie K} {o : PlanOptions K} {front after : List (Step K)}
  {step : Step K} {s : Session K} {r : Run K} {e : PlanError K}

lemma faceYaw_ok (h : Reached o m front s) (hm : Checked m) {actor : String} {c : FaceCommand K}
    (hpass : m.commandIssues actor 0 (.face c) = []) : ∃ yaw?, s.faceYaw r c.target = .ok yaw? := by
  obtain ⟨target, duration, animation⟩ := c
  cases target with
  | direction d offset => exact ⟨_, rfl⟩
  | yaw degrees => exact ⟨_, rfl⟩
  | actor name =>
    unfold Movie.commandIssues at hpass
    by_cases hself : name = actor
    · simp [hself] at hpass
    · simp only [hself, if_false, Option.toList_eq_nil_iff] at hpass
      obtain ⟨other, -, -, hother⟩ :=
        h.exists_run hm (mem_declared_actor (declared_of_nameIssue? hpass))
      exact ⟨_, bind_eq_ok.mpr ⟨other, hother, rfl⟩⟩

/-- A command that passes its check is only refused for its motion. -/
lemma obey_error (h : Reached o m front s) (hm : Checked m) {actor : String} {c : Command K}
    {index : ℕ} (hpass : m.commandIssues actor 0 c = []) (he : e ≠ .boundsUndefined)
    (hc : (m.commandsFor r.actor.name)[index]? = some c) (hobey : obey s index r c = .error e) :
    MotionRefused o m e := by
  cases c with
  | move c =>
    obtain ⟨cause, rfl, hcause⟩ := move_error hobey he
    exact .move hc hcause
  | face c =>
    obtain ⟨yaw?, hyaw⟩ := faceYaw_ok (r := r) h hm hpass
    obtain ⟨findings, hok⟩ := obey_face_eq hyaw index
    rw [hok] at hobey
    cases hobey
  | stay c => cases hobey
  | follow c =>
    unfold Movie.commandIssues at hpass
    rw [Option.toList_eq_nil_iff] at hpass
    obtain ⟨spline, curve, hspline, hcurve, hmeasured⟩ :=
      h.exists_curve hm (mem_declared_spline (declared_of_nameIssue? hpass))
    have hfollow := (bind_of_ok hmeasured _).symm.trans hobey
    obtain ⟨first, last, cause, rfl, hfirst, hlast, hcause⟩ := follow_error hfollow he
    exact .follow hc hspline hcurve hfirst hlast hcause

/-- A step of the script is only refused for the motion of its command. -/
theorem perform_error (hm : Checked m) {st : Stage K} (hst : Reached o m front st.session)
    (hsteps : scriptSteps m = front ++ step :: after) (he : e ≠ .boundsUndefined)
    (h : perform st step = .error e) : MotionRefused o m e := by
  have hscripted : Scripted m step := by
    apply scripted_of_mem
    rw [hsteps]
    exact List.mem_append_right front List.mem_cons_self
  cases step with
  | gather => cases h
  | joinActor name =>
    obtain ⟨q, hq, rfl⟩ := hscripted
    obtain ⟨r, -, -, hr⟩ := hst.exists_run hm (hm.actor_sequence hq).1
    have hdone := (bind_of_ok hr _).symm.trans h
    cases hdone
  | joinCamera name =>
    obtain ⟨q, hq, rfl⟩ := hscripted
    obtain ⟨c, hc⟩ := hst.exists_sheet (hm.camera_sequence hq).1
    have hdone := (bind_of_ok hc _).symm.trans h
    cases hdone
  | call actor =>
    obtain ⟨q, hq, rfl⟩ := hscripted
    obtain ⟨r, -, -, hr⟩ := hst.exists_run hm (hm.actor_sequence hq).1
    have hdone := (bind_of_ok hr _).symm.trans h
    cases hdone
  | command actor c =>
    obtain ⟨q, hq, rfl, hcq⟩ := hscripted
    obtain ⟨hname, hpass⟩ := hm.actor_sequence hq
    obtain ⟨r, -, hrname, hrun, hfree, hindex⟩ := hst.ready hm hname hsteps
    rcases bind_eq_error.mp h with hfail | ⟨s', -, hfail⟩
    · rw [command_eq hrun hfree] at hfail
      rcases bind_eq_error.mp hfail with hobey | ⟨obeyed, -, hfail⟩
      · exact obey_error hst hm (hpass c hcq) he (by rw [← hrname] at hindex; exact hindex) hobey
      · cases hfail
    · cases hfail
  | cues q =>
    obtain ⟨c, hc⟩ := hst.exists_sheet (hm.camera_sequence hscripted).1
    rcases bind_eq_error.mp h with hfail | ⟨s', -, hfail⟩
    · have hdone := (bind_of_ok hc _).symm.trans hfail
      cases hdone
    · cases hfail
  | nest =>
    obtain ⟨members, inner, hmembers, hinner⟩ := hscripted
    exact absurd rfl (hm.members_driven hmembers _ hinner)

/-- The walk of a movie without issues is only refused for a motion. -/
theorem walk_error (hm : Checked m) (he : e ≠ .boundsUndefined) (h : walk o m = .error e) :
    MotionRefused o m e := by
  rw [walk_eq_steps o m 0] at h
  cases hsteps : (scriptSteps m).foldlM perform ⟨Session.start m o, 0⟩ with
  | ok st =>
    rw [hsteps] at h
    cases h
  | error e' =>
    rw [hsteps] at h
    cases h
    obtain ⟨front, step, rest, st, hscript, hfront, hstep⟩ := foldlM_error hsteps
    exact perform_error hm (steps_reached hm hfront) hscript he hstep

lemma lastFrame_error (h : s.lastFrame = .error e) : e = .endless := by
  unfold Session.lastFrame at h
  cases hd : s.movie.duration with
  | some duration =>
    simp only [hd] at h
    cases h
  | none =>
    simp only [hd] at h
    split at h
    · cases h
      rfl
    · cases h

/-- A movie without issues is only refused a plan because it never ends, or because one of its
commands has no profile for its motion. (Where bounds are out of order planning breaks off.) -/
theorem plan_refused_for_end_or_motion (h : m.issues = []) (hplan : m.plan o = .error e)
    (he : e ≠ .boundsUndefined) : e = .endless ∨ MotionRefused o m e := by
  have hm := checked_of_issues_nil h
  rcases (plan_error_iff h).mp hplan with hplayed | ⟨last, s, -, rfl, -⟩
  · rcases bind_eq_error.mp hplayed with hwalk | ⟨s, -, hplayed⟩
    · exact Or.inr (walk_error hm he hwalk)
    · rcases bind_eq_error.mp hplayed with hlast | ⟨ended, -, hplayed⟩
      · exact Or.inl (lastFrame_error hlast)
      · cases hplayed
  · exact absurd rfl he

end Plans

section Wandering

variable {o : PlanOptions ℝ}

/-- A move that states nothing of how it goes. -/
def wander : MoveCommand ℝ := ⟨.forward, none, {}, none, none⟩

/-- An actor waits for a second and is sent off. -/
noncomputable def wandering : Movie ℝ :=
  { Movie.empty "wandering" 1 with
    actors := [Actor.named "A"]
    script :=
      [.actor ⟨"A", [.stay ⟨.lasting (.seconds 1), none⟩]⟩, .actor ⟨"A", [.move wander]⟩] }

lemma wandering_issues : wandering.issues = [] := by
  have hactor : Movie.actorIssues (Actor.named "A" : Actor ℝ) = [] := actorIssues_named "A"
  simp only [Movie.issues, wandering, Movie.empty, List.flatMap_cons, List.flatMap_nil, hactor]
  simp [FrameRate.isValid, Movie.declared, Movie.nameIssues, Movie.groupIssues,
    Movie.scriptIssues, Movie.sequences, Block.flatten, Movie.sequenceIssues,
    Movie.commandIssues, Movie.nameIssue?, Movie.kind?, Actor.named, Movie.tillEndIssues,
    Movie.commandsFor, isBlankText, isBlankChar, List.lookup_cons, Command.isTillEnd,
    Movie.actorCommandCount, List.findIdx?_cons]

/-- The second command of the actor is free to be obeyed. -/
lemma wandering_waits : ∃ s r, (Session.start wandering o).block
      (.actor ⟨"A", [.stay ⟨.lasting (.seconds 1), none⟩]⟩) = .ok s ∧
    s.run "A" = .ok r ∧ r.actor.name = "A" ∧ r.nextIndex = 1 ∧ r.parked = none := by
  have hv := valid_of_issues_nil wandering_issues
  have hstart : (Session.start wandering o).runs =
      [] ++ Run.start (Actor.named "A") :: [] := rfl
  have hobey : obey (Session.start wandering o) 0
      { Run.start (Actor.named "A") with nextIndex := 1 }
      (.stay ⟨.lasting (.seconds 1), none⟩) = .ok (_, []) := rfl
  obtain ⟨hactor, hindex⟩ := obey_kept hobey
  obtain ⟨s, hblock, hs, hruns, -⟩ :=
    block_command ((Follows.refl (Session.start wandering o)).runNames_nodup hv) hstart rfl hobey
  have hname := congrArg Actor.name hactor
  have hrun := run_of_mem (hs.runNames_nodup hv) (by rw [hruns]; exact List.mem_singleton_self _)
  rw [hname] at hrun
  exact ⟨s, _, hblock, hrun, hname, hindex, play_parked _ _ _⟩

/-- It has no profile. -/
lemma wandering_plan : wandering.plan o = .error (.motion "A" 1 (.underdetermined [])) := by
  obtain ⟨s, r, hfirst, hrun, hname, hindex, hfree⟩ := wandering_waits (o := o)
  have hcause : wander.motion.resolve = .error (.underdetermined []) := rfl
  have hstop : Session.command "A" s (.move wander) =
      .error (.motion "A" 1 (.underdetermined [])) := by
    rw [command_eq hrun hfree, hindex]
    refine bind_eq_error.mpr (Or.inl (bind_eq_error.mpr (Or.inl ?_)))
    rw [hcause, hname]
    rfl
  have hsecond : s.block (.actor ⟨"A", [.move wander]⟩) =
      .error (.motion "A" 1 (.underdetermined [])) :=
    bind_eq_error.mpr (Or.inr ⟨r, hrun, bind_eq_error.mpr (Or.inl hstop)⟩)
  refine (plan_error_iff wandering_issues).mpr (Or.inl (bind_eq_error.mpr (Or.inl ?_)))
  exact bind_eq_error.mpr (Or.inr ⟨s, hfirst, bind_eq_error.mpr (Or.inl hsecond)⟩)

theorem wandering_refused_for_motion : wandering.issues = [] ∧
    wandering.plan (Settings.standard.options) =
      .error (.motion "A" 1 (.underdetermined [])) ∧
    MotionRefused (Settings.standard.options) wandering
      (.motion "A" 1 (.underdetermined [])) := by
  refine ⟨wandering_issues, wandering_plan, ?_⟩
  have he : (PlanError.motion "A" 1 (.underdetermined []) : PlanError ℝ) ≠ .boundsUndefined :=
    fun h => by cases h
  rcases plan_refused_for_end_or_motion wandering_issues wandering_plan he with hend | hmotion
  · cases hend
  · exact hmotion

end Wandering

end Stagecraft.Proofs
