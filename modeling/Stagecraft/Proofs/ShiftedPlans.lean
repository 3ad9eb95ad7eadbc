import Stagecraft.Proofs.IndependentSteps
import Stagecraft.Proofs.PlannedMovies
import Stagecraft.Proofs.ShiftedShots

/-!
# Shifted plans

A session of a shifted movie is the shifted session at every step: it finds the same runs, sheets
and curves under the same names, and puts them back shifted. What is checked, how far the scripts
reach and what is reported has no place in it. So the plan of a shifted movie is the shifted plan.
-/

namespace Stagecraft

section Shifting

variable (v : Shift)

noncomputable def Movie.shifted (m : Movie ℝ) : Movie ℝ :=
  { m with
    actors := m.actors.map (Actor.shifted v)
    cameras := m.cameras.map (Camera.shifted v.place)
    splines := m.splines.map (Spline.shifted v.place) }

noncomputable def Session.shifted (s : Session ℝ) : Session ℝ :=
  { s with
    movie := s.movie.shifted v
    runs := s.runs.map (Run.shifted v)
    sheets := s.sheets.map (CueSheet.shifted v.place)
    curves := s.curves.map fun c => (c.1, ⟨fun _ => c.2.get.map (Curve.shifted v.place)⟩) }

noncomputable def ActorReel.shifted (a : ActorReel ℝ) : ActorReel ℝ :=
  { a with
    actor := a.actor.shifted v
    transform := a.transform.map (TransformKey.shifted v.place (v.mesh a.actor.name)) }

noncomputable def Reel.shifted (r : Reel ℝ) : Reel ℝ :=
  { r with
    actors := r.actors.map (ActorReel.shifted v)
    cameras := r.cameras.map (CameraReel.shifted v.place) }

end Shifting

end Stagecraft

namespace Stagecraft.Proofs

section Sessions

variable (v : Shift) (s : Session ℝ)

lemma start_session_shifted (m : Movie ℝ) (o : PlanOptions ℝ) :
    Session.start (m.shifted v) o = (Session.start m o).shifted v := by
  unfold Session.start Session.shifted Movie.shifted
  simp only [List.map_map]
  congr 1
  · exact List.map_congr_left fun a _ => start_shifted v a
  · refine List.map_congr_left fun c _ => ?_
    exact congrArg (fun curve => (c.name, Thunk.mk fun _ => curve))
      (ofSpline?_shifted v.place c o.samplesPerSegment)

lemma run_shifted (name : String) : (s.shifted v).run name = Run.shifted v <$> s.run name := by
  have hfind : (s.shifted v).runs.find? (fun r => r.actor.name = name) =
      (s.runs.find? fun r => r.actor.name = name).map (Run.shifted v) :=
    find?_map_of_key (fun r : Run ℝ => r.actor.name) fun _ => rfl
  unfold Session.run
  rw [hfind]
  cases s.runs.find? fun r => r.actor.name = name with
  | none => rfl
  | some r => rfl

lemma sheet_shifted (name : String) :
    (s.shifted v).sheet name = CueSheet.shifted v.place <$> s.sheet name := by
  have hfind : (s.shifted v).sheets.find? (fun c => c.camera.name = name) =
      (s.sheets.find? fun c => c.camera.name = name).map (CueSheet.shifted v.place) :=
    find?_map_of_key (fun c : CueSheet ℝ => c.camera.name) fun _ => rfl
  unfold Session.sheet
  rw [hfind]
  cases s.sheets.find? fun c => c.camera.name = name with
  | none => rfl
  | some c => rfl

lemma curve_shifted (name : String) :
    (s.shifted v).curve name = Curve.shifted v.place <$> s.curve name := by
  have hlookup : (s.shifted v).curves.lookup name = (s.curves.lookup name).map
      fun c => ⟨fun _ => c.get.map (Curve.shifted v.place)⟩ := by
    unfold Session.shifted
    dsimp only
    induction s.curves with
    | nil => rfl
    | cons c rest ih =>
      rw [List.map_cons, List.lookup_cons, List.lookup_cons, ih]
      cases name == c.1 with
      | true => rfl
      | false => rfl
  unfold Session.curve
  rw [hlookup]
  cases s.curves.lookup name with
  | none => rfl
  | some c =>
    have hget : Thunk.get ⟨fun _ => c.get.map (Curve.shifted v.place)⟩ =
        c.get.map (Curve.shifted v.place) := rfl
    simp only [Option.map_some, hget]
    cases c.get with
    | none => rfl
    | some curve => rfl

lemma setRun_shifted (r : Run ℝ) :
    (s.shifted v).setRun (r.shifted v) = (s.setRun r).shifted v := by
  have hruns : (s.runs.map (Run.shifted v)).map
      (fun q => if q.actor.name = (r.shifted v).actor.name then r.shifted v else q) =
      (s.setRun r).runs.map (Run.shifted v) :=
    replaced_map (fun q : Run ℝ => q.actor.name) fun _ => rfl
  exact congrArg (fun runs => { s.shifted v with runs := runs }) hruns

lemma setSheet_shifted (c : CueSheet ℝ) :
    (s.shifted v).setSheet (c.shifted v.place) = (s.setSheet c).shifted v := by
  have hsheets : (s.sheets.map (CueSheet.shifted v.place)).map
      (fun d => if d.camera.name = (c.shifted v.place).camera.name then c.shifted v.place else d) =
      (s.setSheet c).sheets.map (CueSheet.shifted v.place) :=
    replaced_map (fun d : CueSheet ℝ => d.camera.name) fun _ => rfl
  exact congrArg (fun sheets => { s.shifted v with sheets := sheets }) hsheets

lemma horizon_shifted : (s.shifted v).horizon = s.horizon := by
  unfold Session.horizon Session.shifted
  simp only [List.map_map]
  rfl

lemma faceYaw_shifted (r : Run ℝ) (target : FaceTarget ℝ) :
    (s.shifted v).faceYaw (r.shifted v) target = s.faceYaw r target := by
  cases target with
  | direction d offset => rfl
  | yaw degrees => rfl
  | actor name =>
    unfold Session.faceYaw
    dsimp only
    rw [run_shifted, bind_map_left]
    refine bind_congr fun other => ?_
    have hdelta : ∀ frame, (other.shifted v).locationAt frame - (r.shifted v).pose.location =
        other.locationAt frame - r.pose.location := by
      intro frame
      rw [locationAt_shifted]
      exact vec3_add_sub_add _ _ _
    have hyaw : (s.shifted v).yawToward? (r.shifted v) (other.shifted v) =
        s.yawToward? r other := by
      unfold Session.yawToward?
      dsimp only
      rw [hdelta]
      rfl
    rw [hyaw]

lemma obey_shifted (index : ℕ) (r : Run ℝ) (c : Command ℝ) :
    obey (s.shifted v) index (r.shifted v) c = shiftedRun v <$> obey s index r c := by
  cases c with
  | move c => exact move_shifted v s.movie.fps r index s.options.anchor c
  | face c =>
    unfold obey
    dsimp only
    rw [faceYaw_shifted, map_bind]
    refine bind_congr fun yaw? => ?_
    cases yaw? with
    | none => exact congrArg (fun q => Except.ok (q, _)) (face_shifted v s.movie.fps r c _)
    | some yaw => exact congrArg (fun q => Except.ok (q, _)) (face_shifted v s.movie.fps r c yaw)
  | stay c => exact congrArg (fun q => Except.ok (q, _)) (stay_shifted v s.movie.fps r index c)
  | follow c =>
    unfold obey
    dsimp only
    rw [curve_shifted, bind_map_left, map_bind]
    exact bind_congr fun curve => follow_shifted v s.movie.fps r index c curve

/-- The change that is made in a shifted session. -/
noncomputable def shiftedChange : Change ℝ → Change ℝ
  | .nothing => .nothing
  | .run r reports => .run (r.shifted v) reports
  | .sheet c => .sheet (c.shifted v.place)

lemma apply_shifted (u : Change ℝ) :
    (shiftedChange v u).apply (s.shifted v) = (u.apply s).shifted v := by
  cases u with
  | nothing => rfl
  | run r reports =>
    exact congrArg (fun q : Session ℝ => { q with diagnostics := s.diagnostics ++ reports })
      (setRun_shifted v s r)
  | sheet c => exact setSheet_shifted v s c

lemma commanded_shifted (actor : String) (c : Command ℝ) :
    commanded (s.shifted v) actor c = shiftedChange v <$> commanded s actor c := by
  unfold commanded
  rw [run_shifted, bind_map_left, map_bind]
  refine bind_congr fun r => ?_
  have hparked : (r.shifted v).parked = r.parked := rfl
  rw [hparked]
  by_cases h : r.parked.isSome = true
  · rw [if_pos h, if_pos h]
    rfl
  · have hobey := obey_shifted v s r.nextIndex { r with nextIndex := r.nextIndex + 1 } c
    rw [if_neg h, if_neg h, map_bind]
    refine (congrArg (· >>= _) hobey).trans ?_
    rw [bind_map_left]
    rfl

lemma decided_shifted (t : ℝ) (step : Step ℝ) :
    decided (s.shifted v) t step = shiftedChange v <$> decided s t step := by
  cases step with
  | gather | nest => rfl
  | joinActor name =>
    unfold decided
    dsimp only
    rw [run_shifted, bind_map_left, map_bind]
    refine bind_congr fun r => ?_
    exact congrArg (fun q => Except.ok (Change.run q [])) (holdUntil_shifted v s.movie.fps r t none)
  | joinCamera name =>
    unfold decided
    dsimp only
    rw [sheet_shifted, bind_map_left, map_bind]
    rfl
  | call actor =>
    unfold decided
    dsimp only
    rw [run_shifted, bind_map_left, map_bind]
    rfl
  | command actor c => exact commanded_shifted v s actor c
  | cues q =>
    have hadd : ∀ c : CueSheet ℝ, q.commands.foldl CueSheet.add (c.shifted v.place) =
        (q.commands.foldl CueSheet.add c).shifted v.place :=
      fun c => List.foldl_hom (CueSheet.shifted v.place) fun _ _ => rfl
    unfold decided
    dsimp only
    rw [sheet_shifted, bind_map_left, map_bind]
    refine bind_congr fun c => ?_
    exact congrArg (fun c => Except.ok (Change.sheet c)) (hadd c)

/-- A stage whose session is shifted. -/
noncomputable def shiftedStage (st : Stage ℝ) : Stage ℝ :=
  ⟨st.session.shifted v, st.groupStart⟩

lemma perform_shifted (st : Stage ℝ) (step : Step ℝ) :
    perform (shiftedStage v st) step = shiftedStage v <$> perform st step := by
  obtain ⟨s, t⟩ := st
  by_cases hstep : step = .gather
  · subst hstep
    exact congrArg (fun t => Except.ok (Stage.mk (s.shifted v) t)) (horizon_shifted v s)
  · have hchange : perform ⟨s.shifted v, t⟩ step = _ := perform_eq_change hstep
    refine hchange.trans ?_
    rw [perform_eq_change hstep, decided_shifted, bind_map_left, map_bind]
    refine bind_congr fun u => ?_
    exact congrArg (fun q => Except.ok (Stage.mk q t)) (apply_shifted v s u)

/-- The script of a shifted movie is walked as before, by shifted sessions. -/
theorem walk_shifted (m : Movie ℝ) (o : PlanOptions ℝ) :
    walk o (m.shifted v) = Session.shifted v <$> walk o m := by
  have hsteps : scriptSteps (m.shifted v) = scriptSteps m := rfl
  have hrun := foldlM_embed (shiftedStage v) (perform_shifted v) (scriptSteps m)
    ⟨Session.start m o, 0⟩
  rw [walk_eq_steps o m 0, walk_eq_steps o (m.shifted v) 0, hsteps, start_session_shifted]
  refine (congrArg (Stage.session <$> ·) hrun).trans ?_
  rw [Functor.map_map, Functor.map_map]
  rfl

end Sessions

section Ends

variable (v : Shift) (s : Session ℝ)

lemma extent_shifted : (s.shifted v).extent = s.extent := by
  have hlast : ∀ r : Run ℝ, (r.shifted v).transform.lastFrame? = r.transform.lastFrame? :=
    fun r => lastFrame?_map (frame_shifted v.place (v.mesh r.actor.name)) r.transform
  unfold Session.extent Session.shifted
  simp only [List.filterMap_map, List.map_map, Function.comp_def, hlast]
  rfl

lemma lastFrame_shifted : (s.shifted v).lastFrame =
    (fun x => (x.1, x.2.shifted v)) <$> s.lastFrame := by
  have hduration : (s.shifted v).movie.duration = s.movie.duration := rfl
  have hrate : (s.shifted v).movie.fps = s.movie.fps := rfl
  have hparked : (s.shifted v).runs.any (·.parked.isSome) = s.runs.any (·.parked.isSome) := by
    unfold Session.shifted
    rw [List.any_map]
    rfl
  unfold Session.lastFrame
  rw [extent_shifted, hduration, hparked, hrate]
  cases s.movie.duration with
  | some duration =>
    dsimp only
    split
    · rfl
    · rfl
  | none =>
    dsimp only
    split
    · rfl
    · rfl

lemma finishRun_shifted (last : ℕ) (r : Run ℝ) :
    Session.finishRun last (s.shifted v) (r.shifted v) =
      (Session.finishRun last s r).shifted v := by
  have hrate : (s.shifted v).movie.fps = s.movie.fps := rfl
  unfold Session.finishRun
  rw [hrate, finish_shifted]
  dsimp only
  rw [setRun_shifted]
  exact List.foldl_hom (Session.shifted v) fun _ _ => rfl

lemma finishRuns_shifted (last : ℕ) :
    (s.shifted v).finishRuns last = (s.finishRuns last).shifted v := by
  have hruns : (s.shifted v).runs = s.runs.map (Run.shifted v) := rfl
  unfold Session.finishRuns
  rw [hruns, List.foldl_map]
  exact List.foldl_hom (Session.shifted v) fun s r => finishRun_shifted v s last r

lemma subject?_shifted (frame : ℕ) (name : String) :
    (s.shifted v).subject? frame name = (s.subject? frame name).map (Subject.shifted v.place) := by
  have hfind : (s.shifted v).runs.find? (fun r => r.actor.name = name) =
      (s.runs.find? fun r => r.actor.name = name).map (Run.shifted v) :=
    find?_map_of_key (fun r : Run ℝ => r.actor.name) fun _ => rfl
  unfold Session.subject?
  rw [hfind]
  cases s.runs.find? fun r => r.actor.name = name with
  | none => rfl
  | some r => exact subjectAt_shifted v r frame

/-- What is shot so far, in the shifted scene. -/
noncomputable def shiftedShoots (x : List (CameraReel ℝ) × Session ℝ) :
    List (CameraReel ℝ) × Session ℝ :=
  (x.1.map (CameraReel.shifted v.place), x.2.shifted v)

lemma shoot_shifted (last : ℕ) (x : List (CameraReel ℝ) × Session ℝ) (c : CueSheet ℝ) :
    Session.shoot last (shiftedShoots v x) (c.shifted v.place) =
      shiftedShoots v <$> Session.shoot last x c := by
  obtain ⟨reels, s⟩ := x
  have hshoot : (c.shifted v.place).shoot? s.movie.fps s.options (s.shifted v).subject? last =
      (c.shoot? s.movie.fps s.options s.subject? last).map fun x =>
        (x.1.shifted v.place, x.2) :=
    shoot?_shifted v.place _ _ (subject?_shifted v s) last c
  unfold Session.shoot shiftedShoots
  dsimp only
  have hmovie : (s.shifted v).movie.fps = s.movie.fps := rfl
  have hoptions : (s.shifted v).options = s.options := rfl
  rw [hmovie, hoptions, hshoot]
  cases c.shoot? s.movie.fps s.options s.subject? last with
  | none => rfl
  | some shot =>
    have hwarned : shot.2.foldl (fun s f => Session.warn s c.camera.name f.1 [f.2]) (s.shifted v) =
        (shot.2.foldl (fun s f => Session.warn s c.camera.name f.1 [f.2]) s).shifted v :=
      List.foldl_hom (Session.shifted v) fun _ _ => rfl
    have hreels : reels.map (CameraReel.shifted v.place) ++ [shot.1.shifted v.place] =
        (reels ++ [shot.1]).map (CameraReel.shifted v.place) := by
      rw [List.map_append]
      rfl
    exact congrArg₂ (fun reels s => Except.ok (reels, s)) hreels hwarned

lemma shoots_shifted (last : ℕ) :
    (s.shifted v).sheets.foldlM (Session.shoot last) ([], s.shifted v) =
      shiftedShoots v <$> s.sheets.foldlM (Session.shoot last) ([], s) := by
  have hsheets : (s.shifted v).sheets = s.sheets.map (CueSheet.shifted v.place) := rfl
  rw [hsheets, List.foldlM_map]
  exact foldlM_embed (shiftedShoots v) (shoot_shifted v last) s.sheets ([], s)

lemma checkEvents_shifted (last : ℕ) :
    (s.shifted v).checkEvents last = (s.checkEvents last).shifted v := by
  have hround : ∀ (s : Session ℝ) (e : ReelEvent ℝ),
      (if last < e.frame then (s.shifted v).warnMovie (.eventTooLate e.frame last)
        else s.shifted v) =
      (if last < e.frame then s.warnMovie (.eventTooLate e.frame last) else s).shifted v := by
    intro s e
    split
    · rfl
    · rfl
  exact List.foldl_hom (Session.shifted v) hround

lemma reel_shifted (last : ℕ) (cameras : List (CameraReel ℝ)) :
    (s.shifted v).reel last (cameras.map (CameraReel.shifted v.place)) =
      (s.reel last cameras).shifted v := by
  unfold Session.reel Reel.shifted Session.shifted
  simp only [List.map_map]
  rfl

end Ends

section Plans

variable (v : Shift) (m : Movie ℝ) (o : PlanOptions ℝ)

lemma played_shifted : played o (m.shifted v) =
    (fun x => (x.1, x.2.shifted v)) <$> played o m := by
  unfold played
  rw [walk_shifted, bind_map_left, map_bind]
  refine bind_congr fun s => ?_
  rw [lastFrame_shifted, bind_map_left, map_bind]
  refine bind_congr fun x => ?_
  exact congrArg (fun q => Except.ok (x.1, q)) (finishRuns_shifted v x.2 x.1)

lemma issues_shifted : (m.shifted v).issues = m.issues := by
  apply ChecksLike.issues_eq
  refine ⟨rfl, rfl, rfl, rfl, rfl, ?_, ?_, ?_, ?_⟩
  · unfold Movie.declared Movie.shifted
    simp only [List.map_map]
    rfl
  · exact List.forall₂_map_right_iff.mpr (List.forall₂_same.mpr fun _ _ => ⟨rfl, rfl⟩)
  · exact List.forall₂_map_right_iff.mpr (List.forall₂_same.mpr fun _ _ => rfl)
  · refine List.forall₂_map_right_iff.mpr (List.forall₂_same.mpr fun s _ => ?_)
    unfold Movie.splineIssues Spline.shifted
    rw [List.length_map]

/-- The plan of a shifted movie is the shifted plan, and it fails alike. -/
theorem plan_shifted : (m.shifted v).plan o = Reel.shifted v <$> m.plan o := by
  by_cases h : m.issues = []
  · have h' : (m.shifted v).issues = [] := (issues_shifted v m).trans h
    rw [plan_eq h, plan_eq h', played_shifted, bind_map_left, map_bind]
    refine bind_congr fun x => ?_
    obtain ⟨last, s⟩ := x
    dsimp only
    rw [shoots_shifted, bind_map_left, map_bind]
    refine bind_congr fun y => ?_
    obtain ⟨cameras, s'⟩ := y
    have hreel : ((s'.shifted v).checkEvents last).reel last
        (cameras.map (CameraReel.shifted v.place)) =
        ((s'.checkEvents last).reel last cameras).shifted v := by
      rw [checkEvents_shifted, reel_shifted]
    exact congrArg Except.ok hreel
  · have h' : (m.shifted v).issues ≠ [] := (issues_shifted v m).trans_ne h
    rw [plan_invalid h, plan_invalid h', issues_shifted]
    rfl

end Plans

end Stagecraft.Proofs
