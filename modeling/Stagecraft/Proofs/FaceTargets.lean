import Stagecraft.Proofs.PlannedMovies
import Stagecraft.Settings

/-!
# Turning to an actor

A turn to another actor is planned when its turn comes in the script, from what is planned of the
other by then. What is keyed in front of the other's cursor stays as it is to the end; beyond it
the other is taken to stay where it is.
-/

namespace Stagecraft.Proofs

section Places

variable {rate : FrameRate ℝ} {b b' : Run ℝ} {f : ℕ}

lemma locationAt_front (h : OnTime rate b) (hf : f < rate.frameAt b.cursor) {k : TransformKey ℝ}
    (hk : b.transform.keys[f]? = some k) : b.locationAt f = k.transform.location := by
  unfold Run.locationAt
  rw [h.filled.lastFrame?_eq]
  simp only [hf.le, if_true]
  rw [h.filled.sample_eq, min_eq_left hf.le, hk]
  rfl

lemma sample_cursor (h : OnTime rate b) :
    ∃ t, b.transform.sample (rate.frameAt b.cursor) = some t ∧ t.location = b.pose.location := by
  obtain ⟨k, hk, hlocation⟩ := Option.map_eq_some_iff.mp h.last_location
  refine ⟨k.transform, ?_, hlocation⟩
  rw [h.filled.sample_eq, min_self, hk]
  rfl

/-- From its last frame on an actor is where it is now. -/
lemma locationAt_past (h : OnTime rate b) (hf : rate.frameAt b.cursor ≤ f) :
    b.locationAt f = b.pose.location := by
  unfold Run.locationAt
  rw [h.filled.lastFrame?_eq]
  rcases hf.lt_or_eq with hlt | heq
  · simp only [not_le.mpr hlt, if_false]
  · subst heq
    obtain ⟨t, ht, hlocation⟩ := sample_cursor h
    simp only [le_refl, if_true, ht]
    exact hlocation

/-- Where an actor ends up at a frame is where it is planned to be, if its track is past the frame
or if it stays in its place from now on. -/
lemma sample_final (h : OnTime rate b) (hfps : 0 < rate.fps) (ha : Advances rate b b') (f : ℕ) :
    ∃ t later, b'.transform.sample f = some t ∧ b'.spans = later ++ b.spans ∧
      (f < rate.frameAt b.cursor ∨ StayAt b.pose.location later →
        b.locationAt f = t.location) := by
  have h' := h.advances hfps ha
  have hmono : rate.frameAt b.cursor ≤ rate.frameAt b'.cursor := frameAt_mono hfps ha.cursor_le
  obtain ⟨k, hk, -⟩ := h'.filled.exists_key
    (show min f (rate.frameAt b'.cursor) < rate.frameAt b'.cursor + 1 by omega)
  obtain ⟨later, hspans, hstays⟩ := ha.stays h hfps
  refine ⟨k.transform, later, ?_, hspans, ?_⟩
  · rw [h'.filled.sample_eq, hk]
    rfl
  · intro hcase
    rcases Nat.lt_or_ge f (rate.frameAt b.cursor) with hlt | hge
    · rw [min_eq_left (hlt.le.trans hmono), ha.key_eq h hfps hlt] at hk
      exact locationAt_front h hlt hk
    · have hlater := hcase.resolve_left (not_lt.mpr hge)
      rw [locationAt_past h hge]
      exact ((hstays hlater).2 _ k (le_min hge hmono) hk).symm

end Places

section Plans

variable {m : Movie ℝ} {o : PlanOptions ℝ} {reel : Reel ℝ}

/-- The yaw from one place to another, and the current one where they coincide on the ground. -/
noncomputable def yawTo (current : ℝ) (here there : Vec3 ℝ) : ℝ :=
  if Real.sqrt ((there.x - here.x) ^ 2 + (there.y - here.y) ^ 2) < 1e-6 then current
  else Complex.arg ⟨there.x - here.x, there.y - here.y⟩ * (180 / Real.pi)

lemma yawToward?_of_far {s : Session ℝ} {r other : Run ℝ} {there : Vec3 ℝ}
    (hthere : other.locationAt (s.movie.fps.frameAt r.cursor) = there)
    (h : ¬(there - r.pose.location).horizontalLength < 1e-6) :
    s.yawToward? r other = some (there - r.pose.location).yaw := by
  subst hthere
  exact if_neg h

lemma yawToward?_getD (s : Session ℝ) (r other : Run ℝ) :
    (s.yawToward? r other).getD r.pose.yaw =
      yawTo r.pose.yaw r.pose.location (other.locationAt (s.movie.fps.frameAt r.cursor)) := by
  unfold yawTo
  generalize hthere : other.locationAt (s.movie.fps.frameAt r.cursor) = there
  by_cases h : Real.sqrt ((there.x - r.pose.location.x) ^ 2 +
      (there.y - r.pose.location.y) ^ 2) < 1e-6
  · have hnone : s.yawToward? r other = none := by
      subst hthere
      exact if_pos h
    rw [hnone, if_pos h]
    rfl
  · rw [yawToward?_of_far hthere h, if_neg h]
    rfl

/-- A turn to another actor, seen from the finished plan. The runs of the two are `a` and `b` when
the turn is planned; `turned` is the first after the turn, `final` the other when all is planned. -/
structure TurnsToward (rate : FrameRate ℝ) (c : FaceCommand ℝ) (a turned b final : Run ℝ) :
    Prop where
  turned_eq : turned = Run.face rate c
    (yawTo a.pose.yaw a.pose.location (b.locationAt (rate.frameAt a.cursor)))
    { a with nextIndex := a.nextIndex + 1 }
  place_final : ∃ t later, final.transform.sample (rate.frameAt a.cursor) = some t ∧
    final.spans = later ++ b.spans ∧
    (rate.frameAt a.cursor < rate.frameAt b.cursor ∨ StayAt b.pose.location later →
      b.locationAt (rate.frameAt a.cursor) = t.location)
  place_past : rate.frameAt b.cursor ≤ rate.frameAt a.cursor →
    b.locationAt (rate.frameAt a.cursor) = b.pose.location

lemma sub_origin (v : Vec3 ℝ) : v - Vec3.zero = v := by
  have hzero : ∀ a : ℝ, a - (@OfNat.ofNat ℝ 0 Scalar.instOfNat) = a := by
    intro a
    rw [zero_real, sub_zero]
  exact congr (congrArg₂ Vec3.mk (hzero v.x) (hzero v.y)) (hzero v.z)

lemma abs_le_horizontalLength (v : Vec3 ℝ) : |v.x| ≤ v.horizontalLength ∧
    |v.y| ≤ v.horizontalLength :=
  ⟨Real.abs_le_sqrt (le_add_of_nonneg_right (sq_nonneg v.y)),
    Real.abs_le_sqrt (le_add_of_nonneg_left (sq_nonneg v.x))⟩

/-- Yaw zero is the direction of `+x`. -/
lemma yaw_eq_zero_iff (v : Vec3 ℝ) : v.yaw = 0 ↔ 0 ≤ v.x ∧ v.y = 0 := by
  have hyaw : v.yaw = Complex.arg ⟨v.x, v.y⟩ * (180 / Real.pi) := rfl
  have hfactor : (180 : ℝ) / Real.pi ≠ 0 := div_ne_zero (by norm_num) Real.pi_ne_zero
  rw [hyaw, mul_eq_zero, or_iff_left hfactor, Complex.arg_eq_zero_iff]

lemma reel_actor? {s : Session ℝ} (hshows : Shows s reel) (hnames : (runNames s).Nodup)
    {r : Run ℝ} (hr : r ∈ s.runs) :
    reel.actor? r.actor.name = some ⟨r.actor, r.transform, r.animation⟩ := by
  unfold Reel.actor?
  rw [hshows.actors_eq, List.find?_map]
  have hfind := find_run hnames hr
  let reelOf : Run ℝ → ActorReel ℝ := fun r => ⟨r.actor, r.transform, r.animation⟩
  exact congrArg (Option.map reelOf) hfind

/-- Wherever the two stand in the script, a turn to another actor leads to where the other is
planned to be when the turn is planned. In the finished plan the other is there, unless its track
ended by then and it moves on later. -/
theorem turn_leads_to_planned_place (h : m.plan o = .ok reel) {before after : List (Step ℝ)}
    {name other : String} {c : FaceCommand ℝ}
    (hsteps : scriptSteps m = before ++ .command name (.face c) :: after)
    (htarget : c.target = .actor other) :
    ∃ st st' s a turned b final,
      before.foldlM perform ⟨Session.start m o, 0⟩ = .ok st ∧
      perform st (.command name (.face c)) = .ok st' ∧ played o m = .ok (reel.lastFrame, s) ∧
      st.session.run name = .ok a ∧ st'.session.run name = .ok turned ∧
      st.session.run other = .ok b ∧ s.run other = .ok final ∧
      (reel.actor? other).map ActorReel.transform = some final.transform ∧
      TurnsToward m.fps c a turned b final := by
  have hv := valid_of_issues_nil (issues_nil_of_plan h)
  obtain ⟨st, st', s, hbefore, hstep, hplayed, hshows, hst, hst', hend⟩ := plan_split h hsteps
  obtain ⟨s', hcommand, hdone⟩ := bind_eq_ok.mp hstep
  obtain ⟨a, turned, findings, ha, -, hobey, rfl⟩ := command_ok hcommand
  obtain ⟨yaw?, hyaw, hturned⟩ := obey_face_ok hobey
  rw [htarget] at hyaw
  obtain ⟨b, hb, hyaw⟩ := bind_eq_ok.mp hyaw
  cases hyaw
  have hmovie : st.session.movie = m := hst.movie_eq
  obtain ⟨hbmem, rfl⟩ := run_ok hb
  obtain ⟨hamem, rfl⟩ := run_ok ha
  obtain ⟨final, hfinal, hadvance⟩ := mem_of_forall₂_left (hst'.trans hend).runs_advance hbmem
  rw [hmovie] at hadvance
  have honTime := hst.onTime hv hbmem
  have hplace := sample_final honTime hv.rate_pos hadvance (m.fps.frameAt a.cursor)
  have hnames : (runNames s).Nodup := (hst.trans (hst'.trans hend)).runNames_nodup hv
  have hrun := run_of_mem hnames hfinal
  have htrack := reel_actor? hshows hnames hfinal
  rw [hadvance.actor_eq] at hrun htrack
  refine ⟨st, st', s, a, turned, b, final, hbefore, hstep, hplayed, ha, ?_, hb, hrun, ?_, ?_⟩
  · have hname : turned.actor.name = a.actor.name :=
      congrArg Actor.name (obey_advances hobey).actor_eq
    cases hdone
    exact run_setRun (hst.runNames_nodup hv) hamem hname
  · rw [htrack]
    rfl
  · refine ⟨?_, hplace, locationAt_past honTime⟩
    rw [hturned, yawToward?_getD, hmovie]

end Plans

section Crossing

variable {o : PlanOptions ℝ}

/-- East by a meter in a second. -/
noncomputable def stepEast : MoveCommand ℝ where
  direction := .east
  directionOffset := none
  motion := { duration := some (.seconds 1), startSpeed := some (.metersPerSecond 1) }
  corridor := none
  animation := none

def towardB : FaceCommand ℝ := ⟨.actor "B", .seconds 0, none⟩

noncomputable def actorB : Actor ℝ := { Actor.named "B" with location := ⟨100, 0, 0⟩ }

/-- An actor waits for a second and turns to another, that steps aside in this second but later in
the script. -/
noncomputable def crossing : Movie ℝ :=
  { Movie.empty "crossing" 1 with
    actors := [Actor.named "A", actorB]
    script :=
      [.actor ⟨"A", [.stay ⟨.lasting (.seconds 1), none⟩]⟩, .actor ⟨"A", [.face towardB]⟩,
        .actor ⟨"B", [.move stepEast]⟩] }

lemma crossing_issues : crossing.issues = [] := by
  have hactor : Movie.actorIssues (Actor.named "A" : Actor ℝ) = [] := actorIssues_named "A"
  have hother : Movie.actorIssues actorB = [] := actorIssues_named "B"
  have hname : actorB.name = "B" := rfl
  simp only [Movie.issues, crossing, Movie.empty, List.flatMap_cons, List.flatMap_nil, hactor,
    hother]
  simp [FrameRate.isValid, Movie.declared, Movie.nameIssues, Movie.groupIssues, hname,
    Movie.scriptIssues, Movie.sequences, Block.flatten, Movie.sequenceIssues,
    Movie.commandIssues, Movie.nameIssue?, Movie.kind?, Actor.named, Movie.tillEndIssues,
    Movie.commandsFor, isBlankText, isBlankChar, List.lookup_cons, Command.isTillEnd,
    Movie.actorCommandCount, towardB, List.findIdx?_cons]

lemma stepEast_resolve : stepEast.motion.resolve = .ok ⟨Profile.constant 100 1, []⟩ := by
  have hspeed : (Speed.metersPerSecond 1 : Speed ℝ).internal = 100 := by
    change (1 : ℝ) * 100 = 100
    norm_num
  have hslow : ¬(100 : ℝ) < 0 := by norm_num
  have hpast : ¬(1 : ℝ) < 0 := by norm_num
  simp only [MotionSpec.resolve, stepEast]
  simp [hspeed, seconds_real, MotionSpec.nonNegative, MotionSpec.solve, if_neg hslow, if_neg hpast]
  rfl

lemma stepEast_obey (s : Session ℝ) (index : ℕ) (r : Run ℝ) :
    obey s index r (.move stepEast) = .ok ({ r.play s.movie.fps
      (moveSpan r stepEast (Profile.constant 100 1) none) with lane := none }, []) := by
  change Run.move s.movie.fps s.options.anchor index stepEast r = _
  unfold Run.move
  rw [stepEast_resolve]
  rfl

lemma stepEast_profile : (Profile.constant (100 : ℝ) 1).duration = 1 ∧
    (Profile.constant (100 : ℝ) 1).distanceAt 1 = 100 := by
  have hduration : (Profile.constant (100 : ℝ) 1).duration = 1 := by
    unfold Profile.constant Profile.rampThenCruise
    simp [larger_real]
  refine ⟨hduration, ?_⟩
  unfold Profile.distanceAt
  simp only [hduration]
  rw [clamp_of_mem]
  · simp [Profile.constant, Profile.rampThenCruise, larger_real, Scalar.clamp]
    norm_num
  · simp
  · exact le_refl 1

/-- First the actor waits. -/
lemma crossing_waits : ∃ s a, (Session.start crossing o).block
      (.actor ⟨"A", [.stay ⟨.lasting (.seconds 1), none⟩]⟩) = .ok s ∧
    Follows (Session.start crossing o) s ∧ s.runs = [a, Run.start actorB] ∧ s.sheets = [] ∧
    a.actor = Actor.named "A" ∧ a.parked = none ∧ a.cursor = 1 ∧ a.pose.location = Vec3.zero := by
  have hv := valid_of_issues_nil crossing_issues
  have hstart : (Session.start crossing o).runs =
      [] ++ Run.start (Actor.named "A") :: [Run.start actorB] := rfl
  have hobey : obey (Session.start crossing o) 0 { Run.start (Actor.named "A") with nextIndex := 1 }
      (.stay ⟨.lasting (.seconds 1), none⟩) = .ok (_, []) := rfl
  obtain ⟨s, hblock, hs, hruns, hsheets⟩ :=
    block_command ((Follows.refl (Session.start crossing o)).runNames_nodup hv) hstart rfl hobey
  refine ⟨s, _, hblock, hs, hruns, hsheets, play_actor _ _ _, play_parked _ _ _, ?_,
    congrArg Pose.location (play_pose _ _ _)⟩
  rw [stay_lasting_cursor (by rw [seconds_real]; norm_num), seconds_real]
  exact (congrArg (· + 1) zero_real).trans (zero_add 1)

/-- Then it turns. -/
lemma crossing_turns {s : Session ℝ} {a b : Run ℝ} (hs : Follows (Session.start crossing o) s)
    (hruns : s.runs = [a, b]) (hactor : a.actor = Actor.named "A") (hother : b.actor = actorB)
    (hparked : a.parked = none) :
    ∃ s' a', s.block (.actor ⟨"A", [.face towardB]⟩) = .ok s' ∧ Follows s s' ∧
      s'.runs = [a', b] ∧ s'.sheets = s.sheets ∧ a'.parked = none ∧ a'.cursor = a.cursor := by
  have hnames := hs.runNames_nodup (valid_of_issues_nil crossing_issues)
  have hname : a.actor.name = "A" := congrArg Actor.name hactor
  have hmem : b ∈ s.runs := by
    rw [hruns]
    exact List.mem_cons_of_mem a (List.mem_singleton_self b)
  have hb : s.run "B" = .ok b := by
    have hrun := run_of_mem hnames hmem
    rw [hother] at hrun
    exact hrun
  let a₀ : Run ℝ := { a with nextIndex := a.nextIndex + 1 }
  have hyaw : s.faceYaw a₀ towardB.target = .ok (s.yawToward? a₀ b) :=
    bind_eq_ok.mpr ⟨b, hb, rfl⟩
  obtain ⟨found, hobey⟩ := obey_face_eq hyaw a.nextIndex
  obtain ⟨s', hblock, hs', hruns', hsheets⟩ :=
    block_command hnames (show s.runs = [] ++ a :: [b] from hruns) hparked hobey
  rw [hname] at hblock
  have hinstant : Scalar.larger (TimeSpan.seconds (0 : ℝ)).internal
      (@OfNat.ofNat ℝ 0 Scalar.instOfNat) = 0 := by
    rw [larger_real, seconds_real, zero_real, max_self]
  refine ⟨s', _, hblock, hs', hruns', hsheets, (play_parked _ _ _).trans hparked, ?_⟩
  refine (play_cursor _ _ _).trans ?_
  exact (congrArg (a.cursor + ·) hinstant).trans (add_zero a.cursor)

/-- Last the other steps aside. -/
lemma crossing_moves {s : Session ℝ} {a : Run ℝ} (hs : Follows (Session.start crossing o) s)
    (hruns : s.runs = [a, Run.start actorB]) :
    ∃ s' b, s.block (.actor ⟨"B", [.move stepEast]⟩) = .ok s' ∧ Follows s s' ∧
      s'.runs = [a, b] ∧ s'.sheets = s.sheets ∧ b.parked = none ∧ b.cursor = 1 ∧
      b.actor = actorB ∧ b.pose.location.y = 100 := by
  have hnames := hs.runNames_nodup (valid_of_issues_nil crossing_issues)
  have hrate : s.movie.fps = ⟨1⟩ := congrArg Movie.fps hs.movie_eq
  let r : Run ℝ := { Run.start actorB with nextIndex := 1 }
  let span := moveSpan r stepEast (Profile.constant 100 1) none
  let b : Run ℝ := { r.play ⟨1⟩ span with lane := none }
  have hobey : obey s 0 r (.move stepEast) = .ok (b, []) := by
    rw [stepEast_obey, hrate]
  obtain ⟨s', hblock, hs', hruns', hsheets⟩ :=
    block_command hnames (show s.runs = [a] ++ Run.start actorB :: [] from hruns) rfl hobey
  refine ⟨s', b, hblock, hs', hruns', hsheets, play_parked _ _ _, ?_, play_actor _ _ _, ?_⟩
  · refine (play_cursor _ _ _).trans ?_
    change (Run.start actorB).cursor + (Profile.constant (100 : ℝ) 1).duration = 1
    rw [stepEast_profile.1, show (Run.start actorB).cursor = 0 from zero_real, zero_add]
  · have hpose : b.pose = span.pose span.duration := play_pose (⟨1⟩ : FrameRate ℝ) span r
    have hduration : span.duration = 1 := stepEast_profile.1
    have hy : (span.pose 1).location.y = 0 +
        Real.sin (90 * (Real.pi / 180)) * (Profile.constant (100 : ℝ) 1).distanceAt 1 +
        Real.sin ((90 + 90) * (Real.pi / 180)) * (@OfNat.ofNat ℝ 0 Scalar.instOfNat) := rfl
    have hangle : (90 : ℝ) * (Real.pi / 180) = Real.pi / 2 := by ring
    rw [hpose, hduration, hy, stepEast_profile.2, zero_real, hangle, Real.sin_pi_div_two]
    norm_num

lemma crossing_played : ∃ s₁ s a b, (Session.start crossing o).block
      (.actor ⟨"A", [.stay ⟨.lasting (.seconds 1), none⟩]⟩) = .ok s₁ ∧
    Follows (Session.start crossing o) s₁ ∧ s₁.runs = [a, Run.start actorB] ∧
    a.actor = Actor.named "A" ∧ a.cursor = 1 ∧ a.pose.location = Vec3.zero ∧
    played o crossing = .ok (1, s) ∧ b ∈ s.runs ∧ s.sheets = [] ∧ b.actor = actorB ∧
    b.cursor = 1 ∧ b.pose.location.y = 100 := by
  have hv := valid_of_issues_nil crossing_issues
  obtain ⟨s₁, a, hfirst, hs₁, hruns₁, hsheets₁, hactor, hparked, hcursor, hplace⟩ :=
    crossing_waits (o := o)
  obtain ⟨s₂, a', hsecond, hs₂, hruns₂, hsheets₂, hparked₂, hcursor₂⟩ :=
    crossing_turns hs₁ hruns₁ hactor rfl hparked
  obtain ⟨s₃, b', hthird, hs₃, hruns₃, hsheets₃, hparked₃, hcursor₃, hother, hy⟩ :=
    crossing_moves (hs₁.trans hs₂) hruns₂
  have hfollows := (hs₁.trans hs₂).trans hs₃
  have hwalk : walk o crossing = .ok s₃ :=
    bind_eq_ok.mpr ⟨s₁, hfirst, bind_eq_ok.mpr ⟨s₂, hsecond, bind_eq_ok.mpr ⟨s₃, hthird, rfl⟩⟩⟩
  have hsheets : s₃.sheets = [] := hsheets₃.trans (hsheets₂.trans hsheets₁)
  have hextent : s₃.extent = 1 := by
    have hframe : crossing.fps.frameAt 1 = 1 := by
      exact_mod_cast frameAt_natCast (show crossing.fps.fps = 1 from rfl) 1
    rw [extent_eq hv hfollows, hruns₃, hsheets]
    simp [hcursor₂, hcursor, hcursor₃, hframe]
  have hfree : ∀ r ∈ s₃.runs, r.parked = none := by
    rw [hruns₃]
    exact List.forall_mem_cons.mpr ⟨hparked₂, List.forall_mem_singleton.mpr hparked₃⟩
  obtain ⟨s, hplayed, hruns, hkept⟩ := played_of_walk hv hwalk rfl hfree
  rw [hextent] at hplayed
  refine ⟨s₁, s, a, b', hfirst, hs₁, hruns₁, hactor, hcursor, hplace, hplayed, ?_,
    hkept.trans hsheets, hother, hcursor₃, hy⟩
  rw [hruns, hruns₃]
  exact List.mem_cons_of_mem a' (List.mem_singleton_self b')

lemma crossing_plan : ∃ reel, crossing.plan o = .ok reel ∧ reel.lastFrame = 1 := by
  obtain ⟨s₁, s, a, b, -, -, -, -, -, -, hplayed, -, hsheets, -⟩ := crossing_played (o := o)
  apply exists_plan crossing_issues hplayed
  intro c hc
  rw [hsheets] at hc
  exact absurd hc List.not_mem_nil

lemma crossing_steps : scriptSteps crossing =
    [.call "A", .command "A" (.stay ⟨.lasting (.seconds 1), none⟩), .call "A"] ++
      .command "A" (.face towardB) :: [.call "B", .command "B" (.move stepEast)] := rfl

theorem crossing_turns_to_planned_place :
    ∃ reel, crossing.plan Settings.standard.options = .ok reel ∧
      ∃ st st' s a turned b final,
        [.call "A", .command "A" (.stay ⟨.lasting (.seconds 1), none⟩), .call "A"].foldlM perform
          ⟨Session.start crossing Settings.standard.options, 0⟩ = .ok st ∧
        perform st (.command "A" (.face towardB)) = .ok st' ∧
        played Settings.standard.options crossing = .ok (reel.lastFrame, s) ∧
        st.session.run "A" = .ok a ∧ st'.session.run "A" = .ok turned ∧
        st.session.run "B" = .ok b ∧ s.run "B" = .ok final ∧
        (reel.actor? "B").map ActorReel.transform = some final.transform ∧
        TurnsToward crossing.fps towardB a turned b final := by
  obtain ⟨reel, hplan, -⟩ := crossing_plan (o := Settings.standard.options)
  exact ⟨reel, hplan, turn_leads_to_planned_place hplan crossing_steps rfl⟩

lemma crossing_stage {s : Session ℝ} {a : Run ℝ} (h : (Session.start crossing o).block
      (.actor ⟨"A", [.stay ⟨.lasting (.seconds 1), none⟩]⟩) = .ok s) (hA : s.run "A" = .ok a) :
    [.call "A", .command "A" (.stay ⟨.lasting (.seconds 1), none⟩), .call "A"].foldlM perform
      ⟨Session.start crossing o, 0⟩ = .ok ⟨s, 0⟩ := by
  let q : ActorSequence ℝ := ⟨"A", [.stay ⟨.lasting (.seconds 1), none⟩]⟩
  have hsequence := actorSteps_eq q (Session.start crossing o) 0
  have hdone : (Session.start crossing o).actorSequence q = .ok s := h
  rw [hdone] at hsequence
  change (actorSteps q ++ [Step.call "A"]).foldlM perform _ = _
  rw [List.foldlM_append, hsequence]
  have hcall : perform ⟨s, 0⟩ (.call "A") = .ok ⟨s, 0⟩ := bind_eq_ok.mpr ⟨a, hA, rfl⟩
  exact bind_eq_ok.mpr ⟨⟨s, 0⟩, rfl, bind_eq_ok.mpr ⟨⟨s, 0⟩, hcall, rfl⟩⟩

/-- When the actor turns, the other is planned to be where it stands at the start. -/
lemma crossing_faceYaw {s : Session ℝ} {a : Run ℝ} (hs : Follows (Session.start crossing o) s)
    (hB : s.run "B" = .ok (Run.start actorB)) (hplace : a.pose.location = Vec3.zero) :
    s.faceYaw a towardB.target = .ok (some 0) := by
  have hthen : (Run.start actorB).locationAt (s.movie.fps.frameAt a.cursor) = ⟨100, 0, 0⟩ := by
    rw [hs.movie_eq]
    have hstart : OnTime crossing.fps (Run.start actorB) := onTime_start actorB
    apply locationAt_past hstart
    rw [show (Run.start actorB).cursor = 0 from zero_real, frameAt_zero]
    exact Nat.zero_le _
  have hfar : ¬((⟨100, 0, 0⟩ : Vec3 ℝ) - a.pose.location).horizontalLength < 1e-6 := by
    have hlong := (abs_le_horizontalLength ⟨100, 0, 0⟩).1
    rw [abs_of_pos (by norm_num)] at hlong
    rw [hplace, sub_origin]
    linarith
  have hyaw := yawToward?_of_far hthen hfar
  rw [hplace, sub_origin, (yaw_eq_zero_iff ⟨100, 0, 0⟩).mpr ⟨by norm_num, rfl⟩] at hyaw
  exact bind_eq_ok.mpr ⟨_, hB, congrArg Except.ok hyaw⟩

/-- In the finished plan the other has stepped aside by the frame of the turn. -/
lemma crossing_final {reel : Reel ℝ} (h : crossing.plan o = .ok reel) {s : Session ℝ} {b : Run ℝ}
    (hplayed : played o crossing = .ok (reel.lastFrame, s)) (hb : b ∈ s.runs)
    (hother : b.actor = actorB) (hy : b.pose.location.y = 100) :
    ∃ t, (reel.actor? "B").bind (·.transform.sample (crossing.fps.frameAt b.cursor)) = some t ∧
      t.location.y = 100 := by
  have hfollows := played_follows (valid_of_issues_nil crossing_issues) hplayed
  have hnames := hfollows.runNames_nodup (valid_of_issues_nil crossing_issues)
  obtain ⟨t, ht, hlocation⟩ :=
    sample_cursor (hfollows.onTime (valid_of_issues_nil crossing_issues) hb)
  refine ⟨t, ?_, by rw [hlocation, hy]⟩
  obtain ⟨s', hplayed', hshows⟩ := plan_ok h
  rw [hplayed] at hplayed'
  cases hplayed'
  have htrack := reel_actor? hshows hnames hb
  rw [hother] at htrack
  change (reel.actor? actorB.name).bind _ = _
  rw [htrack]
  exact ht

/-- The other has stepped aside at the frame of the turn, which leads to where it stood before. -/
theorem crossing_turns_past_final_place :
    ∃ reel st a t yaw, crossing.plan Settings.standard.options = .ok reel ∧
      [.call "A", .command "A" (.stay ⟨.lasting (.seconds 1), none⟩), .call "A"].foldlM perform
        ⟨Session.start crossing Settings.standard.options, 0⟩ = .ok st ∧
      st.session.run "A" = .ok a ∧
      (reel.actor? "B").bind (·.transform.sample (crossing.fps.frameAt a.cursor)) = some t ∧
      1e-6 ≤ (t.location - a.pose.location).horizontalLength ∧
      st.session.faceYaw a towardB.target = .ok (some yaw) ∧
      yaw ≠ (t.location - a.pose.location).yaw := by
  obtain ⟨reel, hplan, hend⟩ := crossing_plan (o := Settings.standard.options)
  obtain ⟨s₁, s, a, b, hfirst, hs₁, hruns₁, hactor, hcursor, hplace, hplayed, hb, -, hother,
    hcursorB, hy⟩ := crossing_played (o := Settings.standard.options)
  have hnames := hs₁.runNames_nodup (valid_of_issues_nil crossing_issues)
  have hA : s₁.run "A" = .ok a := by
    have hrun := run_of_mem hnames (show a ∈ s₁.runs by simp [hruns₁])
    rw [hactor] at hrun
    exact hrun
  have hB : s₁.run "B" = .ok (Run.start actorB) :=
    run_of_mem hnames (show Run.start actorB ∈ s₁.runs by simp [hruns₁])
  rw [← hend] at hplayed
  obtain ⟨t, ht, haside⟩ := crossing_final hplan hplayed hb hother hy
  rw [hcursorB, ← hcursor] at ht
  refine ⟨reel, ⟨s₁, 0⟩, a, t, 0, hplan, crossing_stage hfirst hA, hA, ht, ?_,
    crossing_faceYaw hs₁ hB hplace, ?_⟩
  · have hlong := (abs_le_horizontalLength t.location).2
    rw [haside, abs_of_pos (by norm_num)] at hlong
    rw [hplace, sub_origin]
    linarith
  · rw [hplace, sub_origin]
    intro hzero
    have hfront := ((yaw_eq_zero_iff t.location).mp hzero.symm).2
    rw [haside] at hfront
    norm_num at hfront

end Crossing

end Stagecraft.Proofs
