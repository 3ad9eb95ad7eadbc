import Stagecraft.Proofs.IndependentSteps
import Stagecraft.Proofs.LaneRuns
import Stagecraft.Proofs.TurnedYaws

/-!
# Joined moves

A command takes its actor on from where the one before it led. Travel has covered nothing at its
start, a turn or a stay leaves the actor in its place, and a drift begins at the offset the actor
has. Only where a move takes no time to speak of is all of its drift over at the start: the actor
leaps aside, by the whole of it.
-/

namespace Stagecraft.Proofs

section Starts

variable {place : Vec3 ℝ} {q : Span ℝ} {aside : ℝ}

lemma distance_self (v : Vec3 ℝ) : v.distance v = 0 := by
  have hlength : v.distance v =
      Real.sqrt ((v.x - v.x) * (v.x - v.x) + (v.y - v.y) * (v.y - v.y) +
        (v.z - v.z) * (v.z - v.z)) := rfl
  rw [hlength]
  simp

/-- A step to the side is as long as the offset it makes. -/
lemma distance_aside (v forward : Vec3 ℝ) (heading aside : ℝ) :
    v.distance (v + forward * (0 : ℝ) + yawVector heading * aside) = |aside| := by
  have hlength : v.distance (v + forward * (0 : ℝ) + yawVector heading * aside) =
      Real.sqrt (
        (v.x + forward.x * 0 + Real.cos (heading * (Real.pi / 180)) * aside - v.x) *
          (v.x + forward.x * 0 + Real.cos (heading * (Real.pi / 180)) * aside - v.x) +
        (v.y + forward.y * 0 + Real.sin (heading * (Real.pi / 180)) * aside - v.y) *
          (v.y + forward.y * 0 + Real.sin (heading * (Real.pi / 180)) * aside - v.y) +
        (v.z + forward.z * 0 + (@OfNat.ofNat ℝ 0 Scalar.instOfNat) * aside - v.z) *
          (v.z + forward.z * 0 + (@OfNat.ofNat ℝ 0 Scalar.instOfNat) * aside - v.z)) := rfl
  have hunit := Real.cos_sq_add_sin_sq (heading * (Real.pi / 180))
  rw [hlength, zero_real, ← Real.sqrt_sq_eq_abs]
  congr 1
  linear_combination aside ^ 2 * hunit

lemma aside_eq_iff {v forward : Vec3 ℝ} {heading aside : ℝ} :
    v + forward * (0 : ℝ) + yawVector heading * aside = v ↔ aside = 0 := by
  constructor
  · intro h
    have hlength := distance_aside v forward heading aside
    rwa [h, distance_self, eq_comm, abs_eq_zero] at hlength
  · rintro rfl
    have hsum (x y z : ℝ) : x + y * 0 + z * 0 = x := by ring
    exact congr (congrArg₂ Vec3.mk (hsum _ _ _) (hsum _ _ _)) (hsum _ _ _)

/-- The drift of a move, from its start to its end. -/
noncomputable def driftLength (drift : Option (Drift ℝ)) : ℝ :=
  drift.elim 0 fun d => d.finish - d.start

/-- How far aside of its actor a command leads: into the corridor of a move. -/
noncomputable def sidestep (anchor : Anchor) (r : Run ℝ) : Command ℝ → ℝ
  | .move c =>
    match c.corridor with
    | some corridor =>
      match r.enter anchor (c.direction.heading r.pose.yaw c.directionOffset) corridor with
      | .ok (drift, _) => driftLength (some drift)
      | .error _ => 0
    | none => 0
  | _ => 0

/-- A move has covered nothing at its start, and has drifted only when it is over at once. -/
lemma movePose_start {p : Profile ℝ} (h : Built p) (start : Pose ℝ) (heading : ℝ)
    (drift : Option (Drift ℝ)) : (Run.movePose start heading p drift 0).location =
      start.location + yawVector heading * (0 : ℝ) +
        yawVector (heading + 90) * (if 1e-9 < p.duration then 0 else driftLength drift) := by
  cases drift with
  | none =>
    have hpose : (Run.movePose start heading p none 0).location =
        start.location + yawVector heading * p.distanceAt 0 +
          yawVector (heading + 90) * (@OfNat.ofNat ℝ 0 Scalar.instOfNat) := rfl
    have hnone : driftLength none = 0 := rfl
    rw [hpose, h.distanceAt_zero, zero_real, hnone, ite_self]
  | some d =>
    have hpose : (Run.movePose start heading p (some d) 0).location =
        start.location + yawVector heading * p.distanceAt 0 +
          yawVector (heading + 90) * (d.offsetAt (Span.fraction p.duration 0) - d.start) := rfl
    rw [hpose, h.distanceAt_zero]
    by_cases hlong : 1e-9 < p.duration
    · rw [if_pos hlong, fraction_start hlong, offsetAt_zero, sub_self]
    · have hover : Span.fraction p.duration 0 = 1 := (if_neg hlong).trans one_real
      rw [if_neg hlong, hover, offsetAt_one]
      rfl

/-- How a span that leads aside by some length joins on to a place. -/
structure JoinsAt (aside : ℝ) (place : Vec3 ℝ) (q : Span ℝ) : Prop where
  begins_iff : (q.pose 0).location = place ↔ 1e-9 < q.duration ∨ aside = 0
  leaps : q.duration ≤ 1e-9 → place.distance (q.pose 0).location = |aside|
  stays_iff : q.duration = 0 → ((q.pose q.duration).location = place ↔ aside = 0)

lemma joinsAt_still (h : ∀ t, (q.pose t).location = place) : JoinsAt 0 place q where
  begins_iff := iff_of_true (h 0) (Or.inr rfl)
  leaps _ := by rw [h, distance_self, abs_zero]
  stays_iff _ := iff_of_true (h q.duration) rfl

/-- A span that begins aside of a place, unless it lasts. -/
lemma joinsAt_aside {forward : Vec3 ℝ} {heading : ℝ}
    (h : (q.pose 0).location = place + forward * (0 : ℝ) +
      yawVector heading * (if 1e-9 < q.duration then 0 else aside)) : JoinsAt aside place q := by
  by_cases hlong : 1e-9 < q.duration
  · rw [if_pos hlong] at h
    refine ⟨iff_of_true (h.trans (aside_eq_iff.mpr rfl)) (Or.inl hlong), fun hshort => ?_,
      fun hnone => ?_⟩
    · exact absurd hlong (not_lt.mpr hshort)
    · rw [hnone] at hlong
      norm_num at hlong
  · rw [if_neg hlong] at h
    refine ⟨?_, fun _ => ?_, fun hnone => ?_⟩
    · rw [h, aside_eq_iff, or_iff_right hlong]
    · rw [h, distance_aside]
    · rw [hnone, h, aside_eq_iff]

end Starts

section Obeying

variable {s : Session ℝ} {r r' final : Run ℝ} {rate : FrameRate ℝ} {anchor : Anchor} {index : ℕ}
  {findings : List (Finding ℝ)}

/-- The drift of a move is that of the corridor it enters. -/
lemma move_ok_drift {c : MoveCommand ℝ} (h : r.move rate anchor index c = .ok (r', findings)) :
    ∃ motion drift lane, c.motion.resolve = .ok motion ∧
      r' = { r.play rate (moveSpan r c motion.profile drift) with lane := lane } ∧
      driftLength drift = sidestep anchor r (.move c) := by
  unfold Run.move at h
  obtain ⟨motion, hmotion, h⟩ := bind_eq_ok.mp h
  cases hc : c.corridor with
  | none =>
    simp only [hc] at h
    cases h
    refine ⟨motion, none, none, mapError_ok.mp hmotion, rfl, ?_⟩
    simp only [sidestep, hc]
    rfl
  | some corridor =>
    simp only [hc] at h
    obtain ⟨⟨drift, lane, found⟩, henter, h⟩ := bind_eq_ok.mp h
    cases h
    refine ⟨motion, some drift, some _, mapError_ok.mp hmotion, rfl, ?_⟩
    simp only [sidestep, hc, henter]

/-- How an actor goes on with a command other than travel along a curve: from its run before the
command to the one after it, and the one when all is played. -/
inductive GoesOn (anchor : Anchor) (r r' final : Run ℝ) (c : Command ℝ) : Prop
  | plays (q : Span ℝ) (hstart : q.start = r.cursor) (hspans : r'.spans = q :: r.spans)
    (hpose : r'.pose = q.pose q.duration) (hjoins : JoinsAt (sidestep anchor r c) r.pose.location q)
  | passes {moment : TimeSpan ℝ} {clip : Option (Clip ℝ)} (hc : c = .stay ⟨.waiting moment, clip⟩)
    (hpast : moment.internal ≤ r.cursor + 1e-9) (hspans : r'.spans = r.spans)
    (hpose : r'.pose = r.pose)
  | parks {clip : Option (Clip ℝ)} (hc : c = .stay ⟨.tillEnd, clip⟩) (q : Span ℝ)
    (earlier : List (Span ℝ)) (hspans : final.spans = q :: earlier)
    (hpose : final.pose = q.pose q.duration)
    (hjoins : JoinsAt (sidestep anchor r c) r.pose.location q)

lemma move_goesOn {c : MoveCommand ℝ} (h : r.move rate anchor index c = .ok (r', findings)) :
    GoesOn anchor r r' final (.move c) := by
  obtain ⟨motion, drift, lane, hmotion, rfl, hdrift⟩ := move_ok_drift h
  have hbuilt : Built motion.profile := resolve_built _ _ hmotion
  refine .plays (moveSpan r c motion.profile drift) rfl (play_spans _ _ _) ?_ ?_
  · exact play_pose rate (moveSpan r c motion.profile drift) r
  · rw [← hdrift]
    exact joinsAt_aside (movePose_start hbuilt _ _ _)

lemma hold_goesOn {duration : ℝ} {clip : Option (Clip ℝ)} {c : StayCommand ℝ} :
    GoesOn anchor r (r.hold rate duration clip) final (.stay c) :=
  .plays ⟨r.cursor, duration, fun _ => r.pose, clip⟩ rfl (play_spans _ _ _) (play_pose _ _ _)
    (joinsAt_still fun _ => rfl)

lemma holdUntil_pose (rate : FrameRate ℝ) (moment : ℝ) (clip : Option (Clip ℝ)) (r : Run ℝ) :
    (r.holdUntil rate moment clip).pose = r.pose := by
  unfold Run.holdUntil
  split
  · rfl
  · exact play_pose _ _ _

/-- It makes no difference that the command is counted first. -/
lemma goesOn_of_counted {c : Command ℝ} {n : ℕ}
    (h : GoesOn anchor { r with nextIndex := n } r' final c) : GoesOn anchor r r' final c := by
  have haside : sidestep anchor { r with nextIndex := n } c = sidestep anchor r c := by
    cases c with
    | move | face | stay | follow => rfl
  cases h with
  | plays q hstart hspans hpose hjoins => exact .plays q hstart hspans hpose (haside ▸ hjoins)
  | passes hc hpast hspans hpose => exact .passes hc hpast hspans hpose
  | parks hc q earlier hspans hpose hjoins =>
    exact .parks hc q earlier hspans hpose (haside ▸ hjoins)

/-- A command goes on at once, unless it waits for the end. -/
lemma obey_goesOn (final : Run ℝ) {c : Command ℝ} (h : obey s index r c = .ok (r', findings))
    (hc : ∀ f, c ≠ .follow f) (hend : ∀ clip, c ≠ .stay ⟨.tillEnd, clip⟩) :
    GoesOn s.options.anchor r r' final c := by
  cases c with
  | follow f => exact absurd rfl (hc f)
  | move c => exact move_goesOn h
  | face c =>
    obtain ⟨yaw?, -, rfl⟩ := obey_face_ok h
    exact .plays _ rfl (play_spans _ _ _) (play_pose _ _ _) (joinsAt_still fun _ => rfl)
  | stay c =>
    cases h
    obtain ⟨length, clip⟩ := c
    cases length with
    | lasting span => exact hold_goesOn
    | tillEnd => exact absurd rfl (hend clip)
    | waiting moment =>
      change GoesOn _ r (r.holdUntil s.movie.fps moment.internal clip) _ _
      unfold Run.holdUntil
      split
      next hpast => exact .passes rfl hpast rfl rfl
      next => exact hold_goesOn

end Obeying

section Keeping

variable {m : Movie ℝ} {o : PlanOptions ℝ} {s s' : Session ℝ} {st st' : Stage ℝ} {name : String}
  {step : Step ℝ} {steps : List (Step ℝ)} {r : Run ℝ} {last : ℕ}

/-- The steps of others leave an actor where it is, and so does every step once it is parked. -/
lemma Performed.run_kept (h : Performed st step s') (hnames : (runNames st.session).Nodup)
    (hr : st.session.run name = .ok r)
    (hfree : (∀ c, step ≠ .command name c) ∨ r.parked ≠ none) :
    ∃ r', s'.run name = .ok r' ∧ r'.pose = r.pose ∧ r'.parked = r.parked := by
  obtain ⟨hmem, hname⟩ := run_ok hr
  cases h with
  | gather => exact ⟨r, hr, rfl, rfl⟩
  | call actor => exact ⟨r, hr, rfl, rfl⟩
  | joinCamera hc => exact ⟨r, hr, rfl, rfl⟩
  | cues hc hcamera => exact ⟨r, hr, rfl, rfl⟩
  | @joinActor q hq =>
    have hactor := (holdUntil_kept st.session.movie.fps st.groupStart none q).1
    by_cases hqname : q.actor.name = name
    · obtain rfl := eq_of_name_eq hnames hmem hq (hqname.trans hname.symm)
      subst hname
      exact ⟨_, run_setRun hnames hmem (congrArg Actor.name hactor), holdUntil_pose _ _ _ _,
        holdUntil_parked _ _ _ _⟩
    · exact ⟨r, (run_setRun_of_ne (by rw [hactor]; exact hqname)).trans hr, rfl, rfl⟩
  | @command q q' c findings hq hparked hobey =>
    by_cases hqname : q.actor.name = name
    · obtain rfl := eq_of_name_eq hnames hmem hq (hqname.trans hname.symm)
      subst hname
      rcases hfree with hother | hstop
      · exact absurd rfl (hother c)
      · exact absurd hparked hstop
    · have hactor := (obey_kept hobey).1
      exact ⟨r, (run_setRun_of_ne (by rw [hactor]; exact hqname)).trans hr, rfl, rfl⟩

lemma steps_run_kept (hv : Valid m) (hst : Follows (Session.start m o) st.session)
    (h : steps.foldlM perform st = .ok st') (hr : st.session.run name = .ok r)
    (hfree : commandsIn name steps = [] ∨ r.parked ≠ none) :
    ∃ r', st'.session.run name = .ok r' ∧ r'.pose = r.pose ∧ r'.parked = r.parked := by
  let P : List (Step ℝ) → Stage ℝ → Prop := fun front t =>
    Follows (Session.start m o) t.session ∧ (commandsIn name front = [] ∨ r.parked ≠ none →
      ∃ r', t.session.run name = .ok r' ∧ r'.pose = r.pose ∧ r'.parked = r.parked)
  have hround : ∀ front step t t', P front t → perform t step = .ok t' →
      P (front ++ [step]) t' := by
    rintro front step t t' ⟨ht, hkept⟩ hstep
    have hperformed := perform_ok hstep
    refine ⟨ht.trans (hperformed.follows hv ht), fun hfree => ?_⟩
    have hfront : commandsIn name front = [] ∨ r.parked ≠ none := by
      rw [commandsIn_append, List.append_eq_nil_iff] at hfree
      exact hfree.imp_left And.left
    obtain ⟨q, hq, hpose, hparked⟩ := hkept hfront
    have hother : (∀ c, step ≠ .command name c) ∨ q.parked ≠ none := by
      rw [hparked]
      refine hfree.imp_left fun hnone c hc => ?_
      rw [hc, commandsIn_command] at hnone
      exact List.append_ne_nil_of_right_ne_nil _ (List.cons_ne_nil _ _) hnone
    obtain ⟨q', hq', hpose', hparked'⟩ := hperformed.run_kept (ht.runNames_nodup hv) hq hother
    exact ⟨q', hq', hpose'.trans hpose, hparked'.trans hparked⟩
  exact (foldlM_induction (P := P) ⟨hst, fun _ => ⟨r, hr, rfl, rfl⟩⟩ hround h).2 hfree

/-- A stay to the end is played last, where the actor is parked. -/
lemma played_parked (hv : Valid m) (h : played o m = .ok (last, s)) {rest : List (Step ℝ)}
    (hsteps : scriptSteps m = steps ++ rest)
    (hst : steps.foldlM perform ⟨Session.start m o, 0⟩ = .ok st)
    (hr : st.session.run name = .ok r) {p : Parked ℝ} (hparked : r.parked = some p) :
    ∃ final q earlier, s.run name = .ok final ∧ final.spans = q :: earlier ∧
      final.pose = q.pose q.duration ∧ ∀ t, q.pose t = r.pose := by
  have hstop : r.parked ≠ none := by
    rw [hparked]
    exact Option.some_ne_none p
  obtain ⟨s₀, hwalk, hruns, -⟩ := played_runs hv h
  obtain ⟨t, hwalked⟩ := walk_ok 0 hwalk
  rw [hsteps, List.foldlM_append] at hwalked
  obtain ⟨st', hst', hrest⟩ := bind_eq_ok.mp hwalked
  rw [hst] at hst'
  cases hst'
  obtain ⟨q, hq, hpose, hq'⟩ :=
    steps_run_kept hv (steps_follow hv (.refl _) hst) hrest hr (Or.inr hstop)
  obtain ⟨hmem, hname⟩ := run_ok hq
  have hfinal : (q.finish m.fps last).1 ∈ s.runs := by
    rw [hruns]
    exact List.mem_map_of_mem hmem
  have hrun := run_of_mem ((played_follows hv h).runNames_nodup hv) hfinal
  rw [finish_actor, hname] at hrun
  rw [finish_some (hq'.trans hparked)] at hrun
  exact ⟨_, _, _, hrun, play_spans _ _ _, play_pose _ _ _, fun t => hpose⟩

/-- A run of an actor at a step of the script. It is where the last command before led: it has kept
its pose since any stage after which it was told nothing, and first it is where it was declared. -/
structure LeftOff (m : Movie ℝ) (o : PlanOptions ℝ) (before : List (Step ℝ)) (name : String)
    (r : Run ℝ) : Prop where
  chained : Chained r.actor (commandsIn name before) r.spans r.cursor r.pose
  declared : commandsIn name before = [] → r.pose.location = r.actor.location
  kept : ∀ front rest st r₀, before = front ++ rest → commandsIn name rest = [] →
    front.foldlM perform ⟨Session.start m o, 0⟩ = .ok st → st.session.run name = .ok r₀ →
    r.pose = r₀.pose

lemma declared_of_chained {a : Actor ℝ} {commands : List (Command ℝ)} {spans : List (Span ℝ)}
    {cursor : ℝ} {pose : Pose ℝ} (h : Chained a commands spans cursor pose)
    (hnone : commands = []) : pose.location = a.location := by
  induction h with
  | declared => rfl
  | wait _ _ _ ih => exact ih hnone
  | obey | past | park => simp at hnone

lemma leftOff_of_steps (hv : Valid m) (h : steps.foldlM perform ⟨Session.start m o, 0⟩ = .ok st)
    (hr : st.session.run name = .ok r) : LeftOff m o steps name r := by
  obtain ⟨hmem, hname⟩ := run_ok hr
  have hchained : RunChained (commandsIn r.actor.name steps) r :=
    chained_invariant.steps_runs h r hmem
  rw [hname] at hchained
  refine ⟨hchained, declared_of_chained hchained, ?_⟩
  rintro front rest st₀ r₀ rfl hnone hst₀ hr₀
  rw [List.foldlM_append] at h
  obtain ⟨st₁, hst₁, hrest⟩ := bind_eq_ok.mp h
  rw [hst₀] at hst₁
  cases hst₁
  obtain ⟨q, hq, hpose, -⟩ :=
    steps_run_kept hv (steps_follow hv (.refl _) hst₀) hrest hr₀ (Or.inl hnone)
  rw [hr] at hq
  cases hq
  exact hpose

end Keeping

section Plans

variable {m : Movie ℝ} {o : PlanOptions ℝ} {reel : Reel ℝ}

/-- Every command of a planned movie but travel along a curve goes on from the place where the one
before it led, unless it is a move that is over at once and enters another corridor. -/
theorem plan_commands_join (h : m.plan o = .ok reel) {before after : List (Step ℝ)}
    {name : String} {c : Command ℝ} (hsteps : scriptSteps m = before ++ .command name c :: after)
    (hc : ∀ f, c ≠ .follow f) :
    ∃ st st' s r r' final, before.foldlM perform ⟨Session.start m o, 0⟩ = .ok st ∧
      perform st (.command name c) = .ok st' ∧ played o m = .ok (reel.lastFrame, s) ∧
      st.session.run name = .ok r ∧ st'.session.run name = .ok r' ∧ s.run name = .ok final ∧
      LeftOff m o before name r ∧ GoesOn o.anchor r r' final c := by
  have hv := valid_of_issues_nil (issues_nil_of_plan h)
  obtain ⟨st, st', s, hbefore, hstep, hplayed, -, hst, hst', hend⟩ := plan_split h hsteps
  obtain ⟨s', hcommand, hdone⟩ := bind_eq_ok.mp hstep
  obtain ⟨r, r', findings, hr, hparked, hobey, rfl⟩ := command_ok hcommand
  cases hdone
  obtain ⟨hmem, rfl⟩ := run_ok hr
  have hrun' := run_setRun (hst.runNames_nodup hv) hmem (congrArg Actor.name (obey_kept hobey).1)
  have hanchor : st.session.options.anchor = o.anchor :=
    congrArg PlanOptions.anchor hst.options_eq
  have hleft := leftOff_of_steps hv hbefore hr
  by_cases hend? : ∃ clip, c = .stay ⟨.tillEnd, clip⟩
  · obtain ⟨clip, rfl⟩ := hend?
    have hfront : (before ++ [Step.command r.actor.name (.stay ⟨.tillEnd, clip⟩)]).foldlM perform
        ⟨Session.start m o, 0⟩ = .ok _ := foldlM_split_ok.mpr ⟨st, _, hbefore, hstep, rfl⟩
    have hscript : scriptSteps m =
        (before ++ [Step.command r.actor.name (.stay ⟨.tillEnd, clip⟩)]) ++ after := by
      rw [hsteps, List.append_assoc]
      rfl
    cases hobey
    obtain ⟨final, q, earlier, hfinal, hspans, hpose, hstill⟩ :=
      played_parked hv hplayed hscript hfront hrun' rfl
    exact ⟨st, _, s, r, _, final, hbefore, hstep, hplayed, hr, hrun', hfinal, hleft,
      .parks rfl q earlier hspans hpose (joinsAt_still fun t => congrArg Pose.location (hstill t))⟩
  · have hmem' := (run_ok hrun').1
    obtain ⟨final, hfinal, hadvance⟩ := mem_of_forall₂_left hend.runs_advance hmem'
    have hrun := run_of_mem ((hst.trans (hst'.trans hend)).runNames_nodup hv) hfinal
    rw [hadvance.actor_eq, (obey_kept hobey).1] at hrun
    have hgoes := obey_goesOn final hobey hc fun clip hclip => hend? ⟨clip, hclip⟩
    rw [hanchor] at hgoes
    exact ⟨st, _, s, r, r', final, hbefore, hstep, hplayed, hr, hrun', hrun, hleft,
      goesOn_of_counted hgoes⟩

end Plans

section Swerving

variable {o : PlanOptions ℝ}

/-- A move that covers no distance, in a corridor. -/
noncomputable def sidle (left right seconds : ℝ) : MoveCommand ℝ where
  direction := .north
  directionOffset := none
  motion := { duration := some (.seconds seconds) }
  corridor := some (slot left right)
  animation := none

/-- An actor is in a corridor for a second, and then at once in another. -/
noncomputable def swerve : Movie ℝ :=
  { Movie.empty "swerve" 1 with
    actors := [Actor.named "A"]
    script := [.actor ⟨"A", [.move (sidle 0 122 1)]⟩, .actor ⟨"A", [.move (sidle 610 732 0)]⟩] }

lemma swerve_issues : swerve.issues = [] := by
  have hsolo : swerve = solo "swerve" [.move (sidle 0 122 1), .move (sidle 610 732 0)] := rfl
  rw [hsolo]
  apply solo_issues
  simp only [List.forall_mem_cons]
  exact ⟨⟨fun _ _ => rfl, rfl⟩, ⟨fun _ _ => rfl, rfl⟩, fun _ hc => absurd hc List.not_mem_nil⟩

lemma sidle_resolve (left right : ℝ) {seconds : ℝ} (h : 0 ≤ seconds) :
    (sidle left right seconds).motion.resolve = .ok ⟨Profile.stationary seconds, []⟩ := by
  have hpast : ¬seconds < 0 := not_lt.mpr h
  simp only [MotionSpec.resolve, sidle]
  simp [seconds_real, MotionSpec.solve, if_neg hpast]
  rfl

/-- An actor enters a corridor by the drift from the lane it keeps. -/
lemma enter_of_into {r : Run ℝ} {anchor : Anchor} {heading radius : ℝ} {corridor : Corridor ℝ}
    {previous : Option (Lane ℝ)} {drift : Drift ℝ} (hradius : r.actor.radius.internal = radius)
    (hlane : (r.lane.filter fun l => Scalar.abs (shortestYaw l.1 heading) < 1e-6).map (·.2) =
      previous)
    (hinto : Drift.into? previous (fitted radius corridor) radius anchor = some drift) :
    ∃ found, r.enter anchor heading corridor =
      .ok (drift, drift.lane (fitted radius corridor), found) := by
  subst hlane hradius
  unfold fitted at hinto
  unfold Run.enter
  dsimp only
  rw [hinto]
  exact ⟨_, rfl⟩

/-- A move into a corridor leads the actor by the drift. -/
lemma swerve_moves {s : Session ℝ} {a : Run ℝ} (h : Alone swerve o s a)
    {left right seconds : ℝ} (hseconds : 0 ≤ seconds) {drift : Drift ℝ} {lane : Lane ℝ}
    {found : List (Finding ℝ)}
    (henter : a.enter s.options.anchor (Direction.north.heading a.pose.yaw none)
      (slot left right) = .ok (drift, lane, found)) :
    ∃ s' a' q, s.block (.actor ⟨"A", [.move (sidle left right seconds)]⟩) = .ok s' ∧
      Alone swerve o s' a' ∧ a'.cursor = a.cursor + seconds ∧
      a'.lane = some (Direction.north.heading a.pose.yaw none, lane) ∧
      a'.spans = q :: a.spans ∧ q.duration = seconds ∧ a'.pose = q.pose q.duration ∧
      a'.pose.location.y = a.pose.location.y + (drift.finish - drift.start) := by
  have hprofile : (Profile.stationary seconds).duration = seconds ∧
      (Profile.stationary seconds).distanceAt seconds = 0 := by
    rw [stationary_of_nonneg hseconds]
    unfold Profile.distanceAt
    simp
  let a₀ : Run ℝ := { a with nextIndex := a.nextIndex + 1 }
  let q := moveSpan a₀ (sidle left right seconds) (Profile.stationary seconds) (some drift)
  let a' : Run ℝ := { a₀.play s.movie.fps q with
    lane := some (Direction.north.heading a.pose.yaw none, lane) }
  have hobey : obey s a.nextIndex a₀ (.move (sidle left right seconds)) = .ok (a', found) := by
    change Run.move s.movie.fps s.options.anchor a.nextIndex (sidle left right seconds) a₀ = _
    unfold Run.move
    rw [sidle_resolve left right hseconds]
    exact bind_eq_ok.mpr ⟨⟨Profile.stationary seconds, []⟩, rfl,
      bind_eq_ok.mpr ⟨(drift, lane, found), henter, rfl⟩⟩
  obtain ⟨s', hblock, h'⟩ := h.obey (valid_of_issues_nil swerve_issues) hobey
    ((play_parked _ _ _).trans h.parked_eq)
  have hpose : a'.pose = q.pose q.duration := play_pose s.movie.fps q a₀
  have hduration : q.duration = seconds := hprofile.1
  refine ⟨s', a', q, hblock, h', ?_, rfl, play_spans _ _ _, hduration, hpose, ?_⟩
  · rw [← hduration]
    exact play_cursor s.movie.fps q a₀
  · have hy : (q.pose q.duration).location.y = a.pose.location.y +
        Real.sin ((@OfNat.ofNat ℝ 0 Scalar.instOfNat) * (Real.pi / 180)) *
          (Profile.stationary seconds).distanceAt q.duration +
        Real.sin (((@OfNat.ofNat ℝ 0 Scalar.instOfNat) + 90) * (Real.pi / 180)) *
          (drift.offsetAt (Span.fraction q.duration q.duration) - drift.start) := rfl
    have hright : (0 + 90 : ℝ) * (Real.pi / 180) = Real.pi / 2 := by ring
    rw [hpose, hy, fraction_end, offsetAt_one, hduration, hprofile.2, zero_real, hright,
      Real.sin_pi_div_two]
    ring

/-- The first corridor keeps the actor in its place, the second has it leap aside. -/
lemma swerve_walk (ho : o.anchor = .midpoint) : ∃ s₁ s a₁ a q,
    (Session.start swerve o).block (.actor ⟨"A", [.move (sidle 0 122 1)]⟩) = .ok s₁ ∧
    s₁.block (.actor ⟨"A", [.move (sidle 610 732 0)]⟩) = .ok s ∧ walk o swerve = .ok s ∧
    Alone swerve o s₁ a₁ ∧ Alone swerve o s a ∧ a.cursor = 1 ∧ a.spans = q :: a₁.spans ∧
    q.duration = 0 ∧ a.pose = q.pose 0 ∧ a₁.pose.location.y = 0 ∧ a.pose.location.y = 610 := by
  have hradius : (Actor.named "A" : Actor ℝ).radius.internal = 35 := by
    change (0.35 : ℝ) * 100 = 35
    norm_num
  have hfirst : fitted 35 (slot 0 122) = ⟨0, 122⟩ := fitted_slot (by norm_num) (by norm_num)
  have hnext : fitted 35 (slot 610 732) = ⟨610, 732⟩ := fitted_slot (by norm_num) (by norm_num)
  have hcursor : (Run.start (Actor.named "A") : Run ℝ).cursor = 0 := zero_real
  have hy : (Run.start (Actor.named "A") : Run ℝ).pose.location.y = 0 := zero_real
  have hmiddle : (⟨0, 122⟩ : Bounds ℝ).midpoint = 61 := by
    rw [midpoint_real]
    norm_num
  have hother : (⟨610, 732⟩ : Bounds ℝ).midpoint = 671 := by
    rw [midpoint_real]
    norm_num
  have hchanged : ¬(⟨0, 122⟩ : Bounds ℝ).sameAs ⟨610, 732⟩ = true := by
    rw [sameAs_real]
    norm_num [abs_of_neg]
  have hinto₁ : Drift.into? none (fitted 35 (slot 0 122)) 35 o.anchor = some ⟨61, 61⟩ := by
    rw [hfirst, Drift.into?, hmiddle]
  have hinto₂ : Drift.into? (some ⟨⟨0, 122⟩, 61⟩) (fitted 35 (slot 610 732)) 35 o.anchor =
      some ⟨61, 671⟩ := by
    rw [hnext, ho]
    simp only [Drift.into?, if_neg hchanged, hother]
  obtain ⟨found₁, henter₁⟩ : ∃ found, (Run.start (Actor.named "A")).enter o.anchor
      (Direction.north.heading (Run.start (Actor.named "A")).pose.yaw none) (slot 0 122) =
        .ok (⟨61, 61⟩, ⟨fitted 35 (slot 0 122), 61⟩, found) := enter_of_into hradius rfl hinto₁
  obtain ⟨s₁, a₁, q₁, hblock₁, h₁, hcursor₁, hlane₁, -, -, -, hy₁⟩ :=
    swerve_moves (o := o) ⟨.refl _, rfl, rfl, rfl, rfl⟩ zero_le_one henter₁
  have hoptions : s₁.options.anchor = o.anchor :=
    congrArg PlanOptions.anchor h₁.follows.options_eq
  have hsame : Scalar.abs (shortestYaw (Direction.north.heading
      (Run.start (Actor.named "A") : Run ℝ).pose.yaw none)
      (Direction.north.heading a₁.pose.yaw none)) < 1e-6 := by
    have hnone : shortestYaw (Direction.north.heading
        (Run.start (Actor.named "A") : Run ℝ).pose.yaw none)
        (Direction.north.heading a₁.pose.yaw none) = 0 :=
      shortestYaw_eq (by constructor <;> norm_num) 0 (by simp [Direction.heading,
        Direction.cardinalAngle?])
    rw [hnone, abs_real, abs_zero]
    norm_num
  obtain ⟨found₂, henter₂⟩ : ∃ found, a₁.enter s₁.options.anchor
      (Direction.north.heading a₁.pose.yaw none) (slot 610 732) =
        .ok (⟨61, 671⟩, ⟨fitted 35 (slot 610 732), 671⟩, found) := by
    rw [hoptions]
    refine enter_of_into (by rw [h₁.actor_eq, hradius]) ?_ hinto₂
    rw [hlane₁, hfirst]
    simp [Option.filter, hsame]
  obtain ⟨s₂, a₂, q, hblock₂, h₂, hcursor₂, -, hspans₂, hduration, hpose, hy₂⟩ :=
    swerve_moves h₁ le_rfl henter₂
  refine ⟨s₁, s₂, a₁, a₂, q, hblock₁, hblock₂, ?_, h₁, h₂, ?_, hspans₂, hduration,
    hduration ▸ hpose, ?_, ?_⟩
  · exact bind_eq_ok.mpr ⟨s₁, hblock₁, bind_eq_ok.mpr ⟨s₂, hblock₂, rfl⟩⟩
  · rw [hcursor₂, hcursor₁, hcursor]
    norm_num
  · rw [hy₁, hy]
    norm_num
  · rw [hy₂, hy₁, hy]
    norm_num

lemma swerve_steps : scriptSteps swerve =
    [.call "A", .command "A" (.move (sidle 0 122 1)), .call "A"] ++
      .command "A" (.move (sidle 610 732 0)) :: [] := rfl

theorem swerve_commands_join : ∃ reel, swerve.plan Settings.standard.options = .ok reel ∧
    ∃ st st' s r r' final,
      [.call "A", .command "A" (.move (sidle 0 122 1)), .call "A"].foldlM perform
        ⟨Session.start swerve Settings.standard.options, 0⟩ = .ok st ∧
      perform st (.command "A" (.move (sidle 610 732 0))) = .ok st' ∧
      played Settings.standard.options swerve = .ok (reel.lastFrame, s) ∧
      st.session.run "A" = .ok r ∧ st'.session.run "A" = .ok r' ∧ s.run "A" = .ok final ∧
      LeftOff swerve Settings.standard.options
        [.call "A", .command "A" (.move (sidle 0 122 1)), .call "A"] "A" r ∧
      GoesOn .midpoint r r' final (.move (sidle 610 732 0)) := by
  have hmidpoint : (Settings.standard.options : PlanOptions ℝ).anchor = .midpoint := rfl
  obtain ⟨s₁, s, a₁, a, q, -, -, hwalk, -, halone, -⟩ := swerve_walk hmidpoint
  obtain ⟨reel, s', hplan, -⟩ := halone.plan swerve_issues rfl hwalk
  have hmove : ∀ f, Command.move (sidle 610 732 0) ≠ .follow f := by
    intro f hf
    cases hf
  exact ⟨reel, hplan, plan_commands_join hplan swerve_steps hmove⟩

/-- The second move takes no time and leads the actor more than six meters aside. -/
theorem swerve_leaps : ∃ reel s₁ s₂ a₁ a₂ q, swerve.plan Settings.standard.options = .ok reel ∧
    (Session.start swerve Settings.standard.options).block
      (.actor ⟨"A", [.move (sidle 0 122 1)]⟩) = .ok s₁ ∧
    s₁.block (.actor ⟨"A", [.move (sidle 610 732 0)]⟩) = .ok s₂ ∧
    s₁.run "A" = .ok a₁ ∧ s₂.run "A" = .ok a₂ ∧ a₂.spans = q :: a₁.spans ∧ q.duration = 0 ∧
    (q.pose 0).location ≠ a₁.pose.location ∧ a₁.pose.location.y = 0 ∧
    ∃ a ∈ reel.actors, ∃ k, a.transform.keys[1]? = some k ∧ k.transform.location.y = 610 := by
  have hmidpoint : (Settings.standard.options : PlanOptions ℝ).anchor = .midpoint := rfl
  obtain ⟨s₁, s, a₁, a, q, hfirst, hsecond, hwalk, hbegun, halone, hcursor, hspans, hduration,
    hpose, hbefore, hafter⟩ := swerve_walk hmidpoint
  obtain ⟨reel, s', hplan, -, -, hreel⟩ := halone.plan swerve_issues rfl hwalk
  have hframe : swerve.fps.frameAt 1 = 1 := by
    exact_mod_cast frameAt_natCast (show swerve.fps.fps = 1 from rfl) 1
  have hlast := (halone.onTime (valid_of_issues_nil swerve_issues)).last_location
  rw [hcursor, hframe] at hlast
  obtain ⟨k, hk, hplace⟩ := Option.map_eq_some_iff.mp hlast
  refine ⟨reel, s₁, s, a₁, a, q, hplan, hfirst, hsecond, hbegun.run_eq, halone.run_eq, hspans,
    hduration, ?_, hbefore, _, hreel, k, hk, by rw [hplace, hafter]⟩
  rw [← hpose]
  intro hstill
  rw [hstill, hbefore] at hafter
  norm_num at hafter

end Swerving

end Stagecraft.Proofs
