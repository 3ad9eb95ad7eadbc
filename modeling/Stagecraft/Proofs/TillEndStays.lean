import Stagecraft.Proofs.PlannedMovies
import Stagecraft.Settings

/-!
# Stays to the end

A stay to the end is parked where its actor is, and played when the last frame is known: from the
cursor, for as long as is left from where it was parked. The two differ once a group has carried
the actor on in between, and then the track ends as much too late.
-/

namespace Stagecraft.Proofs

section Steps

variable {K : Type}

/-- The commands to an actor among some steps. -/
def commandsIn (name : String) (steps : List (Step K)) : List (Command K) :=
  steps.filterMap fun
    | .command actor c => if actor = name then some c else none
    | _ => none

/-- A sequence that begins after a stay to the end of its actor, in a group. -/
def JoinsAfterEnd (name : String) (steps : List (Step K)) : Prop :=
  ∃ front c rest, steps = front ++ .command name c :: rest ∧ c.isTillEnd = true ∧
    Step.joinActor name ∈ rest

variable {name : String} {front : List (Step K)} {step : Step K}

lemma commandsIn_append (steps steps' : List (Step K)) :
    commandsIn name (steps ++ steps') = commandsIn name steps ++ commandsIn name steps' :=
  List.filterMap_append

lemma commandsIn_command (c : Command K) :
    commandsIn name (front ++ [.command name c]) = commandsIn name front ++ [c] := by
  rw [commandsIn_append]
  simp [commandsIn]

lemma commandsIn_split (front after : List (Step K)) (c : Command K) :
    commandsIn name (front ++ .command name c :: after) =
      commandsIn name front ++ c :: commandsIn name after := by
  rw [commandsIn_append]
  simp [commandsIn]

lemma commandsIn_at (name : String) (front after : List (Step K)) (c : Command K) :
    (commandsIn name (front ++ .command name c :: after))[(commandsIn name front).length]? =
      some c := by
  rw [commandsIn_split, List.getElem?_append_right le_rfl, Nat.sub_self]
  rfl

/-- A command stands in the steps as far behind as it is numbered. -/
lemma exists_step_of_command {steps : List (Step K)} {index : ℕ} {c : Command K}
    (h : (commandsIn name steps)[index]? = some c) : ∃ front after,
      steps = front ++ .command name c :: after ∧ (commandsIn name front).length = index := by
  induction steps generalizing index with
  | nil => cases h
  | cons step steps ih =>
    have hcons : commandsIn name (step :: steps) =
        commandsIn name [step] ++ commandsIn name steps := commandsIn_append [step] steps
    rw [hcons] at h
    by_cases hindex : index < (commandsIn name [step]).length
    · rw [List.getElem?_append_left hindex] at h
      obtain ⟨s, hs, hsc⟩ := List.mem_filterMap.mp (List.mem_of_getElem? h)
      obtain rfl := List.mem_singleton.mp hs
      cases s with
      | command actor c' =>
        dsimp only at hsc
        split at hsc
        next hactor =>
          cases hsc
          subst hactor
          have hfirst : index = 0 := by simpa [commandsIn] using hindex
          exact ⟨[], steps, rfl, hfirst.symm⟩
        next => cases hsc
      | gather | joinActor | joinCamera | call | cues | nest => cases hsc
    · rw [List.getElem?_append_right (not_lt.mp hindex)] at h
      obtain ⟨front, after, rfl, hcount⟩ := ih h
      refine ⟨step :: front, after, rfl, ?_⟩
      have hfront : commandsIn name (step :: front) =
          commandsIn name [step] ++ commandsIn name front := commandsIn_append [step] front
      rw [hfront, List.length_append, hcount]
      omega

/-- Two places of one number are one place. -/
lemma steps_split_unique {front front' after after' : List (Step K)} {c c' : Command K}
    (h : front ++ .command name c :: after = front' ++ .command name c' :: after')
    (hcount : (commandsIn name front).length = (commandsIn name front').length) :
    front = front' ∧ c = c' ∧ after = after' := by
  have hlonger (early : List (Step K)) (c : Command K) (rest : List (Step K)) :
      (commandsIn name (early ++ .command name c :: rest)).length ≠
        (commandsIn name early).length := by
    rw [commandsIn_split, List.length_append, List.length_cons]
    omega
  rcases List.append_eq_append_iff.mp h with ⟨between, hfront, hrest⟩ | ⟨between, hfront, hrest⟩
  · cases between with
    | nil =>
      rw [List.append_nil] at hfront
      cases hrest
      exact ⟨hfront.symm, rfl, rfl⟩
    | cons step between =>
      cases hrest
      rw [hfront] at hcount
      exact absurd hcount.symm (hlonger front c between)
  · cases between with
    | nil =>
      rw [List.append_nil] at hfront
      cases hrest
      exact ⟨hfront, rfl, rfl⟩
    | cons step between =>
      cases hrest
      rw [hfront] at hcount
      exact absurd hcount (hlonger front' c' between)

lemma commandsIn_other (h : ∀ c, step ≠ .command name c) :
    commandsIn name (front ++ [step]) = commandsIn name front := by
  have hnil : commandsIn name [step] = [] := by
    cases step with
    | command actor c =>
      have hne : actor ≠ name := by
        rintro rfl
        exact h c rfl
      simp [commandsIn, hne]
    | gather | joinActor | joinCamera | call | cues | nest => rfl
  rw [commandsIn_append, hnil, List.append_nil]

lemma JoinsAfterEnd.append (h : JoinsAfterEnd name front) (step : Step K) :
    JoinsAfterEnd name (front ++ [step]) := by
  obtain ⟨before, c, rest, rfl, hc, hjoin⟩ := h
  exact ⟨before, c, rest ++ [step], by simp, hc, List.mem_append_left _ hjoin⟩

lemma joinsAfterEnd_join {c : Command K} (hc : c ∈ commandsIn name front)
    (hend : c.isTillEnd = true) : JoinsAfterEnd name (front ++ [.joinActor name]) := by
  obtain ⟨s, hs, hsc⟩ := List.mem_filterMap.mp hc
  cases s with
  | command actor c' =>
    by_cases hactor : actor = name
    · subst hactor
      simp only [if_true, Option.some.injEq] at hsc
      subst hsc
      obtain ⟨before, rest, rfl⟩ := List.append_of_mem hs
      exact ⟨before, c', rest ++ [.joinActor actor], by simp, hend, by simp⟩
    · simp [hactor] at hsc
  | gather | joinActor | joinCamera | call | cues | nest => cases hsc

/-- The steps of a script command every actor as its sequences do, in their order. -/
theorem commandsIn_scriptSteps (m : Movie K) (name : String) :
    commandsIn name (scriptSteps m) = m.commandsFor name := by
  have hcommands : ∀ q : ActorSequence K, commandsIn name (actorSteps q) =
      if q.actor = name then q.commands else [] := by
    intro q
    unfold commandsIn actorSteps
    rw [List.filterMap_cons, List.filterMap_map]
    by_cases h : q.actor = name
    · simp [h]
    · simp [h]
  unfold scriptSteps Movie.commandsFor Movie.sequences
  rw [List.flatMap_assoc]
  unfold commandsIn at hcommands ⊢
  rw [List.filterMap_flatMap]
  apply List.flatMap_congr
  intro b _
  cases b with
  | actor q =>
    rw [blockSteps, hcommands]
    exact (List.append_nil _).symm
  | camera q => rfl
  | simultaneous members =>
    rw [blockSteps, List.filterMap_cons, List.filterMap_flatMap]
    refine List.flatMap_congr fun b _ => ?_
    cases b with
    | actor q => exact hcommands q
    | camera q => rfl
    | simultaneous members => rfl

end Steps

section Parking

variable {K : Type} [Scalar K]

lemma hold_parked (rate : FrameRate K) (duration : K) (clip : Option (Clip K)) (r : Run K) :
    (r.hold rate duration clip).parked = r.parked := play_parked _ _ _

lemma holdUntil_parked (rate : FrameRate K) (moment : K) (clip : Option (Clip K)) (r : Run K) :
    (r.holdUntil rate moment clip).parked = r.parked := by
  unfold Run.holdUntil
  by_cases h : moment ≤ r.cursor + Scalar.tolerance
  · rw [if_pos h]
  · rw [if_neg h, hold_parked]

lemma stay_parked (rate : FrameRate K) (index : ℕ) (c : StayCommand K) {r : Run K}
    (hr : r.parked = none) :
    (∀ p, (r.stay rate index c).parked = some p → p.start = (r.stay rate index c).cursor) ∧
      ((r.stay rate index c).parked.isSome = true ↔ (Command.stay c).isTillEnd = true) := by
  obtain ⟨length, clip⟩ := c
  cases length with
  | lasting span =>
    unfold Run.stay
    simp [hold_parked, hr, Command.isTillEnd]
  | waiting moment =>
    unfold Run.stay
    simp [holdUntil_parked, hr, Command.isTillEnd]
  | tillEnd =>
    refine ⟨?_, iff_of_true rfl rfl⟩
    intro p hp
    cases hp
    rfl

/-- Only a stay to the end parks its actor, where the actor is. -/
lemma obey_parked {s : Session K} {index : ℕ} {r r' : Run K} {c : Command K}
    {findings : List (Finding K)} (hr : r.parked = none)
    (h : obey s index r c = .ok (r', findings)) :
    (∀ p, r'.parked = some p → p.start = r'.cursor) ∧
      (r'.parked.isSome = true ↔ c.isTillEnd = true) := by
  cases c with
  | move c =>
    obtain ⟨motion, drift, lane, -, rfl⟩ := move_ok h
    simp [hr, Command.isTillEnd]
  | face c =>
    obtain ⟨yaw?, -, rfl⟩ := obey_face_ok h
    simp [Run.face, hr, Command.isTillEnd]
  | stay c =>
    cases h
    exact stay_parked _ _ c hr
  | follow c =>
    obtain ⟨curve, -, h⟩ := bind_eq_ok.mp h
    obtain ⟨range, motion, origin, sign, -, rfl⟩ := follow_ok h
    simp [hr, Command.isTillEnd]

/-- What the steps so far have made of the stays to the end. -/
structure ParkedBy (steps : List (Step K)) (r : Run K) : Prop where
  parked_iff : r.parked.isSome = true ↔ ∃ c ∈ commandsIn r.actor.name steps, c.isTillEnd = true
  start_eq : ∀ p, r.parked = some p → p.start = r.cursor ∨ JoinsAfterEnd r.actor.name steps

omit [Scalar K] in
lemma ParkedBy.other {front : List (Step K)} {step : Step K} {r : Run K} (h : ParkedBy front r)
    (hstep : ∀ c, step ≠ .command r.actor.name c) : ParkedBy (front ++ [step]) r := by
  constructor
  · rw [commandsIn_other hstep]
    exact h.parked_iff
  · intro p hp
    exact (h.start_eq p hp).imp_right fun hjoin => hjoin.append step

omit [Scalar K] in
lemma ParkedBy.join {front : List (Step K)} {r r' : Run K} (h : ParkedBy front r)
    (hactor : r'.actor = r.actor) (hparked : r'.parked = r.parked) :
    ParkedBy (front ++ [.joinActor r.actor.name]) r' := by
  constructor
  · rw [hactor, hparked, commandsIn_other (fun _ hc => by cases hc)]
    exact h.parked_iff
  · intro p hp
    right
    have hsome : r.parked.isSome = true := by rw [← hparked, hp]; rfl
    obtain ⟨c, hc, hend⟩ := h.parked_iff.mp hsome
    rw [hactor]
    exact joinsAfterEnd_join hc hend

omit [Scalar K] in
lemma ParkedBy.command {front : List (Step K)} {r r' : Run K} {c : Command K}
    (h : ParkedBy front r) (hactor : r'.actor = r.actor) (hnone : r.parked = none)
    (hstart : (∀ p, r'.parked = some p → p.start = r'.cursor) ∧
      (r'.parked.isSome = true ↔ c.isTillEnd = true)) :
    ParkedBy (front ++ [.command r.actor.name c]) r' := by
  have hbefore : ¬∃ c ∈ commandsIn r.actor.name front, c.isTillEnd = true := by
    rw [← h.parked_iff, hnone]
    exact Bool.false_ne_true
  refine ⟨?_, fun p hp => Or.inl (hstart.1 p hp)⟩
  rw [hactor, hstart.2, commandsIn_command]
  constructor
  · exact fun hend => ⟨c, by simp, hend⟩
  · rintro ⟨c', hc', hend⟩
    rcases List.mem_append.mp hc' with hc' | hc'
    · exact absurd ⟨c', hc', hend⟩ hbefore
    · rw [List.mem_singleton.mp hc'] at hend
      exact hend

end Parking

section Walking

variable {K : Type} [Scalar K] {m : Movie K} {o : PlanOptions K}

/-- Each step parks the actor it tells to stay to the end, and leaves all others as they were. -/
theorem parkedBy_invariant : RunInvariant (K := K) ParkedBy where
  start a := by
    refine ⟨iff_of_false Bool.false_ne_true ?_, fun p hp => by cases hp⟩
    rintro ⟨c, hc, -⟩
    exact absurd hc List.not_mem_nil
  other := ParkedBy.other
  join h rate moment := h.join (holdUntil_kept _ _ _ _).1 (holdUntil_parked _ _ _ _)
  command {front r r' s c findings} h hnone hobey := by
    have hcounted : ({ r with nextIndex := r.nextIndex + 1 } : Run K).parked = none := hnone
    exact h.command (obey_kept hobey).1 hnone (obey_parked hcounted hobey)

theorem walk_parkedBy {s : Session K} (h : walk o m = .ok s) :
    ∀ r ∈ s.runs, ParkedBy (scriptSteps m) r :=
  parkedBy_invariant.walk_runs h

end Walking

section Ends

variable {rate : FrameRate ℝ} {r : Run ℝ} {last : ℕ}

/-- How far a run was carried on from where its stay to the end is parked. -/
noncomputable def delay (r : Run ℝ) : ℝ :=
  match r.parked with
  | some p => r.cursor - p.start
  | none => 0

lemma finish_cursor {p : Parked ℝ} (h : r.parked = some p) :
    (r.finish rate last).1.cursor = r.cursor + max (last / rate.fps - p.start) 0 := by
  have hmax : Scalar.larger (rate.secondsAt last - p.start) (@OfNat.ofNat ℝ 0 Scalar.instOfNat) =
      max (last / rate.fps - p.start) 0 := by
    rw [larger_real, zero_real, secondsAt_real]
  unfold Run.finish
  rw [h]
  exact (play_cursor _ _ _).trans (congrArg (r.cursor + ·) hmax)

/-- A stay to the end leads to the last frame at least. -/
lemma le_frameAt_finish (hfps : 0 < rate.fps) (hr : OnTime rate r) {p : Parked ℝ}
    (h : r.parked = some p) : last ≤ rate.frameAt (r.finish rate last).1.cursor := by
  obtain ⟨h0, hle⟩ := hr.parked_start p h
  have hcancel : (last : ℝ) / rate.fps * rate.fps = last := div_mul_cancel₀ _ hfps.ne'
  have hend : (last : ℝ) / rate.fps ≤ r.cursor + max (last / rate.fps - p.start) 0 := by
    have hmax := le_max_left ((last : ℝ) / rate.fps - p.start) 0
    linarith
  have hnonneg : 0 ≤ r.cursor + max ((last : ℝ) / rate.fps - p.start) 0 :=
    add_nonneg hr.cursor_nonneg (le_max_right _ _)
  rw [finish_cursor h, le_frameAt_iff hfps hnonneg]
  have hmul := mul_le_mul_of_nonneg_right hend hfps.le
  linarith

/-- It leads no further exactly when it was carried on by less than a frame, up to the millionth
that is forgiven. -/
lemma frameAt_finish_le_iff (hfps : 0 < rate.fps) (hr : OnTime rate r)
    (hlast : rate.frameAt r.cursor ≤ last) :
    rate.frameAt (r.finish rate last).1.cursor ≤ last ↔ delay r * rate.fps + 1e-6 < 1 := by
  unfold delay
  cases h : r.parked with
  | none =>
    rw [finish_none h]
    simp only [hlast, zero_mul, zero_add, true_iff]
    norm_num
  | some p =>
    have hcancel : (last : ℝ) / rate.fps * rate.fps = last := div_mul_cancel₀ _ hfps.ne'
    have hnow := (frameAt_le_iff hr.cursor_nonneg last).mp hlast
    have hnonneg : 0 ≤ r.cursor + max ((last : ℝ) / rate.fps - p.start) 0 :=
      add_nonneg hr.cursor_nonneg (le_max_right _ _)
    rw [finish_cursor h, frameAt_le_iff hnonneg]
    rcases le_total 0 ((last : ℝ) / rate.fps - p.start) with hleft | hpast
    · have hsum : (r.cursor + (last / rate.fps - p.start)) * rate.fps =
          (r.cursor - p.start) * rate.fps + last := by
        linear_combination hcancel
      rw [max_eq_left hleft, hsum]
      constructor <;> intro h <;> linarith
    · have hsmall : (r.cursor - p.start) * rate.fps ≤ r.cursor * rate.fps - last := by
        have hmul := mul_le_mul_of_nonneg_right (sub_nonpos.mp hpast) hfps.le
        linarith
      rw [max_eq_right hpast, add_zero]
      exact iff_of_true hnow (by linarith)

end Ends

section Plans

variable {m : Movie ℝ} {o : PlanOptions ℝ} {reel : Reel ℝ}

/-- How the track of a planned actor ends, told from its run when the script is walked. -/
structure EndsBy (m : Movie ℝ) (last : ℕ) (r : Run ℝ) (a : ActorReel ℝ) : Prop where
  actor_eq : a.actor = r.actor
  parked_iff : r.parked.isSome = true ↔
    ∃ c ∈ m.commandsFor a.actor.name, c.isTillEnd = true
  no_key_past_iff : (∀ f ∈ trackFrames a.transform, f ≤ last) ↔
    delay r * m.fps.fps + 1e-6 < 1
  ends_at_last_iff : r.parked.isSome = true →
    (a.transform.lastFrame? = some last ↔ delay r * m.fps.fps + 1e-6 < 1)
  delayed_by_group : delay r ≠ 0 → JoinsAfterEnd a.actor.name (scriptSteps m)

lemma finish_endsBy (hv : Valid m) {last : ℕ} {r : Run ℝ} (hr : OnTime m.fps r)
    (hparked : ParkedBy (scriptSteps m) r) (hlast : m.fps.frameAt r.cursor ≤ last)
    {a : ActorReel ℝ} (hactor : a.actor = r.actor)
    (htrack : a.transform = (r.finish m.fps last).1.transform) : EndsBy m last r a := by
  have hfinish := hr.advances hv.rate_pos (finish_advances last)
  have hle_iff := frameAt_finish_le_iff hv.rate_pos hr hlast
  refine ⟨hactor, ?_, ?_, ?_, ?_⟩
  · rw [hactor, ← commandsIn_scriptSteps]
    exact hparked.parked_iff
  · rw [← hle_iff, htrack, hfinish.filled]
    simp only [List.mem_range, Nat.lt_add_one_iff]
    exact ⟨fun h => h _ (le_refl _), fun h f hf => hf.trans h⟩
  · intro hsome
    obtain ⟨p, hp⟩ := Option.isSome_iff_exists.mp hsome
    have hge : last ≤ m.fps.frameAt (r.finish m.fps last).1.cursor :=
      le_frameAt_finish hv.rate_pos hr hp
    rw [← hle_iff, htrack, hfinish.filled.lastFrame?_eq, Option.some.injEq]
    exact ⟨fun h => h.le, fun h => le_antisymm h hge⟩
  · intro hdelay
    cases hp : r.parked with
    | none => simp [delay, hp] at hdelay
    | some p =>
      rcases hparked.start_eq p hp with heq | hjoin
      · simp [delay, hp, heq] at hdelay
      · rw [hactor]
        exact hjoin

/-- The runs of the walk tell how the tracks of the plan end. -/
lemma plan_endsBy (h : m.plan o = .ok reel) {s : Session ℝ} (hwalk : walk o m = .ok s) :
    List.Forall₂ (EndsBy m reel.lastFrame) s.runs reel.actors := by
  have hv := valid_of_issues_nil (issues_nil_of_plan h)
  obtain ⟨s', hplayed, hshows⟩ := plan_ok h
  obtain ⟨s₀, s₁, hwalk₀, hlast, rfl⟩ := played_ok hplayed
  rw [hwalk] at hwalk₀
  cases hwalk₀
  obtain ⟨hsame, hextent⟩ := lastFrame_ok hlast
  have hfollows := walk_follows hv hwalk
  have hfollows₁ := hfollows.trans hsame.follows
  obtain ⟨reports, hfinished⟩ := finishRuns_eq (hfollows₁.runNames_nodup hv) reel.lastFrame
  rw [hshows.actors_eq, hfinished, hsame.runs_eq, hfollows₁.movie_eq]
  simp only [List.map_map]
  rw [List.forall₂_map_right_iff, List.forall₂_same]
  intro r hr
  have hreach := (frameAt_cursor_le_extent hv hfollows hr).trans hextent
  exact finish_endsBy hv (hfollows.onTime hv hr) (walk_parkedBy hwalk r hr) hreach
    (finish_actor _ r) rfl

/-- No key lies past the last frame, and a stay to the end ends with it, exactly for the actors
that no group has carried on from their stay by a frame. -/
theorem plan_ends_with_movie_iff (h : m.plan o = .ok reel) :
    ∃ s, walk o m = .ok s ∧ s.runs.map Run.actor = m.actors ∧
      List.Forall₂ (EndsBy m reel.lastFrame) s.runs reel.actors := by
  have hv := valid_of_issues_nil (issues_nil_of_plan h)
  obtain ⟨s', hplayed, -⟩ := plan_ok h
  obtain ⟨s, -, hwalk, -, -⟩ := played_ok hplayed
  exact ⟨s, hwalk, (walk_follows hv hwalk).actors_eq.trans (start_actors m o), plan_endsBy h hwalk⟩

end Plans

section Overstaying

variable {o : PlanOptions ℝ}

/-- An actor stays to the end, a camera takes two seconds, and a group calls the actor again. -/
noncomputable def overstay : Movie ℝ :=
  { Movie.empty "overstay" 1 with
    actors := [Actor.named "A"]
    cameras := [Camera.named "C"]
    script :=
      [.actor ⟨"A", [.stay ⟨.tillEnd, none⟩]⟩, .camera ⟨"C", [.hold (.seconds 2)]⟩,
        .simultaneous [.actor ⟨"A", []⟩]] }

lemma overstay_issues : overstay.issues = [] := by
  have hactor : Movie.actorIssues (Actor.named "A" : Actor ℝ) = [] := actorIssues_named "A"
  simp only [Movie.issues, overstay, Movie.empty, List.flatMap_cons, List.flatMap_nil, hactor]
  simp [FrameRate.isValid, Movie.declared, Movie.nameIssues, Movie.groupIssues, Movie.memberIssues,
    Block.entity?, Movie.scriptIssues, Movie.sequences, Block.flatten, Movie.sequenceIssues,
    Movie.commandIssues, Movie.nameIssue?, Movie.kind?, Actor.named, Movie.tillEndIssues,
    Movie.commandsFor, isBlankText, isBlankChar, List.lookup_cons, Command.isTillEnd,
    Movie.actorCommandCount, Movie.cameraIssues, Camera.named, Movie.cameraCommandIssues,
    Movie.cameraCommandCount, CameraCommand.subject?, seconds_real]

/-- The group carries the actor on to where the camera is. -/
lemma overstay_waits {s : Session ℝ} {a : Run ℝ} (hs : Follows (Session.start overstay o) s)
    (hruns : s.runs = [a]) (hactor : a.actor = Actor.named "A") (hcursor : a.cursor = 0)
    (hsheets : s.sheets.map CueSheet.cursor = [2]) :
    ∃ s' a', s.block (.simultaneous [.actor ⟨"A", []⟩]) = .ok s' ∧ s'.runs = [a'] ∧
      s'.sheets = s.sheets ∧ a'.parked = a.parked ∧ a'.cursor = 2 := by
  have hname : a.actor.name = "A" := congrArg Actor.name hactor
  have hhorizon : s.horizon = 2 := by
    unfold Session.horizon
    rw [hruns, hsheets]
    simp [hcursor, larger_real]
  obtain ⟨s', hblock, -, hruns', hsheets'⟩ :=
    block_wait (hs.runNames_nodup (valid_of_issues_nil overstay_issues))
      (show s.runs = [] ++ a :: [] from hruns)
  rw [hname] at hblock
  refine ⟨s', _, hblock, hruns', hsheets', holdUntil_parked _ _ _ _, ?_⟩
  rw [← hhorizon]
  apply holdUntil_cursor
  rw [hhorizon, hcursor]
  norm_num

/-- The walk leaves the actor two seconds past the start of its stay. -/
lemma overstay_walk : ∃ s a, walk o overstay = .ok s ∧ s.runs = [a] ∧
    a.parked = some ⟨0, 0, none⟩ ∧ a.cursor = 2 ∧
    s.sheets = [⟨Camera.named "C", 2, 1, [⟨0, 0, .hold (.seconds 2)⟩]⟩] := by
  have hv := valid_of_issues_nil overstay_issues
  have hstart : (Run.start (Actor.named "A") : Run ℝ).cursor = 0 := zero_real
  have hruns : (Session.start overstay o).runs = [] ++ Run.start (Actor.named "A") :: [] := rfl
  have hobey : obey (Session.start overstay o) 0 { Run.start (Actor.named "A") with nextIndex := 1 }
      (.stay ⟨.tillEnd, none⟩) = .ok (_, []) := rfl
  obtain ⟨s₁, hfirst, hs₁, hruns₁, hsheets₁⟩ :=
    block_command ((Follows.refl (Session.start overstay o)).runNames_nodup hv) hruns rfl hobey
  let C : CueSheet ℝ := (CueSheet.blank (Camera.named "C")).add (.hold (.seconds 2))
  have hC : C = ⟨Camera.named "C", 2, 1, [⟨0, 0, .hold (.seconds 2)⟩]⟩ := by
    simp [C, CueSheet.blank, CueSheet.add, seconds_real, larger_real]
  have hsheet : s₁.sheet "C" = .ok (CueSheet.blank (Camera.named "C")) := by
    unfold Session.sheet
    rw [hsheets₁]
    rfl
  have hsecond : s₁.block (.camera ⟨"C", [.hold (.seconds 2)]⟩) = .ok (s₁.setSheet C) :=
    bind_eq_ok.mpr ⟨_, hsheet, rfl⟩
  have hsheets₂ : (s₁.setSheet C).sheets = [C] := by
    unfold Session.setSheet
    rw [hsheets₁]
    rfl
  have hs₂ : Follows s₁ (s₁.setSheet C) :=
    .setSheet (sheet_ok hsheet).1 (hs₁.sheetNames_nodup hv) rfl
  obtain ⟨s₃, a, hthird, hruns₃, hsheets₃, hparked, hcursor⟩ :=
    overstay_waits (hs₁.trans hs₂) hruns₁ rfl hstart
      (by rw [hsheets₂]; exact congrArg (fun c : CueSheet ℝ => [c.cursor]) hC)
  refine ⟨s₃, a, ?_, hruns₃, ?_, hcursor, by rw [hsheets₃, hsheets₂, hC]⟩
  · exact bind_eq_ok.mpr ⟨s₁, hfirst, bind_eq_ok.mpr ⟨s₁.setSheet C, hsecond,
      bind_eq_ok.mpr ⟨s₃, hthird, rfl⟩⟩⟩
  · rw [hparked]
    exact congrArg (fun t => some (Parked.mk 0 t none)) hstart

/-- The movie ends with the two seconds of its camera. -/
lemma overstay_lastFrame {s : Session ℝ} (h : walk o overstay = .ok s) :
    s.lastFrame = .ok (2, s) := by
  obtain ⟨s', a, hwalk, hruns, hparked, hcursor, hsheets⟩ := overstay_walk (o := o)
  rw [hwalk] at h
  cases h
  have hv := valid_of_issues_nil overstay_issues
  have hfollows := walk_follows hv hwalk
  have hframe : overstay.fps.frameAt 2 = 2 := by
    exact_mod_cast frameAt_natCast (show overstay.fps.fps = 1 from rfl) 2
  have hextent : s.extent = 2 := by
    rw [extent_eq hv hfollows, hruns, hsheets]
    simp [hcursor, hframe]
  rw [lastFrame_eq_extent (by rw [hfollows.movie_eq]; rfl) (Or.inr (by rw [hextent]; norm_num)),
    hextent]

lemma overstay_plan : ∃ reel, overstay.plan o = .ok reel ∧ reel.lastFrame = 2 := by
  obtain ⟨s, a, hwalk, hruns, hparked, hcursor, hsheets⟩ := overstay_walk (o := o)
  have hlast := overstay_lastFrame hwalk
  have hplayed : played o overstay = .ok (2, s.finishRuns 2) :=
    bind_eq_ok.mpr ⟨s, hwalk, bind_eq_ok.mpr ⟨(2, s), hlast, rfl⟩⟩
  apply exists_plan overstay_issues hplayed
  intro c hc hnone
  have hfollows := walk_follows (valid_of_issues_nil overstay_issues) hwalk
  obtain ⟨reports, hfinished⟩ :=
    finishRuns_eq (hfollows.runNames_nodup (valid_of_issues_nil overstay_issues)) 2
  have hc' : c ∈ s.sheets := by
    rw [hfinished] at hc
    exact hc
  rw [hsheets, List.mem_singleton] at hc'
  obtain ⟨q, hmem, subject, occupancy, minFocal, maxFocal, hzoom⟩ :=
    exists_zoom_of_shoot?_eq_none hnone
  rw [hc', List.mem_singleton] at hmem
  rw [hmem] at hzoom
  cases hzoom

theorem overstay_ends_by_its_runs : ∃ reel, overstay.plan (Settings.standard.options) = .ok reel ∧
    ∃ s, walk (Settings.standard.options) overstay = .ok s ∧
      s.runs.map Run.actor = overstay.actors ∧
      List.Forall₂ (EndsBy overstay reel.lastFrame) s.runs reel.actors := by
  obtain ⟨reel, hplan, -⟩ := overstay_plan (o := Settings.standard.options)
  exact ⟨reel, hplan, plan_ends_with_movie_iff hplan⟩

/-- The actor's stay to the end is keyed past the end. -/
theorem overstay_keys_past_end : ∃ reel, overstay.plan (Settings.standard.options) = .ok reel ∧
    ∃ a ∈ reel.actors, (∃ c ∈ overstay.commandsFor a.actor.name, c.isTillEnd = true) ∧
      a.transform.lastFrame? ≠ some reel.lastFrame ∧
      ∃ f ∈ trackFrames a.transform, reel.lastFrame < f := by
  obtain ⟨reel, hplan, -⟩ := overstay_plan (o := Settings.standard.options)
  obtain ⟨s, r, hwalk, hruns, hparked, hcursor, -⟩ := overstay_walk (o := Settings.standard.options)
  obtain ⟨a, ha, hends⟩ := mem_of_forall₂_left (plan_endsBy hplan hwalk)
    (show r ∈ s.runs by rw [hruns]; exact List.mem_singleton_self r)
  have hsome : r.parked.isSome = true := by rw [hparked]; rfl
  have hdelay : ¬delay r * overstay.fps.fps + 1e-6 < 1 := by
    have hfps : overstay.fps.fps = 1 := rfl
    unfold delay
    rw [hparked, hcursor, hfps]
    norm_num
  refine ⟨reel, hplan, a, ha, hends.parked_iff.mp hsome, ?_, ?_⟩
  · rw [ne_eq, hends.ends_at_last_iff hsome]
    exact hdelay
  · by_contra hnone
    refine hdelay (hends.no_key_past_iff.mp fun f hf => ?_)
    by_contra hlt
    exact hnone ⟨f, hf, not_le.mp hlt⟩

end Overstaying

end Stagecraft.Proofs
