import Stagecraft.Plan.Session
import Stagecraft.Proofs.ActorRuns
import Stagecraft.Proofs.ProfileShape

/-!
# Commands as advances of a run

Every command is a span from the cursor, a stay that is parked there, or nothing at all. The
inversion lemmas say which span; from them each command is seen to advance the run of its actor.
-/

namespace Stagecraft.Proofs

section Inversion

variable {K : Type} [Scalar K] {rate : FrameRate K} {r r' : Run K} {index : ℕ}
  {findings : List (Finding K)}

/-- The span of a move. -/
def moveSpan (r : Run K) (c : MoveCommand K) (p : Profile K) (drift : Option (Drift K)) : Span K :=
  ⟨r.cursor, p.duration,
    Run.movePose r.pose (c.direction.heading r.pose.yaw c.directionOffset) p drift, c.animation⟩

/-- The span of travel along a curve. -/
def followSpan (r : Run K) (c : FollowCommand K) (curve : Curve K) (origin sign : K)
    (p : Profile K) : Span K :=
  ⟨r.cursor, p.duration, Run.followPose r.pose curve origin sign p, c.animation⟩

lemma mapError_ok {ε ε' α : Type} {f : ε → ε'} {x : Except ε α} {a : α} :
    x.mapError f = .ok a ↔ x = .ok a := by
  cases x with
  | error e => simp [Except.mapError]
  | ok b => simp [Except.mapError]

lemma move_ok {anchor : Anchor} {c : MoveCommand K}
    (h : r.move rate anchor index c = .ok (r', findings)) :
    ∃ motion drift lane, c.motion.resolve = .ok motion ∧
      r' = { r.play rate (moveSpan r c motion.profile drift) with lane := lane } := by
  unfold Run.move at h
  obtain ⟨motion, hmotion, h⟩ := bind_eq_ok.mp h
  cases hc : c.corridor with
  | none =>
    simp only [hc] at h
    cases h
    exact ⟨motion, none, none, mapError_ok.mp hmotion, rfl⟩
  | some corridor =>
    simp only [hc] at h
    obtain ⟨⟨drift, lane, found⟩, hlane, h⟩ := bind_eq_ok.mp h
    cases h
    exact ⟨motion, some drift, some _, mapError_ok.mp hmotion, rfl⟩

lemma follow_ok {c : FollowCommand K} {curve : Curve K}
    (h : r.follow rate index c curve = .ok (r', findings)) :
    ∃ range motion origin sign, (Run.followMotion c.motion range).resolve = .ok motion ∧
      r' = { r.play rate (followSpan r c curve origin sign motion.profile) with lane := none } := by
  unfold Run.follow at h
  obtain ⟨first, hfirst, h⟩ := bind_eq_ok.mp h
  obtain ⟨last, hlast, h⟩ := bind_eq_ok.mp h
  obtain ⟨motion, hmotion, h⟩ := bind_eq_ok.mp h
  refine ⟨Scalar.abs (last - first), motion, if c.reverse then last else first,
    if c.reverse then -1 else 1, mapError_ok.mp hmotion, ?_⟩
  cases hreverse : c.reverse
  · simp only [hreverse, Bool.false_eq_true, if_false] at h ⊢
    cases h
    rfl
  · simp only [hreverse, if_true] at h ⊢
    cases h
    rfl

lemma holdUntil_kept (rate : FrameRate K) (moment : K) (clip : Option (Clip K)) (r : Run K) :
    (r.holdUntil rate moment clip).actor = r.actor ∧
      (r.holdUntil rate moment clip).nextIndex = r.nextIndex := by
  unfold Run.holdUntil
  by_cases h : moment ≤ r.cursor + Scalar.tolerance
  · rw [if_pos h]
    exact ⟨rfl, rfl⟩
  · rw [if_neg h]
    exact ⟨play_actor _ _ _, play_nextIndex _ _ _⟩

/-- What a command makes of the run of its actor, once it is counted. -/
def obey (s : Session K) (index : ℕ) (r : Run K) :
    Command K → Except (PlanError K) (Run K × List (Finding K))
  | .move c => r.move s.movie.fps s.options.anchor index c
  | .face c => do
    match (← s.faceYaw r c.target) with
    | some yaw => pure (r.face s.movie.fps c yaw, [])
    | none => pure (r.face s.movie.fps c r.pose.yaw, [.faceTargetCoincides])
  | .stay c => pure (r.stay s.movie.fps index c, [])
  | .follow c => do r.follow s.movie.fps index c (← s.curve c.spline)

/-- A command is obeyed by the run of its actor, unless that run is parked. -/
lemma command_eq {s : Session K} {actor : String} (hr : s.run actor = .ok r)
    (hparked : r.parked = none) (c : Command K) :
    Session.command actor s c = do
      let (r', findings) ← obey s r.nextIndex { r with nextIndex := r.nextIndex + 1 } c
      return (s.setRun r').warn actor r.nextIndex findings := by
  have hfree : ¬r.parked.isSome = true := by
    rw [hparked]
    exact Bool.false_ne_true
  unfold Session.command obey
  rw [hr]
  cases c with
  | move c => exact if_neg hfree
  | face c =>
    refine (if_neg hfree).trans ?_
    rw [bind_assoc]
    apply bind_congr
    intro yaw?
    cases yaw? with
    | none => rfl
    | some yaw => rfl
  | stay c => exact if_neg hfree
  | follow c =>
    refine (if_neg hfree).trans ?_
    rw [bind_assoc]

/-- A parked run obeys no more commands. -/
lemma command_parked {s : Session K} {actor : String} (hr : s.run actor = .ok r)
    (hparked : r.parked ≠ none) (c : Command K) :
    Session.command actor s c = .error (.afterTillEnd actor r.nextIndex) := by
  have hstop : r.parked.isSome = true := Option.isSome_iff_ne_none.mpr hparked
  unfold Session.command
  rw [hr]
  cases c with
  | move c => exact if_pos hstop
  | face c => exact if_pos hstop
  | stay c => exact if_pos hstop
  | follow c => exact if_pos hstop

lemma command_ok {s s' : Session K} {actor : String} {c : Command K}
    (h : Session.command actor s c = .ok s') :
    ∃ r r' findings, s.run actor = .ok r ∧ r.parked = none ∧
      obey s r.nextIndex { r with nextIndex := r.nextIndex + 1 } c = .ok (r', findings) ∧
      s' = (s.setRun r').warn actor r.nextIndex findings := by
  obtain ⟨r, hr, -⟩ := bind_eq_ok.mp h
  by_cases hparked : r.parked = none
  · rw [command_eq hr hparked] at h
    obtain ⟨⟨r', findings⟩, hobey, hs⟩ := bind_eq_ok.mp h
    cases hs
    exact ⟨r, r', findings, hr, hparked, hobey, rfl⟩
  · rw [command_parked hr hparked] at h
    cases h

lemma obey_face_eq {s : Session K} {c : FaceCommand K} {yaw? : Option K}
    (h : s.faceYaw r c.target = .ok yaw?) (index : ℕ) : ∃ findings, obey s index r (.face c) =
      .ok (r.face s.movie.fps c (yaw?.getD r.pose.yaw), findings) := by
  unfold obey
  simp only [h]
  cases yaw? with
  | none => exact ⟨_, rfl⟩
  | some yaw => exact ⟨_, rfl⟩

lemma obey_face_ok {s : Session K} {c : FaceCommand K}
    (h : obey s index r (.face c) = .ok (r', findings)) :
    ∃ yaw?, s.faceYaw r c.target = .ok yaw? ∧
      r' = r.face s.movie.fps c (yaw?.getD r.pose.yaw) := by
  obtain ⟨yaw?, hyaw, h⟩ := bind_eq_ok.mp h
  refine ⟨yaw?, hyaw, ?_⟩
  cases yaw? with
  | none =>
    cases h
    rfl
  | some yaw =>
    cases h
    rfl

/-- A command leaves the actor of a run as declared, and does not count itself. -/
lemma obey_kept {s : Session K} {c : Command K} (h : obey s index r c = .ok (r', findings)) :
    r'.actor = r.actor ∧ r'.nextIndex = r.nextIndex := by
  cases c with
  | move c =>
    obtain ⟨motion, drift, lane, -, rfl⟩ := move_ok h
    exact ⟨play_actor _ _ _, play_nextIndex _ _ _⟩
  | face c =>
    obtain ⟨yaw?, -, rfl⟩ := obey_face_ok h
    exact ⟨play_actor _ _ _, play_nextIndex _ _ _⟩
  | stay c =>
    cases h
    unfold Run.stay
    cases c.length with
    | lasting span => exact ⟨play_actor _ _ _, play_nextIndex _ _ _⟩
    | waiting moment => exact holdUntil_kept _ _ _ _
    | tillEnd => exact ⟨rfl, rfl⟩
  | follow c =>
    obtain ⟨curve, -, h⟩ := bind_eq_ok.mp h
    obtain ⟨range, motion, origin, sign, -, rfl⟩ := follow_ok h
    exact ⟨play_actor _ _ _, play_nextIndex _ _ _⟩

end Inversion

section Advancing

variable {rate : FrameRate ℝ} {r r' : Run ℝ} {index : ℕ} {findings : List (Finding ℝ)}

lemma play_advances {s : Span ℝ} (hstart : s.start = r.cursor) (hduration : 0 ≤ s.duration) :
    Advances rate r (r.play rate s) :=
  .single (.play s hstart hduration)

lemma note_advances (lane : Option (ℝ × Lane ℝ)) (index : ℕ) :
    Advances rate r { r with lane := lane, nextIndex := index } :=
  .single (.note lane index r.parked fun _ hp => Or.inl hp)

lemma hold_advances {duration : ℝ} (h : 0 ≤ duration) (clip : Option (Clip ℝ)) :
    Advances rate r (r.hold rate duration clip) :=
  play_advances rfl h

lemma holdUntil_advances (moment : ℝ) (clip : Option (Clip ℝ)) :
    Advances rate r (r.holdUntil rate moment clip) := by
  unfold Run.holdUntil
  by_cases h : moment ≤ r.cursor + Scalar.tolerance
  · rw [if_pos h]
  · rw [if_neg h]
    rw [tolerance_real] at h
    exact hold_advances (by linarith) clip

lemma holdUntil_cursor {moment : ℝ} (h : r.cursor + 1e-9 < moment) (clip : Option (Clip ℝ)) :
    (r.holdUntil rate moment clip).cursor = moment := by
  have hlate : ¬moment ≤ r.cursor + Scalar.tolerance := by
    rw [tolerance_real]
    exact not_le.mpr h
  unfold Run.holdUntil
  rw [if_neg hlate]
  exact (play_cursor _ _ _).trans (add_sub_cancel r.cursor moment)

lemma larger_zero_nonneg (x : ℝ) : 0 ≤ Scalar.larger x (@OfNat.ofNat ℝ 0 Scalar.instOfNat) := by
  rw [larger_real, zero_real]
  exact le_max_right x 0

lemma stay_lasting {span : TimeSpan ℝ} (h : 0 ≤ span.internal) (clip : Option (Clip ℝ)) :
    r.stay rate index ⟨.lasting span, clip⟩ = r.hold rate span.internal clip :=
  congrArg (fun duration => r.hold rate duration clip) (larger_zero_of_nonneg h)

lemma stay_lasting_cursor {span : TimeSpan ℝ} (h : 0 ≤ span.internal) (clip : Option (Clip ℝ)) :
    (r.stay rate index ⟨.lasting span, clip⟩).cursor = r.cursor + span.internal := by
  rw [stay_lasting h]
  exact play_cursor _ _ _

lemma face_advances (c : FaceCommand ℝ) (yaw : ℝ) : Advances rate r (r.face rate c yaw) :=
  play_advances rfl (larger_zero_nonneg _)

lemma stay_advances (c : StayCommand ℝ) : Advances rate r (r.stay rate index c) := by
  unfold Run.stay
  cases c.length with
  | lasting span => exact hold_advances (larger_zero_nonneg _) c.animation
  | waiting moment => exact holdUntil_advances moment.internal c.animation
  | tillEnd =>
    apply Relation.ReflTransGen.single
    apply Advance.note
    intro p hp
    cases hp
    exact Or.inr rfl

lemma move_advances {anchor : Anchor} {c : MoveCommand ℝ}
    (h : r.move rate anchor index c = .ok (r', findings)) : Advances rate r r' := by
  obtain ⟨motion, drift, lane, hmotion, rfl⟩ := move_ok h
  have hplay : Advances rate r (r.play rate (moveSpan r c motion.profile drift)) :=
    play_advances rfl (resolve_built _ _ hmotion).duration_nonneg
  exact hplay.trans (note_advances lane _)

lemma follow_advances {c : FollowCommand ℝ} {curve : Curve ℝ}
    (h : r.follow rate index c curve = .ok (r', findings)) : Advances rate r r' := by
  obtain ⟨range, motion, origin, sign, hmotion, rfl⟩ := follow_ok h
  have hplay : Advances rate r (r.play rate (followSpan r c curve origin sign motion.profile)) :=
    play_advances rfl (resolve_built _ _ hmotion).duration_nonneg
  exact hplay.trans (note_advances none _)

lemma finish_advances (last : ℕ) : Advances rate r (r.finish rate last).1 := by
  unfold Run.finish
  cases r.parked with
  | none => exact .refl
  | some p =>
    have hunpark : Advance rate r { r with parked := none } :=
      .note r.lane r.nextIndex none (fun _ hp => by cases hp)
    exact .head hunpark (hold_advances (larger_zero_nonneg _) p.clip)

/-- A command advances the run of its actor. -/
theorem obey_advances {s : Session ℝ} {c : Command ℝ}
    (h : obey s index r c = .ok (r', findings)) : Advances s.movie.fps r r' := by
  cases c with
  | move c => exact move_advances h
  | face c =>
    obtain ⟨yaw?, -, rfl⟩ := obey_face_ok h
    exact face_advances c _
  | stay c =>
    cases h
    exact stay_advances c
  | follow c =>
    obtain ⟨curve, -, h⟩ := bind_eq_ok.mp h
    exact follow_advances h

end Advancing

end Stagecraft.Proofs
