import Stagecraft.Proofs.CommandRuns
import Stagecraft.Proofs.ShiftedCurves
import Stagecraft.Proofs.ShortTurns

/-!
# Shifted runs

A scene is shifted when everything in it is moved by a vector and the mesh of each actor is turned
by an angle of its own. Where an actor goes is told from where it is, and the mesh correction is
added to a yaw where it is keyed and taken off where a camera reads it. So a shifted run takes the
same course, shifted: every command commutes with the shift.
-/

namespace Stagecraft

/-- What a scene is moved by, and what the mesh of each actor is turned by. -/
structure Shift where
  place : Vec3 ℝ
  mesh : String → ℝ

/-- A track with other keys at the same frames. -/
def Track.map {κ : Type} (f : κ → κ) (t : Track κ) : Track κ :=
  ⟨t.keys.map f⟩

section Shifting

variable (v : Shift) (d : Vec3 ℝ) (turn : ℝ)

noncomputable def Actor.shifted (a : Actor ℝ) : Actor ℝ :=
  { a with location := a.location + v.place, yawOffset := a.yawOffset + v.mesh a.name }

noncomputable def Pose.shifted (p : Pose ℝ) : Pose ℝ :=
  { p with location := p.location + d }

noncomputable def Span.shifted (s : Span ℝ) : Span ℝ :=
  { s with pose := fun t => (s.pose t).shifted d }

/-- A transform that is moved, with its yaw turned. -/
noncomputable def Transform.shifted (t : Transform ℝ) : Transform ℝ :=
  ⟨t.location + d, { t.rotation with yaw := t.rotation.yaw + turn }⟩

noncomputable def TransformKey.shifted (k : TransformKey ℝ) : TransformKey ℝ :=
  { k with transform := k.transform.shifted d turn }

noncomputable def Subject.shifted (s : Subject ℝ) : Subject ℝ :=
  { s with location := s.location + d }

noncomputable def Run.shifted (r : Run ℝ) : Run ℝ :=
  { r with
    actor := r.actor.shifted v
    pose := r.pose.shifted v.place
    emittedYaw := r.emittedYaw + v.mesh r.actor.name
    transform := r.transform.map (TransformKey.shifted v.place (v.mesh r.actor.name))
    spans := r.spans.map (Span.shifted v.place) }

end Shifting

end Stagecraft

namespace Stagecraft.Proofs

section Tracks

lemma insertIdxIfInBounds_map {α β : Type} (f : α → β) (xs : Array α) (i : ℕ) (a : α) :
    (xs.map f).insertIdxIfInBounds i (f a) = (xs.insertIdxIfInBounds i a).map f := by
  unfold Array.insertIdxIfInBounds
  by_cases h : i ≤ xs.size
  · have h' : i ≤ (xs.map f).size := by
      rw [Array.size_map]
      exact h
    rw [dif_pos h, dif_pos h']
    apply Array.ext'
    simp [List.map_insertIdx]
  · have h' : ¬i ≤ (xs.map f).size := by
      rw [Array.size_map]
      exact h
    rw [dif_neg h, dif_neg h']

variable {κ : Type}

lemma map_empty (f : κ → κ) : (Track.empty : Track κ).map f = Track.empty :=
  congrArg Track.mk Array.map_empty

variable [Keyed κ] {f : κ → κ} (hf : ∀ k, Keyed.frame (f k) = Keyed.frame k)
include hf

lemma countFront_map (t : Track κ) (p : ℕ → Bool) : (t.map f).countFront p = t.countFront p := by
  unfold Track.countFront Stagecraft.countFront Track.map
  simp only [Array.size_map, Array.getElem?_map, Option.any_map, hf]

lemma push_map (t : Track κ) (k : κ) : (t.map f).push (f k) = (t.push k).map f := by
  have hback : (t.map f).keys.back? = t.keys.back?.map f := by
    unfold Track.map
    rw [Array.back?_map]
  unfold Track.push
  rw [hback]
  cases t.keys.back? with
  | none => simp [Track.map]
  | some last =>
    have hsame : ∀ i : ℕ, ((t.map f).keys[i]?).any (fun q => Keyed.frame q = Keyed.frame k) =
        (t.keys[i]?).any fun q => Keyed.frame q = Keyed.frame k := by
      intro i
      unfold Track.map
      simp only [Array.getElem?_map, Option.any_map, hf]
    simp only [Option.map_some, hf, countFront_map hf, hsame]
    split
    · simp [Track.map]
    · split
      · simp [Track.map]
      · simp [Track.map, insertIdxIfInBounds_map]

lemma lastFrame?_map (t : Track κ) : (t.map f).lastFrame? = t.lastFrame? := by
  unfold Track.lastFrame? Track.last? Track.map
  rw [Array.back?_map, Option.map_map]
  exact Option.map_congr fun k _ => hf k

end Tracks

section Transforms

variable (d : Vec3 ℝ) (turn : ℝ)

lemma frame_shifted (k : TransformKey ℝ) : Keyed.frame (k.shifted d turn) = Keyed.frame k := rfl

lemma transform_lerp_shifted (a b : Transform ℝ) (t : ℝ) :
    (a.shifted d turn).lerp (b.shifted d turn) t = (a.lerp b t).shifted d turn := by
  have hturned (x y e t : ℝ) : x + e + (y + e - (x + e)) * t = x + (y - x) * t + e := by ring
  exact congrArg₂ Transform.mk (lerp_shifted _ _ _ _)
    (congrArg (fun yaw => Rotator.mk _ yaw _) (hturned _ _ _ _))

lemma sample_shifted (t : TransformTrack ℝ) (frame : ℕ) :
    (t.map (TransformKey.shifted d turn)).sample frame =
      (t.sample frame).map (Transform.shifted d turn) := by
  have hf := frame_shifted d turn
  have hget : ∀ i : ℕ, (t.map (TransformKey.shifted d turn)).keys[i]? =
      t.keys[i]?.map (TransformKey.shifted d turn) := fun i => Array.getElem?_map
  have hfirst : (t.map (TransformKey.shifted d turn)).first? =
      t.first?.map (TransformKey.shifted d turn) := hget 0
  have hlast : (t.map (TransformKey.shifted d turn)).last? =
      t.last?.map (TransformKey.shifted d turn) := Array.back?_map
  have hframe : ∀ k : TransformKey ℝ, (k.shifted d turn).frame = k.frame := fun _ => rfl
  have hheld : (t.last?.map (TransformKey.shifted d turn)).map TransformKey.transform =
      (t.last?.map TransformKey.transform).map (Transform.shifted d turn) := by
    rw [Option.map_map, Option.map_map]
    rfl
  unfold Track.sample
  rw [hfirst]
  cases t.first? with
  | none => rfl
  | some first =>
    simp only [Option.map_some, Option.bind_eq_bind, Option.bind_some, countFront_map hf, hget,
      hlast, hframe]
    split
    · rfl
    · generalize t.keys[t.countFront (fun x => decide (x ≤ frame)) - 1]? = a?
      generalize t.keys[t.countFront fun x => decide (x ≤ frame)]? = b?
      cases a? with
      | none => exact hheld
      | some a =>
        cases b? with
        | none => exact hheld
        | some b =>
          simp only [Option.map_some, hframe]
          split
          · rfl
          · exact congrArg some (transform_lerp_shifted d turn _ _ _)

end Transforms

section Runs

variable (v : Shift) (rate : FrameRate ℝ) (r : Run ℝ)

lemma keyOf_shifted (d : Vec3 ℝ) (turn offset current : ℝ) (frame : ℕ) (p : Pose ℝ) :
    keyOf (offset + turn) (current + turn) frame (p.shifted d) =
      (keyOf offset current frame p).shifted d turn := by
  have hyaw : unwrapYaw (current + turn) (p.yaw + (offset + turn)) =
      unwrapYaw current (p.yaw + offset) + turn := by
    rw [← add_assoc, unwrapYaw_shifted]
  unfold keyOf
  rw [show (p.shifted d).yaw = p.yaw from rfl, hyaw]
  rfl

lemma key_shifted (frame : ℕ) (p : Pose ℝ) :
    (r.shifted v).key frame (p.shifted v.place) = (r.key frame p).shifted v := by
  have hframe := frame_shifted v.place (v.mesh r.actor.name)
  have hkey := keyOf_shifted v.place (v.mesh r.actor.name) r.actor.yawOffset r.emittedYaw frame p
  have hpush := push_map hframe r.transform (keyOf r.actor.yawOffset r.emittedYaw frame p)
  rw [← hkey] at hpush
  exact congrArg₂ (fun (k : TransformKey ℝ) track =>
    { r.shifted v with emittedYaw := k.transform.rotation.yaw, transform := track }) hkey hpush

lemma start_shifted (a : Actor ℝ) : Run.start (a.shifted v) = (Run.start a).shifted v := by
  unfold Run.start
  rw [← key_shifted]
  unfold Run.shifted Actor.shifted Pose.shifted
  simp only [map_empty, List.map_nil, add_assoc]

lemma play_shifted (s : Span ℝ) :
    (r.shifted v).play rate (s.shifted v.place) = (r.play rate s).shifted v := by
  have hsample : (r.shifted v).sample rate (s.shifted v.place) = (r.sample rate s).shifted v :=
    List.foldl_hom (Run.shifted v) fun r frame => key_shifted v r frame _
  have hanimate : ∀ q : Run ℝ,
      (q.shifted v).animate rate (s.shifted v.place) = (q.animate rate s).shifted v := by
    intro q
    have hclip : (s.shifted v.place).clip.or (q.shifted v).clip = s.clip.or q.clip := rfl
    unfold Run.animate
    rw [hclip]
    cases s.clip.or q.clip with
    | none => rfl
    | some c => rfl
  have hdone := hanimate (r.sample rate s)
  rw [← hsample] at hdone
  exact congrArg (fun q : Run ℝ => { q with
    pose := (s.pose s.duration).shifted v.place
    cursor := q.cursor + s.duration
    spans := s.shifted v.place :: q.spans }) hdone

/-- The same for a span whose poses are known to be shifted. -/
lemma play_shifted_of {pose pose' : ℝ → Pose ℝ} (h : ∀ t, pose' t = (pose t).shifted v.place)
    (start duration : ℝ) (clip : Option (Clip ℝ)) :
    (r.shifted v).play rate ⟨start, duration, pose', clip⟩ =
      (r.play rate ⟨start, duration, pose, clip⟩).shifted v := by
  obtain rfl : pose' = fun t => (pose t).shifted v.place := funext h
  exact play_shifted v rate r ⟨start, duration, pose, clip⟩

lemma hold_shifted (duration : ℝ) (clip : Option (Clip ℝ)) :
    (r.shifted v).hold rate duration clip = (r.hold rate duration clip).shifted v :=
  play_shifted v rate r ⟨r.cursor, duration, fun _ => r.pose, clip⟩

lemma holdUntil_shifted (moment : ℝ) (clip : Option (Clip ℝ)) :
    (r.shifted v).holdUntil rate moment clip = (r.holdUntil rate moment clip).shifted v := by
  unfold Run.holdUntil
  by_cases h : moment ≤ r.cursor + Scalar.tolerance
  · rw [if_pos h, if_pos (show moment ≤ (r.shifted v).cursor + Scalar.tolerance from h)]
  · rw [if_neg h, if_neg (show ¬moment ≤ (r.shifted v).cursor + Scalar.tolerance from h)]
    exact hold_shifted v rate r _ clip

lemma locationAt_shifted (frame : ℕ) :
    (r.shifted v).locationAt frame = r.locationAt frame + v.place := by
  have hframe := frame_shifted v.place (v.mesh r.actor.name)
  have hlast : (r.shifted v).transform.lastFrame? = r.transform.lastFrame? :=
    lastFrame?_map hframe r.transform
  have hsample : (r.shifted v).transform.sample frame =
      (r.transform.sample frame).map (Transform.shifted v.place (v.mesh r.actor.name)) :=
    sample_shifted _ _ r.transform frame
  unfold Run.locationAt
  rw [hlast, hsample]
  cases r.transform.lastFrame? with
  | none => rfl
  | some last =>
    by_cases h : frame ≤ last
    · simp only [h, if_true]
      cases r.transform.sample frame with
      | none => rfl
      | some t => rfl
    · simp only [h, if_false]
      rfl

end Runs

section Commands

variable (v : Shift) (rate : FrameRate ℝ) (r : Run ℝ) (index : ℕ)

/-- An outcome with the run in it shifted. -/
noncomputable def shiftedRun (x : Run ℝ × List (Finding ℝ)) : Run ℝ × List (Finding ℝ) :=
  (x.1.shifted v, x.2)

lemma movePose_shifted (d : Vec3 ℝ) (p : Pose ℝ) (heading : ℝ) (profile : Profile ℝ)
    (drift : Option (Drift ℝ)) (t : ℝ) :
    Run.movePose (p.shifted d) heading profile drift t =
      (Run.movePose p heading profile drift t).shifted d := by
  unfold Run.movePose Pose.shifted
  simp only [vec3_add_right_comm]

lemma move_shifted (anchor : Anchor) (c : MoveCommand ℝ) :
    (r.shifted v).move rate anchor index c = shiftedRun v <$> r.move rate anchor index c := by
  have hplay (motion : ResolvedMotion ℝ) (drift : Option (Drift ℝ)) :=
    play_shifted_of v rate r (movePose_shifted v.place r.pose
      (c.direction.heading r.pose.yaw c.directionOffset) motion.profile drift)
      r.cursor motion.profile.duration c.animation
  unfold Run.move
  rw [map_bind]
  refine bind_congr fun motion => ?_
  cases c.corridor with
  | none =>
    exact congrArg (fun q : Run ℝ => Except.ok ({ q with lane := none }, _)) (hplay motion none)
  | some corridor =>
    dsimp only
    rw [map_bind]
    refine bind_congr fun entered => ?_
    let lane := some (c.direction.heading r.pose.yaw c.directionOffset, entered.2.1)
    exact congrArg (fun q : Run ℝ => Except.ok ({ q with lane := lane },
      motion.notes.map Finding.motion ++ entered.2.2)) (hplay motion (some entered.1))

lemma turnPose_shifted (d : Vec3 ℝ) (p : Pose ℝ) (delta duration t : ℝ) :
    Run.turnPose (p.shifted d) delta duration t = (Run.turnPose p delta duration t).shifted d :=
  rfl

lemma face_shifted (c : FaceCommand ℝ) (target : ℝ) :
    (r.shifted v).face rate c target = (r.face rate c target).shifted v := by
  have hyaw : (r.shifted v).pose.yaw = r.pose.yaw := rfl
  unfold Run.face
  rw [hyaw]
  exact play_shifted_of v rate r (turnPose_shifted v.place r.pose _ _) r.cursor _ c.animation

lemma stay_shifted (c : StayCommand ℝ) :
    (r.shifted v).stay rate index c = (r.stay rate index c).shifted v := by
  unfold Run.stay
  cases c.length with
  | lasting span => exact hold_shifted v rate r _ _
  | waiting moment => exact holdUntil_shifted v rate r _ _
  | tillEnd => rfl

lemma followPose_shifted (d : Vec3 ℝ) (p : Pose ℝ) (curve : Curve ℝ) (origin sign : ℝ)
    (profile : Profile ℝ) (t : ℝ) :
    Run.followPose (p.shifted d) (curve.shifted d) origin sign profile t =
      (Run.followPose p curve origin sign profile t).shifted d := by
  unfold Run.followPose
  rw [travelAt?_shifted]
  cases curve.travelAt? (origin + sign * profile.distanceAt t) with
  | none => rfl
  | some s => rfl

lemma follow_shifted (c : FollowCommand ℝ) (curve : Curve ℝ) :
    (r.shifted v).follow rate index c (curve.shifted v.place) =
      shiftedRun v <$> r.follow rate index c curve := by
  unfold Run.follow
  rw [map_bind]
  refine bind_congr fun first => ?_
  rw [map_bind]
  refine bind_congr fun last => ?_
  rw [map_bind]
  refine bind_congr fun motion => ?_
  have hplay (origin sign : ℝ) := play_shifted_of v rate r
    (followPose_shifted v.place r.pose curve origin sign motion.profile)
    r.cursor motion.profile.duration c.animation
  exact congrArg (fun q : Run ℝ => Except.ok ({ q with lane := none }, _)) (hplay _ _)

lemma finish_shifted (last : ℕ) :
    (r.shifted v).finish rate last =
      ((r.finish rate last).1.shifted v, (r.finish rate last).2) := by
  have hparked : (r.shifted v).parked = r.parked := rfl
  unfold Run.finish
  rw [hparked]
  cases r.parked with
  | none => rfl
  | some p =>
    exact congrArg (fun q : Run ℝ => (q, _))
      (hold_shifted v rate { r with parked := none } _ p.clip)

lemma subjectAt_shifted (frame : ℕ) :
    (r.shifted v).subjectAt frame = (r.subjectAt frame).map (Subject.shifted v.place) := by
  have hsample : (r.shifted v).transform.sample frame =
      (r.transform.sample frame).map (Transform.shifted v.place (v.mesh r.actor.name)) :=
    sample_shifted _ _ r.transform frame
  unfold Run.subjectAt
  rw [hsample, Option.map_map, Option.map_map]
  refine Option.map_congr fun t _ => ?_
  exact congrArg (fun yaw => Subject.mk _ yaw _) (add_sub_add_right_eq_sub _ _ _)

end Commands

end Stagecraft.Proofs
