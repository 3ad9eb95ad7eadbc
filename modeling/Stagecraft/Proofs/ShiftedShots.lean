import Stagecraft.Proofs.ScriptSteps
import Stagecraft.Proofs.ShiftedRuns

/-!
# Shifted shots

A camera sees its subjects from where it stands, and stands where it is declared or with the actor
it is attached to. So in a moved scene it sees the same, from the moved place; the mesh corrections
do not reach it, since a subject's heading is read without its own.
-/

namespace Stagecraft

section Shifting

variable (d : Vec3 ℝ)

noncomputable def Camera.shifted (c : Camera ℝ) : Camera ℝ :=
  { c with location := c.location + d }

noncomputable def CueSheet.shifted (s : CueSheet ℝ) : CueSheet ℝ :=
  { s with camera := s.camera.shifted d }

noncomputable def Shot.shifted (s : Shot ℝ) : Shot ℝ :=
  { s with transform := s.transform.shifted d 0 }

noncomputable def Shooting.shifted (s : Shooting ℝ) : Shooting ℝ :=
  { s with transform := s.transform.map (TransformKey.shifted d 0) }

noncomputable def CameraReel.shifted (c : CameraReel ℝ) : CameraReel ℝ :=
  { c with
    camera := c.camera.shifted d
    transform := c.transform.map (TransformKey.shifted d 0) }

end Shifting

end Stagecraft

namespace Stagecraft.Proofs

section Shots

variable (d : Vec3 ℝ)

/-- What is not turned keeps its rotation. -/
lemma transform_shifted_zero (t : Transform ℝ) : t.shifted d 0 = ⟨t.location + d, t.rotation⟩ :=
  congrArg (fun yaw => Transform.mk _ (Rotator.mk _ yaw _)) (add_zero _)

lemma base_shifted (c : Camera ℝ) (subject? : String → Option (Subject ℝ)) :
    Framing.base (c.shifted d) (fun n => (subject? n).map (Subject.shifted d)) =
      (Framing.base c subject?).shifted d 0 := by
  have hattachment : (c.shifted d).attachment = c.attachment := rfl
  unfold Framing.base
  rw [hattachment, transform_shifted_zero]
  cases c.attachment with
  | none => rfl
  | some a =>
    simp only [Option.bind_some]
    cases subject? a.actor with
    | none => rfl
    | some s =>
      exact congrArg (fun l => Transform.mk l _) (vec3_add_right_comm _ _ _)

lemma trackedPoint_shifted (p : Vec3 ℝ) (height heightPct : ℝ) :
    Optics.trackedPoint (p + d) height heightPct = Optics.trackedPoint p height heightPct + d :=
  vec3_add_right_comm _ _ _

lemma aimPoint?_shifted (aim : Option (Aim ℝ)) (subject? : String → Option (Subject ℝ)) :
    Framing.aimPoint? aim (fun n => (subject? n).map (Subject.shifted d)) =
      (Framing.aimPoint? aim subject?).map (· + d) := by
  cases aim with
  | none => rfl
  | some aim =>
    unfold Framing.aimPoint?
    simp only [Option.bind_eq_bind, Option.bind_some]
    cases subject? aim.actor with
    | none => rfl
    | some s => exact congrArg some (trackedPoint_shifted d _ _ _)

lemma lookAt_shifted (a b : Vec3 ℝ) : Optics.lookAt (a + d) (b + d) = Optics.lookAt a b := by
  unfold Optics.lookAt
  rw [vec3_add_sub_add]

lemma shot?_shifted (f : Framing ℝ) (c : Camera ℝ) (subject? : String → Option (Subject ℝ)) :
    f.shot? (c.shifted d) (fun n => (subject? n).map (Subject.shifted d)) =
      (f.shot? c subject?).map (Shot.shifted d) := by
  have hlook : ∀ p : Vec3 ℝ, Optics.lookAt (p + d) ∘ (· + d) = Optics.lookAt p :=
    fun p => funext fun q => lookAt_shifted d p q
  have hfocus : ∀ p : Vec3 ℝ, Optics.focusDistance (p + d) ∘ (· + d) = Optics.focusDistance p :=
    fun p => funext fun q => distance_shifted p q d
  have hsensor : (c.shifted d).sensorHeight = c.sensorHeight := rfl
  have hshot : ∀ (s : Shot ℝ), s.shifted d =
      { s with transform := ⟨s.transform.location + d, s.transform.rotation⟩ } :=
    fun s => congrArg (fun t => { s with transform := t }) (transform_shifted_zero d s.transform)
  unfold Framing.shot?
  simp only [base_shifted, transform_shifted_zero, aimPoint?_shifted, Option.map_map, hlook, hfocus,
    hsensor]
  cases f.zoom with
  | none => simp [hshot]
  | some z =>
    simp only [Option.bind_some]
    cases subject? z.1 with
    | none => simp [hshot]
    | some s =>
      have hdistance : ∀ (p : Vec3 ℝ) (heightPct : ℝ), (p + d).distance
          (Optics.trackedPoint (s.shifted d).location s.height heightPct) =
          p.distance (Optics.trackedPoint s.location s.height heightPct) := by
        intro p heightPct
        exact (congrArg (p + d).distance (trackedPoint_shifted d _ _ _)).trans
          (distance_shifted _ _ _)
      have hheight : (s.shifted d).height = s.height := rfl
      simp only [Option.map_some, Function.comp_apply, hdistance, hheight]
      generalize ZoomConfig.solve? z.2 _ _ _ = zoom?
      cases zoom? with
      | none => rfl
      | some zoom => simp [hshot]

section Frames

variable (rate : FrameRate ℝ) (o : PlanOptions ℝ) (c : Camera ℝ)

lemma cue_shifted (s : Shooting ℝ) (q : Cue ℝ) :
    Shooting.cue (c.shifted d) o (s.shifted d) q = (Shooting.cue c o s q).shifted d := by
  unfold Shooting.cue
  cases q.command with
  | lookAt | autoFocus | autoZoom | setFocalLength | stopTracking | hold => rfl

lemma advance_shifted (frame : ℕ) (s : Shooting ℝ) :
    (s.shifted d).advance rate (c.shifted d) o frame =
      (s.advance rate c o frame).shifted d := by
  have hdue : (s.cues.takeWhile (Shooting.isDue rate frame)).foldl
      (Shooting.cue (c.shifted d) o) (s.shifted d) =
      ((s.cues.takeWhile (Shooting.isDue rate frame)).foldl (Shooting.cue c o) s).shifted d :=
    List.foldl_hom (Shooting.shifted d) fun s q => cue_shifted d o c s q
  exact congrArg (fun q : Shooting ℝ =>
    { q with cues := s.cues.dropWhile (Shooting.isDue rate frame) }) hdue

variable {subject? subject?' : ℕ → String → Option (Subject ℝ)}

lemma frame?_shifted (h : ∀ f n, subject?' f n = (subject? f n).map (Subject.shifted d))
    (s : Shooting ℝ) (frame : ℕ) :
    (s.shifted d).frame? rate (c.shifted d) o subject?' frame =
      (s.frame? rate c o subject? frame).map (Shooting.shifted d) := by
  have hsubject : subject?' frame = fun n => (subject? frame n).map (Subject.shifted d) :=
    funext (h frame)
  unfold Shooting.frame?
  rw [advance_shifted, hsubject]
  generalize s.advance rate c o frame = q
  have hshot : (q.shifted d).framing.shot? (c.shifted d)
      (fun n => (subject? frame n).map (Subject.shifted d)) =
      (q.framing.shot? c (subject? frame)).map (Shot.shifted d) := shot?_shifted d _ _ _
  dsimp only
  rw [hshot]
  cases q.framing.shot? c (subject? frame) with
  | none => rfl
  | some shot =>
    have hpush : (q.shifted d).transform.push ⟨frame, (shot.shifted d).transform⟩ =
        (q.transform.push ⟨frame, shot.transform⟩).map (TransformKey.shifted d 0) :=
      push_map (frame_shifted d 0) q.transform ⟨frame, shot.transform⟩
    simp only [Option.map_some, Option.bind_eq_bind, Option.bind_some, hpush]
    rfl

lemma shoot?_shifted (h : ∀ f n, subject?' f n = (subject? f n).map (Subject.shifted d))
    (last : ℕ) (s : CueSheet ℝ) :
    (s.shifted d).shoot? rate o subject?' last =
      (s.shoot? rate o subject? last).map fun x => (x.1.shifted d, x.2) := by
  have hframes : (List.range (last + 1)).foldlM
      (Shooting.frame? rate (s.camera.shifted d) o subject?')
      ((Shooting.start s).shifted d) =
      ((List.range (last + 1)).foldlM (Shooting.frame? rate s.camera o subject?)
        (Shooting.start s)).map (Shooting.shifted d) :=
    foldlM_embed (Shooting.shifted d) (frame?_shifted d rate o s.camera h) _ _
  have hstart : Shooting.start (s.shifted d) = (Shooting.start s).shifted d :=
    congrArg (fun track => { Shooting.start s with transform := track }) (map_empty _).symm
  have hcamera : (s.shifted d).camera = s.camera.shifted d := rfl
  unfold CueSheet.shoot?
  rw [hstart, hcamera, hframes]
  cases (List.range (last + 1)).foldlM (Shooting.frame? rate s.camera o subject?)
    (Shooting.start s) with
  | none => rfl
  | some done => rfl

end Frames

end Shots

end Stagecraft.Proofs
