import Stagecraft.Proofs.ShiftedPlans

/-!
# Moved scenes

Two shifts that a movie may undergo by itself. When everything in it is moved by one vector, the
plan is moved and otherwise the same. When the mesh correction of one actor changes, the yaws in
the track of that actor change by as much, and nothing else does.
-/

namespace Stagecraft

section Translating

variable (d : Vec3 ℝ)

/-- A key at a moved place. -/
noncomputable def TransformKey.translated (k : TransformKey ℝ) : TransformKey ℝ :=
  ⟨k.frame, ⟨k.transform.location + d, k.transform.rotation⟩⟩

/-- A movie with all its actors, cameras and control points moved. -/
noncomputable def Movie.translated (m : Movie ℝ) : Movie ℝ :=
  { m with
    actors := m.actors.map fun a => { a with location := a.location + d }
    cameras := m.cameras.map fun c => { c with location := c.location + d }
    splines := m.splines.map fun s => { s with points := s.points.map (· + d) } }

/-- A reel with all the places in its tracks moved, and those where its entities are declared. -/
noncomputable def Reel.translated (r : Reel ℝ) : Reel ℝ :=
  { r with
    actors := r.actors.map fun a =>
      { a with
        actor := { a.actor with location := a.actor.location + d }
        transform := a.transform.map (TransformKey.translated d) }
    cameras := r.cameras.map fun c =>
      { c with
        camera := { c.camera with location := c.camera.location + d }
        transform := c.transform.map (TransformKey.translated d) } }

end Translating

section Turning

variable (turn : ℝ)

/-- A key with its yaw turned. -/
noncomputable def TransformKey.turned (k : TransformKey ℝ) : TransformKey ℝ :=
  ⟨k.frame, ⟨k.transform.location,
    { k.transform.rotation with yaw := k.transform.rotation.yaw + turn }⟩⟩

noncomputable def Actor.meshTurned (a : Actor ℝ) : Actor ℝ :=
  { a with yawOffset := a.yawOffset + turn }

/-- A movie with another mesh correction for its actor at an index. -/
noncomputable def Movie.meshTurned (i : ℕ) (m : Movie ℝ) : Movie ℝ :=
  { m with actors := m.actors.modify i (Actor.meshTurned turn) }

noncomputable def ActorReel.meshTurned (a : ActorReel ℝ) : ActorReel ℝ :=
  { a with
    actor := a.actor.meshTurned turn
    transform := a.transform.map (TransformKey.turned turn) }

/-- A reel with every yaw of its actor at an index turned, and its declared mesh correction. -/
noncomputable def Reel.meshTurned (i : ℕ) (r : Reel ℝ) : Reel ℝ :=
  { r with actors := r.actors.modify i (ActorReel.meshTurned turn) }

end Turning

end Stagecraft

namespace Stagecraft.Proofs

section Translating

variable (d : Vec3 ℝ) (m : Movie ℝ) (o : PlanOptions ℝ)

lemma actor_translated (a : Actor ℝ) :
    ({ a with location := a.location + d } : Actor ℝ) = a.shifted ⟨d, fun _ => 0⟩ :=
  congrArg (fun offset => { a with location := a.location + d, yawOffset := offset })
    (add_zero _).symm

lemma key_translated (k : TransformKey ℝ) : k.translated d = k.shifted d 0 :=
  congrArg (TransformKey.mk k.frame) (transform_shifted_zero d k.transform).symm

/-- To move a movie is to shift it with its meshes left as they are. -/
lemma movie_translated : m.translated d = m.shifted ⟨d, fun _ => 0⟩ := by
  unfold Movie.translated Movie.shifted
  simp only [actor_translated]
  rfl

lemma reel_translated (r : Reel ℝ) : r.translated d = r.shifted ⟨d, fun _ => 0⟩ := by
  have hkey : TransformKey.translated d = TransformKey.shifted d 0 := funext (key_translated d)
  unfold Reel.translated Reel.shifted
  simp only [actor_translated, hkey]
  rfl

/-- The plan of a movie does not depend on where its origin is: moving everything in it moves every
key and changes nothing else. -/
theorem plan_translated : (m.translated d).plan o = Reel.translated d <$> m.plan o := by
  have hreel : Reel.translated d = Reel.shifted ⟨d, fun _ => 0⟩ := funext (reel_translated d)
  rw [movie_translated, plan_shifted, hreel]

end Translating

section Modified

variable {α : Type} (i : ℕ)

/-- Under distinct keys the entry at an index is the one with its key. -/
lemma modify_eq_map (key : α → String) (f : α → α) {l : List α} (hkeys : (l.map key).Nodup) :
    l.modify i f = l.map fun a => if l[i]?.map key = some (key a) then f a else a := by
  apply List.ext_getElem?
  intro j
  rw [List.getElem?_modify, List.getElem?_map]
  cases hj : l[j]? with
  | none => rfl
  | some a =>
    have hsame : i = j ↔ l[i]?.map key = some (key a) := by
      have hlt : j < (l.map key).length := by
        rw [List.length_map]
        exact (List.getElem?_eq_some_iff.mp hj).1
      have hget : (l.map key)[j]? = some (key a) := by
        rw [List.getElem?_map, hj]
        rfl
      rw [← List.getElem?_map, ← hget, eq_comm, ← List.getElem?_inj hlt hkeys, eq_comm]
    simp [hsame]

lemma forall₂_modify {R : α → α → Prop} {f : α → α} (hrefl : ∀ a, R a a)
    (hset : ∀ a, R a (f a)) (l : List α) : List.Forall₂ R l (l.modify i f) := by
  induction l generalizing i with
  | nil =>
    rw [List.modify_nil]
    exact .nil
  | cons a l ih =>
    cases i with
    | zero =>
      rw [List.modify_zero_cons]
      exact .cons (hset a) (List.forall₂_same.mpr fun b _ => hrefl b)
    | succ i =>
      rw [List.modify_succ_cons]
      exact .cons (hrefl a) (ih i)

end Modified

section Turning

variable (turn : ℝ) (i : ℕ)

/-- The shift that turns the mesh of the actor at an index, which is told by its name. -/
noncomputable def meshShift (actors : List (Actor ℝ)) : Shift where
  place := Vec3.zero
  mesh name := if actors[i]?.map Actor.name = some name then turn else 0

lemma vec3_add_zero (a : Vec3 ℝ) : a + Vec3.zero = a := by
  have hzero : ∀ x : ℝ, x + (@OfNat.ofNat ℝ 0 Scalar.instOfNat) = x := by
    intro x
    rw [zero_real, add_zero]
  exact vec3_ext (hzero _) (hzero _) (hzero _)

lemma key_turned (k : TransformKey ℝ) : k.shifted Vec3.zero turn = k.turned turn :=
  congrArg (fun l => TransformKey.mk k.frame ⟨l, _⟩) (vec3_add_zero _)

lemma track_unshifted (t : TransformTrack ℝ) : t.map (TransformKey.shifted Vec3.zero 0) = t := by
  have hkey : TransformKey.shifted Vec3.zero 0 = id := by
    funext k
    unfold TransformKey.shifted
    rw [transform_shifted_zero, vec3_add_zero]
    rfl
  unfold Track.map
  rw [hkey, Array.map_id]

lemma actor_meshShift (actors : List (Actor ℝ)) (a : Actor ℝ) :
    a.shifted (meshShift turn i actors) =
      if actors[i]?.map Actor.name = some a.name then a.meshTurned turn else a := by
  have hplace : a.location + (meshShift turn i actors).place = a.location := vec3_add_zero _
  unfold Actor.shifted
  rw [hplace]
  unfold meshShift
  dsimp only
  split
  · rfl
  · rw [add_zero]

lemma actorReel_meshShift (actors : List (Actor ℝ)) (a : ActorReel ℝ) :
    a.shifted (meshShift turn i actors) =
      if actors[i]?.map Actor.name = some a.actor.name then a.meshTurned turn else a := by
  have hactor := actor_meshShift turn i actors a.actor
  have hturned : TransformKey.shifted Vec3.zero turn = TransformKey.turned turn :=
    funext (key_turned turn)
  unfold ActorReel.shifted
  rw [hactor]
  unfold meshShift
  dsimp only
  split
  · rw [hturned]
    rfl
  · rw [track_unshifted]

lemma movie_meshTurned {m : Movie ℝ} (hnames : (m.actors.map Actor.name).Nodup) :
    m.meshTurned turn i = m.shifted (meshShift turn i m.actors) := by
  have hactors : m.actors.modify i (Actor.meshTurned turn) =
      m.actors.map (Actor.shifted (meshShift turn i m.actors)) := by
    rw [modify_eq_map i Actor.name _ hnames]
    exact List.map_congr_left fun a _ => (actor_meshShift turn i m.actors a).symm
  have hcameras : m.cameras.map (Camera.shifted Vec3.zero) = m.cameras := by
    refine (List.map_congr_left fun c _ => ?_).trans (List.map_id m.cameras)
    unfold Camera.shifted
    rw [vec3_add_zero]
    rfl
  have hsplines : m.splines.map (Spline.shifted Vec3.zero) = m.splines := by
    refine (List.map_congr_left fun s _ => ?_).trans (List.map_id m.splines)
    unfold Spline.shifted
    simp only [vec3_add_zero, List.map_id']
    rfl
  have hplace : (meshShift turn i m.actors).place = Vec3.zero := rfl
  unfold Movie.meshTurned Movie.shifted
  rw [hactors, hplace, hcameras, hsplines]

lemma reel_meshTurned {r : Reel ℝ} {actors : List (Actor ℝ)}
    (hactors : r.actors.map ActorReel.actor = actors) (hnames : (actors.map Actor.name).Nodup) :
    r.meshTurned turn i = r.shifted (meshShift turn i actors) := by
  have hkeys : (r.actors.map fun a => a.actor.name).Nodup := by
    rw [← hactors, List.map_map] at hnames
    exact hnames
  have hname : r.actors[i]?.map (fun a => a.actor.name) = actors[i]?.map Actor.name := by
    rw [← hactors, List.getElem?_map, Option.map_map]
    rfl
  have hmodified : r.actors.modify i (ActorReel.meshTurned turn) =
      r.actors.map (ActorReel.shifted (meshShift turn i actors)) := by
    rw [modify_eq_map i (fun a : ActorReel ℝ => a.actor.name) _ hkeys, hname]
    exact List.map_congr_left fun a _ => (actorReel_meshShift turn i actors a).symm
  have hcameras : r.cameras.map (CameraReel.shifted Vec3.zero) = r.cameras := by
    refine (List.map_congr_left fun c _ => ?_).trans (List.map_id r.cameras)
    unfold CameraReel.shifted Camera.shifted
    rw [vec3_add_zero, track_unshifted]
    rfl
  have hplace : (meshShift turn i actors).place = Vec3.zero := rfl
  unfold Reel.meshTurned Reel.shifted
  rw [hmodified, hplace, hcameras]

lemma meshTurned_issues (m : Movie ℝ) : (m.meshTurned turn i).issues = m.issues := by
  have hactors : List.Forall₂ (fun a a' : Actor ℝ =>
      Movie.actorIssues a' = Movie.actorIssues a ∧ a'.name = a.name) m.actors
      (m.meshTurned turn i).actors :=
    forall₂_modify i (fun _ => ⟨rfl, rfl⟩) (fun _ => ⟨rfl, rfl⟩) m.actors
  have hdeclared : (m.meshTurned turn i).declared = m.declared := by
    have hnames : (m.meshTurned turn i).actors.map (fun a => (a.name, EntityKind.actor)) =
        m.actors.map fun a => (a.name, EntityKind.actor) :=
      (map_eq_of_forall₂ (hactors.imp fun a a' ha =>
        congrArg (fun name => (name, EntityKind.actor)) ha.2.symm)).symm
    unfold Movie.declared
    rw [hnames]
    rfl
  exact ChecksLike.issues_eq ⟨rfl, rfl, rfl, rfl, rfl, hdeclared, hactors,
    List.forall₂_same.mpr fun _ _ => rfl, List.forall₂_same.mpr fun _ _ => rfl⟩

/-- The mesh correction of an actor shows in the yaws of its own track and nowhere else: not in
where it goes, nor in what the cameras see that are attached to it or look at it. -/
theorem plan_meshTurned (m : Movie ℝ) (o : PlanOptions ℝ) :
    (m.meshTurned turn i).plan o = Reel.meshTurned turn i <$> m.plan o := by
  by_cases h : m.issues = []
  · have hnames := (checked_of_issues_nil h).actorNames_nodup
    rw [movie_meshTurned turn i hnames, plan_shifted]
    cases hplan : m.plan o with
    | error e => rfl
    | ok reel =>
      obtain ⟨s, hplayed, hshows⟩ := plan_ok hplan
      have hactors : reel.actors.map ActorReel.actor = m.actors := by
        have hfollows := played_follows (valid_of_issues_nil h) hplayed
        rw [hshows.actors_eq, List.map_map, ← start_actors m o, ← hfollows.actors_eq]
        rfl
      exact congrArg Except.ok (reel_meshTurned turn i hactors hnames).symm
  · have h' : (m.meshTurned turn i).issues ≠ [] := (meshTurned_issues turn i m).trans_ne h
    rw [plan_invalid h, plan_invalid h', meshTurned_issues]
    rfl

end Turning

end Stagecraft.Proofs
