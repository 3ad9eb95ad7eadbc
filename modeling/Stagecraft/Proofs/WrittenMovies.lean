import Stagecraft.Binary64
import Stagecraft.Proofs.MovieCodecs
import Stagecraft.Proofs.WrittenJson

/-!
# Written movies

A movie that is written as text is read back as the same movie. The text of its numbers has to read
back, and its script must not be nested deeper than text may be: a script whose groups hold only
sequences is far from that limit.
-/

namespace Stagecraft

/-- The numbers of a movie, in the order they are written. -/
def Movie.numbers {K : Type} (m : Movie K) : List (Number K) :=
  m.toJson.numbers

end Stagecraft

namespace Stagecraft.Proofs

section Nesting

variable {K α : Type} {n : Nat} {encode : α → Json K}

@[simp] lemma depth_obj_le {ms : List (String × Json K)} :
    (Json.obj ms).depth ≤ n + 1 ↔ Json.memberDepth ms ≤ n :=
  Nat.add_le_add_iff_right

@[simp] lemma memberDepth_nil_le : Json.memberDepth ([] : List (String × Json K)) ≤ n :=
  Nat.zero_le n

@[simp] lemma memberDepth_cons_le {name : String} {v : Json K} {ms : List (String × Json K)} :
    Json.memberDepth ((name, v) :: ms) ≤ n ↔ v.depth ≤ n ∧ Json.memberDepth ms ≤ n :=
  Nat.max_le

@[simp] lemma memberDepth_append_le {ms ns : List (String × Json K)} :
    Json.memberDepth (ms ++ ns) ≤ n ↔ Json.memberDepth ms ≤ n ∧ Json.memberDepth ns ≤ n := by
  induction ms with
  | nil => simp
  | cons m ms ih => rw [List.cons_append, memberDepth_cons_le, ih, memberDepth_cons_le, and_assoc]

@[simp] lemma memberDepth_optional_le {name : String} {a : Option α} :
    Json.memberDepth (Json.optional name encode a) ≤ n ↔ ∀ x ∈ a, (encode x).depth ≤ n := by
  cases a with
  | none => simp [Json.optional]
  | some a => simp [Json.optional]

@[simp] lemma depth_list_le {as : List α} :
    (Json.arr (as.map encode)).depth ≤ n + 1 ↔ ∀ a ∈ as, (encode a).depth ≤ n := by
  rw [Json.depth, Nat.add_le_add_iff_right]
  induction as with
  | nil => simp [Json.listDepth]
  | cons a as ih => rw [List.map_cons, Json.listDepth, Nat.max_le, ih, List.forall_mem_cons]

@[simp] lemma depth_ofReal (x : K) : (Json.ofReal x).depth = 0 := rfl

@[simp] lemma depth_str (s : String) : (Json.str (K := K) s).depth = 0 := rfl

@[simp] lemma depth_bool (b : Bool) : (Json.bool (K := K) b).depth = 0 := rfl

@[simp] lemma depth_distance (d : Distance K) : d.toJson.depth = 1 := rfl

@[simp] lemma depth_timeSpan (t : TimeSpan K) : t.toJson.depth = 1 := rfl

@[simp] lemma depth_speed (v : Speed K) : v.toJson.depth = 1 := rfl

@[simp] lemma depth_acceleration (a : Acceleration K) : a.toJson.depth = 1 := rfl

@[simp] lemma depth_vec3 (v : Vec3 K) : v.toJson.depth = 1 := rfl

@[simp] lemma depth_rotator (r : Rotator K) : r.toJson.depth = 1 := rfl

@[simp] lemma depth_zoomConfig (z : ZoomConfig K) : z.toJson.depth = 1 := rfl

@[simp] lemma depth_direction (d : Direction) : (d.toJson : Json K).depth = 0 := rfl

@[simp] lemma depth_frameRate (r : FrameRate K) : r.toJson.depth = 0 := rfl

@[simp] lemma depth_clip (c : Clip K) : c.toJson.depth = 1 := rfl

@[simp] lemma depth_corridor (c : Corridor K) : c.toJson.depth = 2 := rfl

lemma depth_motionSpec (s : MotionSpec K) : s.toJson.depth ≤ 2 := by
  simp [MotionSpec.toJson]

lemma depth_faceTarget (target : FaceTarget K) : target.toJson.depth ≤ 2 := by
  cases target <;> simp [FaceTarget.toJson]

lemma depth_stayLength (length : StayLength K) : length.toJson.depth ≤ 2 := by
  cases length <;> simp [StayLength.toJson]

lemma depth_command (c : Command K) : c.toJson.depth ≤ 3 := by
  cases c <;> simp [Command.toJson, depth_motionSpec, depth_faceTarget, depth_stayLength]

lemma depth_cameraCommand (c : CameraCommand K) : c.toJson.depth ≤ 3 := by
  cases c <;> simp [CameraCommand.toJson]

lemma depth_actor (a : Actor K) : a.toJson.depth ≤ 2 := by
  simp [Actor.toJson]

lemma depth_attachment (a : Attachment K) : a.toJson.depth ≤ 2 := by
  simp [Attachment.toJson]

lemma depth_camera (c : Camera K) : c.toJson.depth ≤ 3 := by
  simp [Camera.toJson, depth_attachment]

lemma depth_light (l : Light K) : l.toJson.depth ≤ 2 := by
  simp [Light.toJson, Json.depth, Json.listDepth]

lemma depth_spline (s : Spline K) : s.toJson.depth ≤ 3 := by
  simp [Spline.toJson]

lemma depth_timelineEvent (e : TimelineEvent K) : e.toJson.depth ≤ 2 := by
  cases e <;> simp [TimelineEvent.toJson]

lemma depth_sequence {b : Block K} (h : ∀ members, b ≠ .simultaneous members) :
    b.toJson.depth ≤ 5 := by
  cases b with
  | actor s => simp [Block.toJson, depth_command]
  | camera s => simp [Block.toJson, depth_cameraCommand]
  | simultaneous members => exact absurd rfl (h members)

/-- A group of sequences is two levels deeper than its members. -/
lemma depth_block {b : Block K}
    (h : ∀ members, b = .simultaneous members → ∀ inner, .simultaneous inner ∉ members) :
    b.toJson.depth ≤ 7 := by
  cases b with
  | actor s => exact Nat.le_trans (depth_sequence nofun) (by decide)
  | camera s => exact Nat.le_trans (depth_sequence nofun) (by decide)
  | simultaneous members =>
    have hmembers (b : Block K) (hb : b ∈ members) : b.toJson.depth ≤ 5 := by
      refine depth_sequence ?_
      rintro inner rfl
      exact h members rfl inner hb
    simpa [Block.toJson, listToJson_eq_map] using hmembers

lemma depth_movie {m : Movie K}
    (h : ∀ members, .simultaneous members ∈ m.script → ∀ inner, .simultaneous inner ∉ members) :
    m.toJson.depth ≤ 9 := by
  have hscript (b : Block K) (hb : b ∈ m.script) : b.toJson.depth ≤ 7 := by
    refine depth_block ?_
    rintro members rfl
    exact h members hb
  have hactors (a : Actor K) : a.toJson.depth ≤ 7 := Nat.le_trans (depth_actor a) (by decide)
  have hcameras (c : Camera K) : c.toJson.depth ≤ 7 := Nat.le_trans (depth_camera c) (by decide)
  have hlights (l : Light K) : l.toJson.depth ≤ 7 := Nat.le_trans (depth_light l) (by decide)
  have hsplines (s : Spline K) : s.toJson.depth ≤ 7 := Nat.le_trans (depth_spline s) (by decide)
  have htimeline (e : TimelineEvent K) : e.toJson.depth ≤ 7 :=
    Nat.le_trans (depth_timelineEvent e) (by decide)
  simpa [Movie.toJson, listToJson_eq_map, hactors, hcameras, hlights, hsplines, htimeline]
    using hscript

end Nesting

section Reading

variable {K : Type} [Scalar K] [Numeral K]

/-- A movie reads back unless it is nested too deep. -/
theorem read_write_of_depth (m : Movie K) (hnumbers : ∀ n ∈ m.numbers, n.ReadsBack)
    (hdepth : m.toJson.depth ≤ Json.nestingLimit) : Movie.read m.write = .ok m := by
  have hparse : Json.parse? m.write = some m.toJson :=
    parse_render .indented m.toJson hnumbers hdepth
  rw [read_of_parse hparse]
  exact ofRaw_toJson m

/-- A movie of finite numbers whose groups hold no groups is read back from its text, as every one
of its numbers is. -/
theorem movie_reads_back (m : Movie K)
    (hfinite : ∀ n ∈ m.numbers, Scalar.isFinite n.value = true)
    (hreads : ∀ n ∈ m.numbers, Scalar.isFinite n.value = true → n.ReadsBack)
    (hflat : ∀ members, .simultaneous members ∈ m.script →
      ∀ inner, .simultaneous inner ∉ members) : Movie.read m.write = .ok m := by
  have hnumbers : ∀ n ∈ m.numbers, n.ReadsBack := fun n hn => hreads n hn (hfinite n hn)
  have hdepth : m.toJson.depth ≤ Json.nestingLimit := Nat.le_trans (depth_movie hflat) (by decide)
  exact read_write_of_depth m hnumbers hdepth

end Reading

/-- A movie in machine numbers: a group, an attached camera, every kind of quantity and a name that
has to be escaped. -/
def duet : Movie Float where
  name := "Pas de \"deux\"\n"
  fps := ⟨23.976⟩
  duration := some (.minutes 1.5)
  actors := [{ Actor.named "Lead" with initialYaw := -90.0, mesh := some "Büste" },
    Actor.named "Partner"]
  cameras := [{ Camera.named "Wide" with
    attachment := some ⟨"Lead", none, ⟨-3e2, 0.0, 1.6e-7⟩, .level⟩
    autoZoom := some ⟨0.4, 24.0, 85.0⟩ }]
  lights := [.named "Key" .spot]
  splines := [.named "Arc" [⟨0, 0, 0⟩, ⟨1, 0.1, 0⟩]]
  script := [
    .simultaneous [
      .actor ⟨"Lead", [.stay ⟨.tillEnd, none⟩]⟩,
      .actor ⟨"Partner", [
        .face ⟨.actor "Lead", .seconds 1, none⟩,
        .move ⟨.forward, none, ⟨none, none, none, some (.kilometersPerHour 5), some ⟨1.25⟩⟩,
          none, none⟩,
        .follow ⟨"Arc", {}, none, some (.feet 2.5), false, some (.named "walk")⟩]⟩],
    .camera ⟨"Wide", [.lookAt "Lead" none, .stopTracking]⟩]
  timeline := [.marker (.seconds 2) "turn"]

theorem duet_reads_back :
    (∀ n ∈ duet.numbers, Scalar.isFinite n.value = true) ∧ (∀ n ∈ duet.numbers, n.ReadsBack) ∧
      Movie.read duet.write = .ok duet := by
  have hfinite : ∀ n ∈ duet.numbers, Scalar.isFinite n.value = true := by decide +kernel
  have hreads : ∀ n ∈ duet.numbers, n.ReadsBack := by decide +kernel
  have hflat : ∀ members, .simultaneous members ∈ duet.script →
      ∀ inner, .simultaneous inner ∉ members := by
    intro members hmembers inner hinner
    simp only [duet, List.mem_cons, Block.simultaneous.injEq, reduceCtorEq, List.not_mem_nil,
      or_false] at hmembers
    simp [hmembers] at hinner
  exact ⟨hfinite, hreads, movie_reads_back duet hfinite (fun n hn _ => hreads n hn) hflat⟩

end Stagecraft.Proofs
