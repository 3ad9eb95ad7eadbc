import Stagecraft.Curve
import Stagecraft.Proofs.RealScalar

/-!
# Shifted curves

A curve through moved points is the moved curve: the weights of its cubics add up to nothing, so
all but their constant terms stay, and with them the lengths, the table and the headings along it.
-/

namespace Stagecraft

section Shifting

variable (d : Vec3 ℝ)

noncomputable def Spline.shifted (s : Spline ℝ) : Spline ℝ :=
  { s with points := s.points.map (· + d) }

noncomputable def CurveSegment.shifted (s : CurveSegment ℝ) : CurveSegment ℝ :=
  { s with cubic := { s.cubic with c0 := s.cubic.c0 + d } }

noncomputable def Curve.shifted (c : Curve ℝ) : Curve ℝ :=
  { c with segments := c.segments.map (CurveSegment.shifted d) }

noncomputable def CurveSample.shifted (s : CurveSample ℝ) : CurveSample ℝ :=
  { s with position := s.position + d }

end Shifting

end Stagecraft

namespace Stagecraft.Proofs

section Vectors

variable (a b d : Vec3 ℝ)

lemma vec3_ext {a b : Vec3 ℝ} (hx : a.x = b.x) (hy : a.y = b.y) (hz : a.z = b.z) : a = b := by
  cases a
  cases b
  cases hx
  cases hy
  cases hz
  rfl

lemma vec3_add_right_comm : a + d + b = a + b + d :=
  vec3_ext (add_right_comm _ _ _) (add_right_comm _ _ _) (add_right_comm _ _ _)

lemma vec3_add_sub_add : a + d - (b + d) = a - b :=
  vec3_ext (add_sub_add_right_eq_sub _ _ _) (add_sub_add_right_eq_sub _ _ _)
    (add_sub_add_right_eq_sub _ _ _)

lemma lerp_shifted (t : ℝ) : (a + d).lerp (b + d) t = a.lerp b t + d := by
  have hpart (x y e : ℝ) : x + e + (y + e - (x + e)) * t = x + (y - x) * t + e := by ring
  exact vec3_ext (hpart _ _ _) (hpart _ _ _) (hpart _ _ _)

lemma distance_shifted : (a + d).distance (b + d) = a.distance b := by
  unfold Vec3.distance
  rw [vec3_add_sub_add]

end Vectors

section Curves

variable (d : Vec3 ℝ)

lemma point_shifted (c : Cubic ℝ) (t : ℝ) :
    Cubic.point { c with c0 := c.c0 + d } t = c.point t + d := by
  unfold Cubic.point
  simp only [vec3_add_right_comm]

/-- A cubic is moved with the points it goes through: its weights add up to nothing. -/
lemma through_shifted (s : ℝ) (p0 p1 p2 p3 : Vec3 ℝ) :
    Cubic.through s (p0 + d) (p1 + d) (p2 + d) (p3 + d) =
      { Cubic.through s p0 p1 p2 p3 with c0 := p1 + d } := by
  have hweights (two three a b c e x : ℝ) :
      (a + x) * (two * s) + (b + x) * (s - three) + (c + x) * (three - two * s) + (e + x) * (-s) =
        a * (two * s) + b * (s - three) + c * (three - two * s) + e * (-s) := by
    ring
  have hweights' (two a b c e x : ℝ) :
      (a + x) * (-s) + (b + x) * (two - s) + (c + x) * (s - two) + (e + x) * s =
        a * (-s) + b * (two - s) + c * (s - two) + e * s := by
    ring
  unfold Cubic.through
  congr 1
  · rw [vec3_add_sub_add]
  · exact vec3_ext (hweights _ _ _ _ _ _ _) (hweights _ _ _ _ _ _ _) (hweights _ _ _ _ _ _ _)
  · exact vec3_ext (hweights' _ _ _ _ _ _) (hweights' _ _ _ _ _ _) (hweights' _ _ _ _ _ _)

lemma segmentsOf_shifted (s : ℝ) (points : List (Vec3 ℝ)) :
    Curve.segmentsOf s (points.map (· + d)) =
      (Curve.segmentsOf s points).map (CurveSegment.shifted d) := by
  fun_induction Curve.segmentsOf s points with
  | case1 p0 p1 p2 p3 rest ih =>
    simp only [List.map_cons] at ih ⊢
    rw [Curve.segmentsOf, ih, through_shifted, vec3_add_sub_add]
    rfl
  | case2 points h =>
    match points with
    | [] | [_] | [_, _] | [_, _, _] => rfl
    | p0 :: p1 :: p2 :: p3 :: rest => exact absurd rfl (h p0 p1 p2 p3 rest)

lemma padded_shifted (closed : Bool) (points : List (Vec3 ℝ)) :
    Curve.padded closed (points.map (· + d)) = (Curve.padded closed points).map (· + d) := by
  unfold Curve.padded
  cases closed
  · simp [Option.toList_map]
  · simp [Option.toList_map]

/-- A survey that has come to a moved point. -/
noncomputable def shiftedSurvey (s : Survey ℝ) : Survey ℝ :=
  { s with last := s.last + d }

lemma chord_shifted (samples : ℕ) (segment : CurveSegment ℝ) (index : ℕ) (s : Survey ℝ) (k : ℕ) :
    Survey.chord samples (segment.shifted d) index (shiftedSurvey d s) k =
      shiftedSurvey d (Survey.chord samples segment index s k) := by
  unfold Survey.chord shiftedSurvey CurveSegment.shifted
  simp only [point_shifted, distance_shifted]

lemma along_shifted (samples : ℕ) (s : Survey ℝ) (segment : CurveSegment ℝ × ℕ) :
    Survey.along samples (shiftedSurvey d s) (segment.map (CurveSegment.shifted d) id) =
      shiftedSurvey d (Survey.along samples s segment) :=
  List.foldl_hom (shiftedSurvey d) fun s k => chord_shifted d samples segment.1 segment.2 s k

lemma survey_shifted (samples : ℕ) (segments : List (CurveSegment ℝ × ℕ)) (s : Survey ℝ) :
    (segments.map (Prod.map (CurveSegment.shifted d) id)).foldl (Survey.along samples)
        (shiftedSurvey d s) =
      shiftedSurvey d (segments.foldl (Survey.along samples) s) := by
  rw [List.foldl_map]
  exact List.foldl_hom (shiftedSurvey d) fun s segment => along_shifted d samples s segment

/-- The lengths along a curve do not change when it is moved. -/
lemma ofSegments_shifted (samples : ℕ) (segments : List (CurveSegment ℝ)) :
    (Survey.ofSegments samples (segments.map (CurveSegment.shifted d))).rows =
        (Survey.ofSegments samples segments).rows ∧
      (Survey.ofSegments samples (segments.map (CurveSegment.shifted d))).length =
        (Survey.ofSegments samples segments).length := by
  cases segments with
  | nil => exact ⟨rfl, rfl⟩
  | cons first rest =>
    have hwhole : Survey.ofSegments samples ((first :: rest).map (CurveSegment.shifted d)) =
        shiftedSurvey d (Survey.ofSegments samples (first :: rest)) := by
      unfold Survey.ofSegments
      rw [List.zipIdx_map]
      refine Eq.trans ?_ (survey_shifted d samples _ _)
      exact congrArg (fun p => List.foldl (Survey.along samples) ⟨p, _, _⟩ _)
        (point_shifted d first.cubic _)
    rw [hwhole]
    exact ⟨rfl, rfl⟩

lemma ofSpline?_shifted (s : Spline ℝ) (samplesPerSegment : ℕ) :
    Curve.ofSpline? (s.shifted d) samplesPerSegment =
      (Curve.ofSpline? s samplesPerSegment).map (Curve.shifted d) := by
  unfold Curve.ofSpline? Spline.shifted
  simp only [List.length_map, padded_shifted, segmentsOf_shifted]
  split
  · rfl
  · simp [ofSegments_shifted, Curve.shifted]

lemma segment_sample_shifted (s : CurveSegment ℝ) (t : ℝ) :
    (s.shifted d).sample t = (s.sample t).shifted d :=
  congrArg (fun p => CurveSample.mk p (s.sample t).tangent) (point_shifted d s.cubic t)

lemma locate_shifted (c : Curve ℝ) (distance : ℝ) :
    (c.shifted d).locate distance = c.locate distance := by
  have hsize : (c.shifted d).segments.size = c.segments.size := Array.size_map
  unfold Curve.locate Curve.parameterAt
  rw [hsize]
  rfl

lemma sampleAt?_shifted (c : Curve ℝ) (distance : ℝ) :
    (c.shifted d).sampleAt? distance = (c.sampleAt? distance).map (CurveSample.shifted d) := by
  have hsegment : (c.shifted d).segments[(c.locate distance).1]? =
      c.segments[(c.locate distance).1]?.map (CurveSegment.shifted d) := Array.getElem?_map
  unfold Curve.sampleAt?
  rw [locate_shifted]
  dsimp only
  rw [hsegment]
  cases c.segments[(c.locate distance).1]? with
  | none => simp
  | some s =>
    by_cases hlength : 0 ≤ c.length
    · simp [Curve.shifted, hlength, segment_sample_shifted]
    · simp [Curve.shifted, hlength]

lemma travelAt?_shifted (c : Curve ℝ) (distance : ℝ) :
    (c.shifted d).travelAt? distance = (c.travelAt? distance).map (CurveSample.shifted d) := by
  have hwrap : (c.shifted d).wrap? distance = c.wrap? distance := rfl
  unfold Curve.travelAt?
  rw [hwrap]
  cases c.wrap? distance with
  | none => rfl
  | some s => exact sampleAt?_shifted d c s

end Curves

end Stagecraft.Proofs
