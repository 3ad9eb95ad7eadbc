import Stagecraft.Proofs.ShiftedCurves

/-!
# Joined curves

The control points are padded so that every segment of a curve has a point in front of it and one
behind, around the end of a closed curve and repeated at the ends of an open one. A segment runs
between the two points in its middle, and its tangent at either is along the chord of the
neighbours of that point. The next segment has the same point and the same neighbours, so the curve
goes through its control points without a jump or a corner.
-/

namespace Stagecraft.Proofs

section Cubics

variable (s : ℝ) (p0 p1 p2 p3 : Vec3 ℝ)

/-- A segment starts at the second of its points. -/
lemma through_point_zero : (Cubic.through s p0 p1 p2 p3).point 0 = p1 := by
  have hpart (a b c d : ℝ) : a + b * 0 + c * (0 * 0) + d * (0 * 0 * 0) = a := by ring
  exact vec3_ext (hpart _ _ _ _) (hpart _ _ _ _) (hpart _ _ _ _)

/-- A segment ends at the third of its points. -/
lemma through_point_one : (Cubic.through s p0 p1 p2 p3).point 1 = p2 := by
  have hpart (a b c d : ℝ) : b + (c - a) * s * 1 +
      (a * (2 * s) + b * (s - 3) + c * (3 - 2 * s) + d * (-s)) * (1 * 1) +
      (a * (-s) + b * (2 - s) + c * (s - 2) + d * s) * (1 * 1 * 1) = c := by
    ring
  unfold Cubic.through
  simp only [two_real, three_real]
  exact vec3_ext (hpart _ _ _ _) (hpart _ _ _ _) (hpart _ _ _ _)

/-- At its start a segment is directed along the chord of the neighbours. -/
lemma through_derivative_zero : (Cubic.through s p0 p1 p2 p3).derivative 0 = (p2 - p0) * s := by
  have hpart (a b c two three : ℝ) : a + b * (two * 0) + c * (three * 0 * 0) = a := by ring
  exact vec3_ext (hpart _ _ _ _ _) (hpart _ _ _ _ _) (hpart _ _ _ _ _)

/-- At its end a segment is directed along the chord of the neighbours. -/
lemma through_derivative_one : (Cubic.through s p0 p1 p2 p3).derivative 1 = (p3 - p1) * s := by
  have hpart (a b c d : ℝ) : (c - a) * s +
      (a * (2 * s) + b * (s - 3) + c * (3 - 2 * s) + d * (-s)) * (2 * 1) +
      (a * (-s) + b * (2 - s) + c * (s - 2) + d * s) * (3 * 1 * 1) = (d - b) * s := by
    ring
  unfold Cubic.derivative Cubic.through
  simp only [two_real, three_real]
  exact vec3_ext (hpart _ _ _ _) (hpart _ _ _ _) (hpart _ _ _ _)

end Cubics

section Points

variable {K : Type}

/-- A segment has four points in a row, the first of them at its own place. -/
lemma segmentsOf_eq_some [Scalar K] {tension : K} {points : List (Vec3 K)} {i : ℕ}
    {s : CurveSegment K} (h : (Curve.segmentsOf tension points)[i]? = some s) :
    ∃ p0 p1 p2 p3, points[i]? = some p0 ∧ points[i + 1]? = some p1 ∧ points[i + 2]? = some p2 ∧
      points[i + 3]? = some p3 ∧ s = ⟨Cubic.through tension p0 p1 p2 p3, p2 - p1⟩ := by
  induction i generalizing points with
  | zero =>
    match points with
    | p0 :: p1 :: p2 :: p3 :: rest =>
      exact ⟨p0, p1, p2, p3, rfl, rfl, rfl, rfl, (Option.some.inj h).symm⟩
    | [] | [_] | [_, _] | [_, _, _] => cases h
  | succ i ih =>
    match points with
    | p0 :: p1 :: p2 :: p3 :: rest => exact ih h
    | [] | [_] | [_, _] | [_, _, _] => cases h

lemma segmentsOf_length [Scalar K] (tension : K) : ∀ points : List (Vec3 K),
    (Curve.segmentsOf tension points).length = points.length - 3
  | [] | [_] | [_, _] | [_, _, _] => rfl
  | _ :: p1 :: p2 :: p3 :: rest =>
    congrArg (· + 1) (segmentsOf_length tension (p1 :: p2 :: p3 :: rest))

variable {closed : Bool} {points : List (Vec3 K)} {i : ℕ}

lemma padded_open (h : points ≠ []) : Curve.padded false points =
    points.head h :: (points ++ [points.getLast h]) := by
  have hfirst : points.take 1 = [points.head h] := by
    rw [List.take_one, List.head?_eq_some_head h, Option.toList_some]
  unfold Curve.padded
  rw [hfirst, List.getLast?_eq_some_getLast h]
  rfl

lemma padded_closed (h : points ≠ []) : Curve.padded true points =
    points.getLast h :: (points ++ points.take 2) := by
  unfold Curve.padded
  rw [List.getLast?_eq_some_getLast h]
  rfl

lemma padded_length (h : 2 ≤ points.length) : (Curve.padded closed points).length =
    points.length + if closed then 3 else 2 := by
  have hne : points ≠ [] := List.ne_nil_of_length_pos (by omega)
  cases closed
  · simp [padded_open hne]
  · simp [padded_closed hne, h]

/-- The control points stand behind the one that is put in front of them. -/
lemma padded_succ (h : i < points.length) :
    (Curve.padded closed points)[i + 1]? = points[i]? := by
  have hne : points ≠ [] := List.ne_nil_of_length_pos (by omega)
  cases closed
  · rw [padded_open hne, List.getElem?_cons_succ, List.getElem?_append_left h]
  · rw [padded_closed hne, List.getElem?_cons_succ, List.getElem?_append_left h]

/-- Around the end of a closed curve come the points of its start, and in front of the start the
last point. -/
lemma padded_around (h : 2 ≤ points.length) :
    (Curve.padded true points)[0]? = points[points.length - 1]? ∧
      (Curve.padded true points)[points.length + 1]? = points[0]? ∧
      (Curve.padded true points)[points.length + 2]? = points[1]? := by
  have hne : points ≠ [] := List.ne_nil_of_length_pos (by omega)
  rw [padded_closed hne]
  refine ⟨?_, ?_, ?_⟩
  · rw [List.getElem?_cons_zero, ← List.getLast?_eq_some_getLast hne, List.getLast?_eq_getElem?]
  · rw [List.getElem?_cons_succ, List.getElem?_append_right le_rfl, Nat.sub_self,
      List.getElem?_take_of_lt (by norm_num)]
  · rw [List.getElem?_cons_succ, List.getElem?_append_right (Nat.le_add_right _ 1),
      Nat.add_sub_cancel_left, List.getElem?_take_of_lt (by norm_num)]

end Points

section Construction

variable {K : Type} [Scalar K] {spline : Spline K} {samples : ℕ} {curve : Curve K}

lemma ofSpline?_of_long (h : 2 ≤ spline.points.length) (samples : ℕ) :
    ∃ curve, Curve.ofSpline? spline samples = some curve := by
  unfold Curve.ofSpline?
  rw [if_neg (not_lt.mpr h)]
  exact ⟨_, rfl⟩

/-- What a curve is made of. -/
lemma ofSpline?_ok (h : Curve.ofSpline? spline samples = some curve) :
    2 ≤ spline.points.length ∧ curve.closed = spline.closed ∧
      curve.segments.toList =
        Curve.segmentsOf spline.tension (Curve.padded spline.closed spline.points) := by
  unfold Curve.ofSpline? at h
  split at h
  · cases h
  next hlong =>
    cases h
    exact ⟨not_lt.mp hlong, rfl, rfl⟩

lemma segments_eq_some (h : Curve.ofSpline? spline samples = some curve) {i : ℕ}
    {s : CurveSegment K} (hs : curve.segments[i]? = some s) : i < curve.segments.size ∧
      ∃ p0 p1 p2 p3, (Curve.padded spline.closed spline.points)[i]? = some p0 ∧
        (Curve.padded spline.closed spline.points)[i + 1]? = some p1 ∧
        (Curve.padded spline.closed spline.points)[i + 2]? = some p2 ∧
        (Curve.padded spline.closed spline.points)[i + 3]? = some p3 ∧
        s = ⟨Cubic.through spline.tension p0 p1 p2 p3, p2 - p1⟩ := by
  refine ⟨(Array.getElem?_eq_some_iff.mp hs).1, ?_⟩
  rw [← Array.getElem?_toList, (ofSpline?_ok h).2.2] at hs
  exact segmentsOf_eq_some hs

/-- A curve has a segment from each control point to the next. -/
lemma segments_size (h : Curve.ofSpline? spline samples = some curve) : curve.segments.size =
    if spline.closed then spline.points.length else spline.points.length - 1 := by
  obtain ⟨hlong, -, hsegments⟩ := ofSpline?_ok h
  rw [← Array.length_toList, hsegments, segmentsOf_length, padded_length hlong]
  cases spline.closed <;> simp

lemma ofSpline?_segments (h : Curve.ofSpline? spline samples = some curve) :
    0 < curve.segments.size := by
  have hlong := (ofSpline?_ok h).1
  rw [segments_size h]
  split <;> omega

/-- The segments of a curve are measured by four chords or more. -/
lemma ofSpline?_survey (h : Curve.ofSpline? spline samples = some curve) :
    curve.table = (Survey.ofSegments (max samples 4) curve.segments.toList).rows ∧
      curve.length = (Survey.ofSegments (max samples 4) curve.segments.toList).length := by
  unfold Curve.ofSpline? at h
  split at h
  · cases h
  · cases h
    exact ⟨rfl, rfl⟩

/-- The point at which a segment ends. -/
lemma padded_next (h : Curve.ofSpline? spline samples = some curve) {i : ℕ}
    (hi : i < curve.segments.size) : (Curve.padded spline.closed spline.points)[i + 2]? =
      spline.points[(i + 1) % spline.points.length]? := by
  have hlong := (ofSpline?_ok h).1
  rw [segments_size h] at hi
  cases hclosed : spline.closed
  · simp only [hclosed, Bool.false_eq_true, if_false] at hi
    have hnext : i + 1 < spline.points.length := by omega
    rw [padded_succ hnext, Nat.mod_eq_of_lt hnext]
  · simp only [hclosed, if_true] at hi
    rcases (Nat.succ_le_of_lt hi).lt_or_eq with hlt | heq
    · rw [padded_succ hlt, Nat.mod_eq_of_lt hlt]
    · have hi' : i + 2 = spline.points.length + 1 := by omega
      rw [← Nat.succ_eq_add_one i, heq, Nat.mod_self, hi']
      exact (padded_around hlong).2.1

/-- The last three points of a segment are the first three of the one that follows. -/
lemma padded_shared (h : Curve.ofSpline? spline samples = some curve) {i j k : ℕ} (hk : k < 3)
    (hij : j = i + 1 ∨ spline.closed = true ∧ i + 1 = curve.segments.size ∧ j = 0) :
    (Curve.padded spline.closed spline.points)[i + (k + 1)]? =
      (Curve.padded spline.closed spline.points)[j + k]? := by
  rcases hij with rfl | ⟨hclosed, hend, rfl⟩
  · rw [Nat.add_right_comm i 1 k, Nat.add_assoc]
  · have hlong := (ofSpline?_ok h).1
    obtain ⟨hfront, hfirst, hsecond⟩ := padded_around hlong
    rw [segments_size h, if_pos hclosed] at hend
    rw [hclosed]
    obtain rfl : i = spline.points.length - 1 := by omega
    match k, hk with
    | 0, _ => rw [padded_succ (by omega), hfront]
    | 1, _ =>
      have hback : spline.points.length - 1 + (1 + 1) = spline.points.length + 1 := by omega
      rw [hback, hfirst, padded_succ (by omega)]
    | 2, _ =>
      have hback : spline.points.length - 1 + (2 + 1) = spline.points.length + 2 := by omega
      rw [hback, hsecond, padded_succ (by omega)]

end Construction

section Splines

/-- A curve that goes from each control point to the next, without a jump or a corner where two
segments follow one another. -/
structure Joined (spline : Spline ℝ) (curve : Curve ℝ) : Prop where
  size_eq : curve.segments.size =
    if spline.closed then spline.points.length else spline.points.length - 1
  starts : ∀ {i : ℕ} {s : CurveSegment ℝ}, curve.segments[i]? = some s →
    spline.points[i]? = some (s.cubic.point 0)
  ends : ∀ {i : ℕ} {s : CurveSegment ℝ}, curve.segments[i]? = some s →
    spline.points[(i + 1) % spline.points.length]? = some (s.cubic.point 1)
  joins : ∀ {i j : ℕ} {s s' : CurveSegment ℝ}, curve.segments[i]? = some s →
    curve.segments[j]? = some s' →
    (j = i + 1 ∨ spline.closed = true ∧ i + 1 = curve.segments.size ∧ j = 0) →
    s.cubic.point 1 = s'.cubic.point 0 ∧ s.cubic.derivative 1 = s'.cubic.derivative 0

variable {spline : Spline ℝ} {samples : ℕ} {curve : Curve ℝ}

lemma joined_of_ofSpline? (h : Curve.ofSpline? spline samples = some curve) :
    Joined spline curve := by
  refine ⟨segments_size h, ?_, ?_, ?_⟩
  · intro i s hs
    obtain ⟨hi, p0, p1, p2, p3, -, h1, -, -, rfl⟩ := segments_eq_some h hs
    have hlt : i < spline.points.length := by
      rw [segments_size h] at hi
      split at hi <;> omega
    rw [through_point_zero, ← h1, padded_succ hlt]
  · intro i s hs
    obtain ⟨hi, p0, p1, p2, p3, -, -, h2, -, rfl⟩ := segments_eq_some h hs
    rw [through_point_one, ← h2, padded_next h hi]
  · intro i j s s' hs hs' hij
    obtain ⟨-, p0, p1, p2, p3, -, h1, h2, h3, rfl⟩ := segments_eq_some h hs
    obtain ⟨-, q0, q1, q2, q3, g0, g1, g2, -, rfl⟩ := segments_eq_some h hs'
    obtain rfl : p1 = q0 :=
      Option.some.inj ((h1.symm.trans (padded_shared h (k := 0) (by norm_num) hij)).trans g0)
    obtain rfl : p2 = q1 :=
      Option.some.inj ((h2.symm.trans (padded_shared h (k := 1) (by norm_num) hij)).trans g1)
    obtain rfl : p3 = q2 :=
      Option.some.inj ((h3.symm.trans (padded_shared h (k := 2) (by norm_num) hij)).trans g2)
    rw [through_point_one, through_point_zero, through_derivative_one, through_derivative_zero]
    exact ⟨rfl, rfl⟩

/-- A spline of two points or more is a curve that goes through its control points smoothly. -/
theorem curve_joins_points (h : 2 ≤ spline.points.length) (samples : ℕ) :
    ∃ curve, Curve.ofSpline? spline samples = some curve ∧ Joined spline curve := by
  obtain ⟨curve, hcurve⟩ := ofSpline?_of_long h samples
  exact ⟨curve, hcurve, joined_of_ofSpline? hcurve⟩

/-- From one point to another and back around. -/
noncomputable def lap : Spline ℝ :=
  ⟨"lap", [⟨0, 0, 0⟩, ⟨1, 0, 0⟩], true, 1 / 2⟩

theorem lap_joins_points : 2 ≤ lap.points.length ∧
    ∃ curve, Curve.ofSpline? lap 4 = some curve ∧ Joined lap curve :=
  ⟨le_rfl, curve_joins_points le_rfl 4⟩

end Splines

end Stagecraft.Proofs
