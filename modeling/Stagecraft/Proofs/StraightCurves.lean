import Stagecraft.Proofs.MeasuredCurves

/-!
# Straight curves

Between two points, tangents of full tension make for a straight curve with an even parameter. It
is as long as the points are apart, into however many chords it is divided.
-/

namespace Stagecraft.Proofs

section Lines

variable (p q : Vec3 ℝ)

/-- A straight way from one point to another. -/
noncomputable def straight (name : String) : Spline ℝ :=
  ⟨name, [p, q], false, 1⟩

lemma line_part (a b t : ℝ) :
    a + (b - a) * 1 * t + (a * (2 * 1) + a * (1 - 3) + b * (3 - 2 * 1) + b * (-1)) * (t * t) +
      (a * (-1) + a * (2 - 1) + b * (1 - 2) + b * 1) * (t * t * t) = a + (b - a) * t := by
  ring

/-- The segment between two points without neighbours runs evenly along the line. -/
lemma line_point (t : ℝ) : (Cubic.through (1 : ℝ) p p q q).point t = p + (q - p) * t := by
  unfold Cubic.through
  simp only [two_real, three_real]
  exact vec3_ext (line_part _ _ t) (line_part _ _ t) (line_part _ _ t)

lemma line_distance {t u : ℝ} (h : t ≤ u) :
    (p + (q - p) * t).distance (p + (q - p) * u) = (u - t) * p.distance q := by
  have hpart (a b : ℝ) : a + (b - a) * u - (a + (b - a) * t) = (u - t) * (b - a) := by ring
  have hdistance (v w : Vec3 ℝ) : v.distance w = Real.sqrt ((w.x - v.x) * (w.x - v.x) +
      (w.y - v.y) * (w.y - v.y) + (w.z - v.z) * (w.z - v.z)) := rfl
  rw [hdistance, hdistance, ← Real.sqrt_sq (sub_nonneg.mpr h), ← Real.sqrt_mul (sq_nonneg _)]
  congr 1
  change (p.x + (q.x - p.x) * u - (p.x + (q.x - p.x) * t)) *
      (p.x + (q.x - p.x) * u - (p.x + (q.x - p.x) * t)) +
    (p.y + (q.y - p.y) * u - (p.y + (q.y - p.y) * t)) *
      (p.y + (q.y - p.y) * u - (p.y + (q.y - p.y) * t)) +
    (p.z + (q.z - p.z) * u - (p.z + (q.z - p.z) * t)) *
      (p.z + (q.z - p.z) * u - (p.z + (q.z - p.z) * t)) = _
  rw [hpart, hpart, hpart]
  ring

/-- The way along a line is as long as the line. -/
lemma line_wayLength {n : ℕ} {way : ℕ → Vec3 ℝ} (k : ℕ)
    (hway : ∀ i ≤ k, way i = p + (q - p) * (i / n : ℝ)) :
    wayLength way k = k / n * p.distance q := by
  induction k with
  | zero => rw [wayLength_zero, Nat.cast_zero, zero_div, zero_mul]
  | succ k ih =>
    have hnext : (k / n : ℝ) ≤ ((k + 1 : ℕ) : ℝ) / n := by
      push_cast
      gcongr
      linarith
    rw [wayLength_succ, ih fun i hi => hway i (Nat.le_succ_of_le hi), hway k k.le_succ,
      hway (k + 1) le_rfl, line_distance p q hnext]
    ring

/-- A straight curve is as long as its points are apart. -/
theorem straight_curve (name : String) (samples : ℕ) : ∃ curve,
    Curve.ofSpline? (straight p q name) samples = some curve ∧ curve.closed = false ∧
      curve.length = p.distance q := by
  have hlong : 2 ≤ (straight p q name).points.length := le_rfl
  obtain ⟨curve, hcurve⟩ := ofSpline?_of_long hlong samples
  obtain ⟨-, hclosed, hsegments⟩ := ofSpline?_ok hcurve
  have hcharted := charted_of_ofSpline? hcurve
  have hjoined := joined_of_ofSpline? hcurve
  generalize max samples 4 = n at hcharted
  have hn : (n : ℝ) ≠ 0 := Nat.cast_ne_zero.mpr hcharted.chords_pos.ne'
  have hsegment : curve.segments[0]? = some ⟨Cubic.through 1 p p q q, q - p⟩ := by
    rw [← Array.getElem?_toList, hsegments]
    rfl
  have hway (i : ℕ) (hi : i ≤ n) : way n curve i = p + (q - p) * (i / n : ℝ) := by
    have halong := hjoined.goesAlong hcharted.chords_pos hsegment i hi
    rw [Nat.zero_mul, Nat.zero_add, line_point] at halong
    exact halong
  refine ⟨curve, hcurve, hclosed, ?_⟩
  rw [hcharted.length_eq, hjoined.size_eq]
  change wayLength (way n curve) (1 * n) = _
  rw [Nat.one_mul, line_wayLength p q n hway, div_self hn, one_mul]

end Lines

end Stagecraft.Proofs
