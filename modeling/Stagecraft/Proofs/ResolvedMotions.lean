import Stagecraft.Proofs.ProfileShape

/-!
# Resolved motions

Whatever is stated of a motion, its profile shows: the distance, the time, the speeds at both ends
and the acceleration. There is one lemma for each choice of quantities that `solve` knows. Only
with an acceleration may the end speed be missed, where the distance or the time is over before.
-/

namespace Stagecraft.Proofs

section Honouring

/-- The whole of a profile is its ramp, and a stated distance or duration runs out before the ramp
has led to a speed. -/
def StopsShort (d t a : Option ℝ) (v : ℝ) (p : Profile ℝ) : Prop :=
  p.ramp = p.duration ∧ p.endSpeed ∈ Set.uIcc p.startSpeed v ∧ ∃ x ∈ a,
    (∃ y ∈ d, y < (p.startSpeed + v) / 2 * ((v - p.startSpeed) / x)) ∨
    (∃ y ∈ t, y < (v - p.startSpeed) / x)

/-- A profile shows the distance, duration, speeds and acceleration that are stated. -/
structure Honours (d t v0 v1 a : Option ℝ) (p : Profile ℝ) : Prop where
  distance : ∀ x ∈ d, |p.distance - x| ≤ 1e-6 * max x 1
  duration : ∀ x ∈ t, p.duration = x
  startSpeed : ∀ v ∈ v0, p.startSpeed = v
  fromRest : v0 = none → a.isSome → p.startSpeed = 0
  acceleration : ∀ x ∈ a, |p.endSpeed - p.startSpeed - x * p.ramp| ≤ 1e-9
  endSpeed : ∀ v ∈ v1, p.endSpeed = v ∨ StopsShort d t a v p

variable {d t v0 v1 : Option ℝ} {a w0 w1 x y : ℝ} {p : Profile ℝ}

lemma pos_of_past {x : ℝ} (hx : 1e-9 < x) : 0 < x :=
  lt_trans (by norm_num) hx

lemma not_le_tolerance {x : ℝ} (hx : 1e-9 < x) : ¬x ≤ Scalar.tolerance :=
  not_le.mpr hx

lemma near_of_eq (h : x = y) : |x - y| ≤ 1e-6 * max y 1 := by
  rw [h, sub_self, abs_zero]
  positivity

/-- A ramp is as steep as the acceleration. -/
lemma steep_of_eq {time : ℝ} (h : w1 = w0 + a * time) : |w1 - w0 - a * time| ≤ 1e-9 := by
  rw [h, add_sub_cancel_left, sub_self, abs_zero]
  norm_num

lemma honours_unaccelerated (hdistance : ∀ x ∈ d, |p.distance - x| ≤ 1e-6 * max x 1)
    (hduration : ∀ x ∈ t, p.duration = x) (hstart : ∀ v ∈ v0, p.startSpeed = v)
    (hend : ∀ v ∈ v1, p.endSpeed = v) : Honours d t v0 v1 none p :=
  ⟨hdistance, hduration, hstart, fun _ h => absurd h Bool.false_ne_true,
    fun _ h => absurd h (Option.not_mem_none _), fun v hv => Or.inl (hend v hv)⟩

lemma honours_accelerated (hdistance : ∀ x ∈ d, |p.distance - x| ≤ 1e-6 * max x 1)
    (hduration : ∀ x ∈ t, p.duration = x) (hstart : p.startSpeed = v0.getD 0)
    (hramp : |p.endSpeed - p.startSpeed - a * p.ramp| ≤ 1e-9)
    (hend : ∀ v ∈ v1, p.endSpeed = v ∨ StopsShort d t (some a) v p) :
    Honours d t v0 v1 (some a) p := by
  refine ⟨hdistance, hduration, ?_, ?_, ?_, hend⟩
  · rintro v rfl
    exact hstart
  · rintro rfl -
    exact hstart
  · rintro x ⟨⟩
    exact hramp

lemma coverAtSpeed_ok (hd : 1e-9 < x) (h : MotionSpec.coverAtSpeed x w0 = .ok p) :
    p = ⟨w0, w0, 0, x / w0, x⟩ := by
  unfold MotionSpec.coverAtSpeed at h
  rw [if_neg (not_le_tolerance hd)] at h
  split at h
  · cases h
  next hw =>
    have hpos : 0 < w0 := pos_of_past (not_le.mp hw)
    cases h
    rw [constant_of_nonneg (div_nonneg (pos_of_past hd).le hpos.le), mul_div_cancel₀ _ hpos.ne']

lemma rampTime_ok {ramp : ℝ} (h : MotionSpec.rampTime w0 w1 a = .ok ramp) :
    0 ≤ ramp ∧ |w1 - w0 - a * ramp| ≤ 1e-9 ∧ (0 < ramp → a ≠ 0 ∧ ramp = (w1 - w0) / a) := by
  unfold MotionSpec.rampTime at h
  rw [abs_real, abs_real, tolerance_real] at h
  split at h
  · split at h
    next hsmall =>
      cases h
      rw [zero_real, mul_zero, sub_zero]
      exact ⟨le_rfl, hsmall, fun h => absurd h (lt_irrefl 0)⟩
    · cases h
  next ha =>
    have ha0 : a ≠ 0 := by
      rintro rfl
      norm_num at ha
    dsimp only at h
    split at h
    · cases h
    next hramp =>
      cases h
      rw [zero_real] at hramp
      refine ⟨not_lt.mp hramp, steep_of_eq ?_, fun _ => ⟨ha0, rfl⟩⟩
      rw [mul_div_cancel₀ _ ha0]
      ring

lemma rampTime_of_nonneg (ha : 1e-9 < |a|) (h : 0 ≤ (w1 - w0) / a) :
    MotionSpec.rampTime w0 w1 a = .ok ((w1 - w0) / a) := by
  unfold MotionSpec.rampTime
  rw [abs_real, if_neg (not_le_tolerance ha), zero_real]
  exact if_neg (not_lt.mpr h)

/-- An acceleration over a distance that is covered before it comes to rest. -/
lemma accelerateOver_ok (hw : 0 ≤ w0) (hd : 0 ≤ x) (ha : a ≠ 0)
    (h : MotionSpec.accelerateOver x w0 a = (p, [])) : ∃ w time, p = ⟨w0, w, time, time, x⟩ ∧
      0 ≤ w ∧ 0 ≤ time ∧ w = w0 + a * time ∧ w * w = w0 * w0 + 2 * a * x := by
  unfold MotionSpec.accelerateOver at h
  simp only [zero_real, two_real] at h
  split at h
  · cases h
  next hsquare =>
    cases h
    let w := Real.sqrt (w0 * w0 + 2 * a * x)
    have hnonneg : 0 ≤ w := Real.sqrt_nonneg _
    have hsqrt : w * w = w0 * w0 + 2 * a * x := Real.mul_self_sqrt (not_lt.mp hsquare)
    have htime : 0 ≤ (-w0 + w) / a := by
      rcases lt_or_gt_of_ne ha with hneg | hpos
      · have hle : w ≤ w0 := (mul_self_le_mul_self_iff hnonneg hw).mpr (by nlinarith)
        exact div_nonneg_of_nonpos (by linarith) hneg.le
      · have hle : w0 ≤ w := (mul_self_le_mul_self_iff hw hnonneg).mpr (by nlinarith)
        exact div_nonneg (by linarith) hpos.le
    have hspeed : w0 + a * ((-w0 + w) / a) = w := by
      rw [mul_div_cancel₀ _ ha]
      ring
    have hdistance : (w0 + w) / 2 * ((-w0 + w) / a) = x := by
      field_simp
      linear_combination hsqrt
    refine ⟨w, (-w0 + w) / a, ?_, hnonneg, htime, hspeed.symm, hsqrt⟩
    have hover : Profile.rampOver w0 w ((-w0 + w) / a) = ⟨w0, w, _, _, _⟩ :=
      rampOver_of_nonneg htime
    rw [hdistance] at hover
    exact (congrArg (fun v => Profile.rampOver w0 v ((-w0 + w) / a)) hspeed).trans hover

end Honouring

section Solving

variable {d t v0 v1 : Option ℝ} {a x y w w0 v time ramp : ℝ} {p : Profile ℝ}

/-- The distance runs out where the speed reached is still short of the one that is stated. -/
lemma stopsShort_of_distance (hw0 : 0 ≤ w0) (hw : 0 ≤ w) (hv : 0 ≤ v) (ha : a ≠ 0)
    (hsquare : w * w = w0 * w0 + 2 * a * x)
    (hx : 0 ≤ x) (hshort : x < (w0 + v) / 2 * ((v - w0) / a)) :
    StopsShort (some x) t (some a) v ⟨w0, w, time, time, x⟩ := by
  refine ⟨rfl, ?_, a, rfl, Or.inl ⟨x, rfl, hshort⟩⟩
  have hcovered : (w0 + v) / 2 * ((v - w0) / a) * (2 * a) = v * v - w0 * w0 := by
    field_simp
    ring
  rw [Set.mem_uIcc]
  rcases lt_or_gt_of_ne ha with hneg | hpos
  · refine Or.inr ⟨(mul_self_le_mul_self_iff hv hw).mpr ?_,
      (mul_self_le_mul_self_iff hw hw0).mpr ?_⟩
    · nlinarith
    · nlinarith
  · refine Or.inl ⟨(mul_self_le_mul_self_iff hw0 hw).mpr ?_,
      (mul_self_le_mul_self_iff hw hv).mpr ?_⟩
    · nlinarith
    · nlinarith

/-- The time runs out where the speed reached is still short of the one that is stated. -/
lemma stopsShort_of_duration (ha : a ≠ 0) (hy : 0 ≤ y) (hshort : y < (v - w0) / a) :
    StopsShort d (some y) (some a) v ⟨w0, w0 + a * y, y, y, x⟩ := by
  refine ⟨rfl, ?_, a, rfl, Or.inr ⟨y, rfl, hshort⟩⟩
  have hspeed : (v - w0) / a * a = v - w0 := div_mul_cancel₀ _ ha
  rw [Set.mem_uIcc]
  rcases lt_or_gt_of_ne ha with hneg | hpos
  · exact Or.inr ⟨by nlinarith, by nlinarith⟩
  · exact Or.inl ⟨by nlinarith, by nlinarith⟩

/-- Without a start speed an acceleration starts from rest. -/
lemma getD_nonneg (h : ∀ v ∈ v0, 0 ≤ v) : 0 ≤ v0.getD 0 := by
  cases v0 with
  | none => exact le_rfl
  | some v => exact h v rfl

lemma honours_constant (hy : 0 ≤ y) (hd : ∀ x ∈ d, v * y = x) (ht : ∀ z ∈ t, y = z)
    (hv : ∀ w ∈ v0, v = w) : Honours d t v0 none none (Profile.constant v y) := by
  rw [constant_of_nonneg hy]
  exact honours_unaccelerated (fun x hx => near_of_eq (hd x hx)) ht hv (by simp)

lemma honours_rampOver {w1 : ℝ} (hy : 0 ≤ y)
    (hd : ∀ x ∈ d, |(w0 + w1) / 2 * y - x| ≤ 1e-6 * max x 1) (ht : ∀ z ∈ t, y = z)
    (hv0 : ∀ w ∈ v0, w0 = w) (hv1 : ∀ w ∈ v1, w1 = w) :
    Honours d t v0 v1 none (Profile.rampOver w0 w1 y) := by
  rw [rampOver_of_nonneg hy]
  exact honours_unaccelerated hd ht hv0 hv1

/-- An acceleration over the whole of a distance. -/
lemma honours_accelerateOver (hv0 : ∀ v ∈ v0, 0 ≤ v) (hx : 0 ≤ x) (ha : a ≠ 0)
    (h : MotionSpec.accelerateOver x (v0.getD 0) a = (p, []))
    (hend : ∀ v ∈ v1, 0 ≤ v ∧ x < (v0.getD 0 + v) / 2 * ((v - v0.getD 0) / a)) :
    Honours (some x) none v0 v1 (some a) p := by
  have hw0 := getD_nonneg hv0
  obtain ⟨w, time, rfl, hw, htime, hspeed, hsquare⟩ := accelerateOver_ok hw0 hx ha h
  refine honours_accelerated ?_ (by simp) rfl (steep_of_eq hspeed) ?_
  · rintro _ ⟨⟩
    exact near_of_eq rfl
  · intro v hv
    obtain ⟨hv, hshort⟩ := hend v hv
    exact Or.inr (stopsShort_of_distance hw0 hw hv ha hsquare hx hshort)

/-- An acceleration over the whole of a time. -/
lemma honours_accelerateFor (hy : 0 ≤ y)
    (hend : ∀ v ∈ v1, a ≠ 0 ∧ y < (v - v0.getD 0) / a) :
    Honours none (some y) v0 v1 (some a) (Profile.rampOver (v0.getD 0) (v0.getD 0 + a * y) y) := by
  rw [rampOver_of_nonneg hy]
  refine honours_accelerated (by simp) (by simp) rfl (steep_of_eq rfl) ?_
  intro v hv
  obtain ⟨ha, hshort⟩ := hend v hv
  exact Or.inr (stopsShort_of_duration ha hy hshort)

/-- A ramp that covers the distance but for the tolerance. -/
lemma honours_covering {w1 : ℝ} (hramp : 0 ≤ ramp)
    (hspeed : |w1 - v0.getD 0 - a * ramp| ≤ 1e-9)
    (hcovered : |(v0.getD 0 + w1) / 2 * ramp - x| ≤ 1e-9) :
    Honours (some x) none v0 (some w1) (some a)
      (Profile.rampThenCruise (v0.getD 0) w1 ramp ramp) := by
  rw [rampThenCruise_of_le hramp le_rfl, sub_self, mul_zero, add_zero]
  refine honours_accelerated ?_ (by simp) rfl hspeed (by simp)
  rintro _ ⟨⟩
  have hscale : 1e-6 ≤ 1e-6 * max x 1 := le_mul_of_one_le_right (by norm_num) (le_max_right x 1)
  exact hcovered.trans (le_trans (by norm_num) hscale)

/-- A ramp, and a cruise over the rest of the distance. -/
lemma honours_cruising {w1 : ℝ} (hramp : 0 ≤ ramp)
    (hspeed : |w1 - v0.getD 0 - a * ramp| ≤ 1e-9) (hw1 : 0 < w1)
    (hcovered : (v0.getD 0 + w1) / 2 * ramp ≤ x) :
    Honours (some x) none v0 (some w1) (some a) (Profile.rampThenCruise (v0.getD 0) w1 ramp
      (ramp + (x - (v0.getD 0 + w1) / 2 * ramp) / w1)) := by
  have hcruise : 0 ≤ (x - (v0.getD 0 + w1) / 2 * ramp) / w1 :=
    div_nonneg (sub_nonneg.mpr hcovered) hw1.le
  rw [rampThenCruise_of_le hramp (le_add_of_nonneg_right hcruise), add_sub_cancel_left,
    mul_div_cancel₀ _ hw1.ne']
  refine honours_accelerated ?_ (by simp) rfl hspeed (by simp)
  rintro _ ⟨⟩
  exact near_of_eq (add_sub_cancel _ _)

section Branches

variable {given : List String} {w1 : ℝ}

lemma honours_duration (hy : 1e-9 < y)
    (h : MotionSpec.solve given none (some y) none none none = .ok (p, [])) :
    Honours none (some y) none none none p := by
  cases h
  rw [stationary_of_nonneg (pos_of_past hy).le]
  exact honours_unaccelerated (by simp) (by simp) (by simp) (by simp)

lemma honours_distance_duration (hy : 1e-9 < y)
    (h : MotionSpec.solve given (some x) (some y) none none none = .ok (p, [])) :
    Honours (some x) (some y) none none none p := by
  have hpos := pos_of_past hy
  simp only [MotionSpec.solve, if_neg (not_le_tolerance hy)] at h
  cases h
  refine honours_constant hpos.le ?_ (by simp) (by simp)
  rintro _ ⟨⟩
  exact div_mul_cancel₀ _ hpos.ne'

lemma honours_distance_start (hx : 1e-9 < x)
    (h : MotionSpec.solve given (some x) none (some v) none none = .ok (p, [])) :
    Honours (some x) none (some v) none none p := by
  obtain ⟨p, hcover, h⟩ := bind_eq_ok.mp h
  cases h
  rw [coverAtSpeed_ok hx hcover]
  refine honours_unaccelerated ?_ (by simp) (by simp) (by simp)
  rintro _ ⟨⟩
  exact near_of_eq rfl

lemma honours_duration_start (hy : 1e-9 < y)
    (h : MotionSpec.solve given none (some y) (some v) none none = .ok (p, [])) :
    Honours none (some y) (some v) none none p := by
  cases h
  exact honours_constant (pos_of_past hy).le (by simp) (by simp) (by simp)

lemma honours_distance_speeds (hx : 1e-9 < x)
    (h : MotionSpec.solve given (some x) none (some w0) (some w1) none = .ok (p, [])) :
    Honours (some x) none (some w0) (some w1) none p := by
  have hpos := pos_of_past hx
  simp only [MotionSpec.solve, if_neg (not_le_tolerance hx), two_real] at h
  split at h
  · cases h
  next hspeeds =>
    have hsum : 0 < w0 + w1 := pos_of_past (not_le.mp hspeeds)
    cases h
    refine honours_rampOver (div_nonneg (by linarith) hsum.le) ?_ (by simp) (by simp) (by simp)
    rintro _ ⟨⟩
    refine near_of_eq ?_
    field_simp

lemma honours_duration_speeds (hy : 1e-9 < y)
    (h : MotionSpec.solve given none (some y) (some w0) (some w1) none = .ok (p, [])) :
    Honours none (some y) (some w0) (some w1) none p := by
  cases h
  exact honours_rampOver (pos_of_past hy).le (by simp) (by simp) (by simp) (by simp)

lemma honours_distance_duration_start (hy : 1e-9 < y)
    (h : MotionSpec.solve given (some x) (some y) (some w0) none none = .ok (p, [])) :
    Honours (some x) (some y) (some w0) none none p := by
  have hpos := pos_of_past hy
  simp only [MotionSpec.solve, if_neg (not_le_tolerance hy), two_real] at h
  split at h
  · cases h
    refine honours_rampOver hpos.le ?_ (by simp) (by simp) (by simp)
    rintro _ ⟨⟩
    refine near_of_eq ?_
    field_simp
    ring
  · cases h

lemma honours_distance_duration_end (hy : 1e-9 < y)
    (h : MotionSpec.solve given (some x) (some y) none (some w1) none = .ok (p, [])) :
    Honours (some x) (some y) none (some w1) none p := by
  have hpos := pos_of_past hy
  simp only [MotionSpec.solve, if_neg (not_le_tolerance hy), two_real] at h
  split at h
  · cases h
    refine honours_rampOver hpos.le ?_ (by simp) (by simp) (by simp)
    rintro _ ⟨⟩
    refine near_of_eq ?_
    field_simp
    ring
  · cases h

lemma honours_distance_duration_speeds (hy : 1e-9 < y)
    (h : MotionSpec.solve given (some x) (some y) (some w0) (some w1) none = .ok (p, [])) :
    Honours (some x) (some y) (some w0) (some w1) none p := by
  simp only [MotionSpec.solve, if_neg (not_le_tolerance hy), two_real, one_real, abs_real,
    larger_real] at h
  split at h
  · cases h
  next hclose =>
    cases h
    refine honours_rampOver (pos_of_past hy).le ?_ (by simp) (by simp) (by simp)
    rintro _ ⟨⟩
    exact not_lt.mp hclose

lemma honours_distance_acceleration (hx : 1e-9 < x) (hv0 : ∀ v ∈ v0, 0 ≤ v)
    (h : MotionSpec.solve given (some x) none v0 none (some a) = .ok (p, [])) :
    Honours (some x) none v0 none (some a) p := by
  simp only [MotionSpec.solve, zero_real, abs_real] at h
  split at h
  · obtain ⟨p, hcover, h⟩ := bind_eq_ok.mp h
    cases h
    rw [coverAtSpeed_ok hx hcover]
    refine honours_accelerated ?_ (by simp) rfl (by norm_num) (by simp)
    rintro _ ⟨⟩
    exact near_of_eq rfl
  next ha =>
    have hne : a ≠ 0 := by
      rintro rfl
      rw [tolerance_real] at ha
      norm_num at ha
    exact honours_accelerateOver hv0 (pos_of_past hx).le hne (Except.ok.inj h) (by simp)

lemma honours_duration_acceleration (hy : 1e-9 < y)
    (h : MotionSpec.solve given none (some y) v0 none (some a) = .ok (p, [])) :
    Honours none (some y) v0 none (some a) p := by
  simp only [MotionSpec.solve, zero_real] at h
  split at h
  · cases h
    exact honours_accelerateFor (pos_of_past hy).le (by simp)
  · cases h

lemma honours_end_acceleration
    (h : MotionSpec.solve given none none v0 (some w1) (some a) = .ok (p, [])) :
    Honours none none v0 (some w1) (some a) p := by
  simp only [MotionSpec.solve, zero_real] at h
  obtain ⟨ramp, hramp, h⟩ := bind_eq_ok.mp h
  cases h
  obtain ⟨hnonneg, hspeed, -⟩ := rampTime_ok hramp
  rw [rampOver_of_nonneg hnonneg]
  exact honours_accelerated (by simp) (by simp) rfl hspeed (by simp)

lemma honours_distance_end_acceleration (hx : 1e-9 < x) (hv0 : ∀ v ∈ v0, 0 ≤ v) (hw1 : 0 ≤ w1)
    (h : MotionSpec.solve given (some x) none v0 (some w1) (some a) = .ok (p, [])) :
    Honours (some x) none v0 (some w1) (some a) p := by
  simp only [MotionSpec.solve, zero_real, two_real, larger_real, tolerance_real] at h
  obtain ⟨ramp, hramp, h⟩ := bind_eq_ok.mp h
  obtain ⟨hnonneg, hspeed, htime⟩ := rampTime_ok hramp
  by_cases hcovered : (v0.getD 0 + w1) / 2 * ramp ≤ x + 1e-9
  · rw [if_pos hcovered] at h
    split at h
    next hrest =>
      cases h
      have hleft := (le_max_left _ _).trans hrest
      exact honours_covering hnonneg hspeed (abs_le.mpr ⟨by linarith, by linarith⟩)
    next hrest =>
      have hleft : (v0.getD 0 + w1) / 2 * ramp < x := by
        by_contra hnone
        rw [max_eq_right (by linarith)] at hrest
        norm_num at hrest
      split at h
      · cases h
      next hcruise =>
        cases h
        rw [max_eq_left (sub_pos.mpr hleft).le]
        exact honours_cruising hnonneg hspeed (pos_of_past (not_le.mp hcruise)) hleft.le
  · rw [if_neg hcovered] at h
    have hpos := pos_of_past hx
    have hmoves : 0 < ramp := by
      refine lt_of_le_of_ne hnonneg ?_
      rintro rfl
      rw [mul_zero] at hcovered
      exact hcovered (by linarith)
    obtain ⟨ha, rfl⟩ := htime hmoves
    refine honours_accelerateOver hv0 hpos.le ha (Except.ok.inj h) ?_
    rintro _ ⟨⟩
    exact ⟨hw1, by linarith⟩

lemma honours_duration_end_acceleration (hy : 1e-9 < y)
    (h : MotionSpec.solve given none (some y) v0 (some w1) (some a) = .ok (p, [])) :
    Honours none (some y) v0 (some w1) (some a) p := by
  have hpos := pos_of_past hy
  simp only [MotionSpec.solve, zero_real] at h
  obtain ⟨ramp, hramp, h⟩ := bind_eq_ok.mp h
  obtain ⟨hnonneg, hspeed, htime⟩ := rampTime_ok hramp
  split at h
  next hfits =>
    cases h
    rw [rampThenCruise_of_le hnonneg hfits]
    exact honours_accelerated (by simp) (by simp) rfl hspeed (by simp)
  next hshort =>
    have hshort := not_le.mp hshort
    obtain ⟨ha, rfl⟩ := htime (hpos.trans hshort)
    cases h
    refine honours_accelerateFor hpos.le ?_
    rintro _ ⟨⟩
    exact ⟨ha, hshort⟩

end Branches

lemma solve_honours {a : Option ℝ} {given : List String} (hd : ∀ x ∈ d, 1e-9 < x)
    (ht : ∀ y ∈ t, 1e-9 < y) (hv0 : ∀ v ∈ v0, 0 ≤ v) (hv1 : ∀ v ∈ v1, 0 ≤ v)
    (h : MotionSpec.solve given d t v0 v1 a = .ok (p, [])) : Honours d t v0 v1 a p := by
  have hbranch := h
  unfold MotionSpec.solve at hbranch
  split at hbranch
  · exact honours_duration (ht _ rfl) h
  · exact honours_distance_duration (ht _ rfl) h
  · exact honours_distance_start (hd _ rfl) h
  · exact honours_duration_start (ht _ rfl) h
  · exact honours_distance_speeds (hd _ rfl) h
  · exact honours_duration_speeds (ht _ rfl) h
  · exact honours_distance_duration_start (ht _ rfl) h
  · exact honours_distance_duration_end (ht _ rfl) h
  · exact honours_distance_duration_speeds (ht _ rfl) h
  · exact honours_distance_acceleration (hd _ rfl) hv0 h
  · exact honours_duration_acceleration (ht _ rfl) h
  · exact honours_end_acceleration h
  · exact honours_distance_end_acceleration (hd _ rfl) hv0 (hv1 _ rfl) h
  · exact honours_duration_end_acceleration (ht _ rfl) h
  · cases hbranch

lemma nonNegative_ok {note : ℝ → MotionNote ℝ} {v w : Option ℝ}
    (h : MotionSpec.nonNegative note v = (w, [])) : w = v ∧ ∀ x ∈ v, 0 ≤ x := by
  cases v with
  | none =>
    cases h
    exact ⟨rfl, by simp⟩
  | some x =>
    unfold MotionSpec.nonNegative at h
    rw [zero_real] at h
    dsimp only at h
    split at h
    · cases h
    next hx =>
      cases h
      refine ⟨rfl, ?_⟩
      rintro _ ⟨⟩
      exact not_lt.mp hx

lemma nonNegative_nonneg {note : ℝ → MotionNote ℝ} {v : Option ℝ} :
    ∀ x ∈ (MotionSpec.nonNegative note v).1, 0 ≤ x := by
  intro x hx
  cases v with
  | none => cases hx
  | some y =>
    unfold MotionSpec.nonNegative at hx
    dsimp only at hx
    rw [zero_real] at hx
    split at hx
    · cases hx
      exact le_rfl
    next hy =>
      cases hx
      exact not_lt.mp hy

lemma nonneg_of_any {v : Option ℝ}
    (h : ¬(v.any (· < @OfNat.ofNat ℝ 0 Scalar.instOfNat)) = true) : ∀ x ∈ v, 0 ≤ x := by
  rintro x rfl
  rw [zero_real] at h
  simpa using h

/-- Where nothing is noted of a motion, its profile shows all that is stated of it. -/
theorem resolved_profile_honours {s : MotionSpec ℝ} (hd : ∀ x ∈ s.distance, 1e-9 < x.internal)
    (ht : ∀ y ∈ s.duration, 1e-9 < y.internal) (h : s.resolve = .ok ⟨p, []⟩) :
    Honours (s.distance.map Distance.internal) (s.duration.map TimeSpan.internal)
      (s.startSpeed.map Speed.internal) (s.endSpeed.map Speed.internal)
      (s.acceleration.map Acceleration.internal) p := by
  unfold MotionSpec.resolve at h
  cases hstart : MotionSpec.nonNegative .startSpeedNegative (s.startSpeed.map Speed.internal) with
  | mk w0 startNotes =>
  cases hend : MotionSpec.nonNegative .endSpeedNegative (s.endSpeed.map Speed.internal) with
  | mk w1 endNotes =>
  simp only [hstart, hend] at h
  split at h
  · cases h
  · split at h
    · cases h
    · obtain ⟨⟨q, notes⟩, hsolve, h⟩ := bind_eq_ok.mp h
      obtain ⟨rfl, hnotes⟩ := ResolvedMotion.mk.inj (Except.ok.inj h)
      obtain ⟨hspeeds, rfl⟩ := List.append_eq_nil_iff.mp hnotes
      obtain ⟨rfl, rfl⟩ := List.append_eq_nil_iff.mp hspeeds
      obtain ⟨rfl, hv0⟩ := nonNegative_ok hstart
      obtain ⟨rfl, hv1⟩ := nonNegative_ok hend
      exact solve_honours (by simpa using hd) (by simpa using ht) hv0 hv1 hsolve

end Solving

section Sprinting

/-- Twenty meters toward twenty meters per second. -/
noncomputable def sprint : MotionSpec ℝ where
  distance := some (.centimeters 2000)
  endSpeed := some (.centimetersPerSecond 2000)
  acceleration := some ⟨2.5⟩

lemma sprint_given : (sprint.distance.map Distance.internal = some 2000) ∧
    (sprint.endSpeed.map Speed.internal = some 2000) ∧
    (sprint.acceleration.map Acceleration.internal = some 250) := by
  refine ⟨congrArg some (centimeters_real 2000), congrArg some (centimetersPerSecond_real 2000),
    congrArg some ?_⟩
  change (2.5 : ℝ) * 100 = 250
  norm_num

lemma sprint_rampTime : MotionSpec.rampTime (0 : ℝ) 2000 250 = .ok 8 := by
  refine (rampTime_of_nonneg (by norm_num) (by norm_num)).trans (congrArg Except.ok ?_)
  norm_num

lemma sprint_accelerateOver :
    MotionSpec.accelerateOver (2000 : ℝ) 0 250 = (Profile.rampOver 0 1000 4, []) := by
  have hsqrt : Real.sqrt (0 * 0 + 2 * 250 * 2000) = 1000 := by
    rw [show (0 * 0 + 2 * 250 * 2000 : ℝ) = 1000 ^ 2 by norm_num]
    exact Real.sqrt_sq (by norm_num)
  have hnonneg : ¬(0 * 0 + 2 * 250 * 2000 : ℝ) < 0 := by norm_num
  unfold MotionSpec.accelerateOver
  simp only [zero_real, two_real, if_neg hnonneg]
  change (Profile.rampOver 0 (0 + 250 * ((-0 + Real.sqrt (0 * 0 + 2 * 250 * 2000)) / 250))
    ((-0 + Real.sqrt (0 * 0 + 2 * 250 * 2000)) / 250), []) = _
  rw [hsqrt]
  norm_num

lemma sprint_solve (given : List String) :
    MotionSpec.solve given (some (2000 : ℝ)) none none (some 2000) (some 250) =
      .ok (Profile.rampOver 0 1000 4, []) := by
  have hfar : ¬((0 + 2000) / 2 * 8 : ℝ) ≤ 2000 + 1e-9 := by norm_num
  simp only [MotionSpec.solve, Option.getD_none, zero_real, two_real, tolerance_real,
    sprint_rampTime, sprint_accelerateOver]
  exact if_neg hfar

lemma sprint_resolve : sprint.resolve = .ok ⟨Profile.rampOver 0 1000 4, []⟩ := by
  obtain ⟨hdistance, hend, hacceleration⟩ := sprint_given
  have hfast : ¬(2000 : ℝ) < 0 := by norm_num
  unfold MotionSpec.resolve
  rw [hdistance, hend, hacceleration]
  simp [sprint, MotionSpec.nonNegative, hfast, sprint_solve]

/-- The sprint is over halfway to its end speed. -/
theorem sprint_stops_short : sprint.resolve = .ok ⟨Profile.rampOver 0 1000 4, []⟩ ∧
    Honours (sprint.distance.map Distance.internal) none none
      (sprint.endSpeed.map Speed.internal) (sprint.acceleration.map Acceleration.internal)
      (Profile.rampOver 0 1000 4) := by
  refine ⟨sprint_resolve, resolved_profile_honours ?_ ?_ sprint_resolve⟩
  · rintro x ⟨⟩
    rw [Option.some.inj sprint_given.1]
    norm_num
  · rintro y ⟨⟩

end Sprinting

end Stagecraft.Proofs
