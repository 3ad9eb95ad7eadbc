import Stagecraft.Proofs.PhysicalProfiles
import Stagecraft.Proofs.ResolvedMotions

/-!
# Solved motions

Each way of solving a motion gives a profile that goes forward only, also where speeds are clamped
or an actor comes to rest before its distance. `Covers` says how far such a profile goes of the
distance that is stated; no way of solving goes farther than the precision of its checks.
-/

namespace Stagecraft.Proofs

/-- How far a motion goes of a stated distance `d`: the whole of it, or as far as a deceleration
lets it, which is noted. Only where a duration and both speeds are stated as well, all that is
known is that these agree with the distance. -/
inductive Covers (d : ℝ) (t v0 v1 : Option ℝ) (notes : List (MotionNote ℝ)) (p : Profile ℝ) : Prop
  | whole (h : |p.distance - d| ≤ 1e-9)
  | stops (h : p.distance ≤ d) (hnote : ∃ reached, .stopsAfterDistance reached d ∈ notes)
  | agrees (ht : t.isSome) (hv0 : v0.isSome) (hv1 : v1.isSome)
    (h : |p.distance - d| ≤ 1e-6 * max d 1)

/-- What is known of a solved motion. -/
structure Forward (d t v0 v1 : Option ℝ) (notes : List (MotionNote ℝ)) (p : Profile ℝ) : Prop where
  drivable : Drivable p
  covers : ∀ x ∈ d, Covers x t v0 v1 notes p

section Solving

variable {d t v0 v1 : Option ℝ} {a x y w0 w1 ramp : ℝ} {p : Profile ℝ} {given : List String}
  {notes : List (MotionNote ℝ)}

/-- No motion goes farther than it states, but for the precision of the checks. -/
lemma Covers.le (h : Covers x t v0 v1 notes p) : p.distance ≤ x + 1e-6 * max x 1 := by
  have hscale : 1e-6 ≤ 1e-6 * max x 1 := le_mul_of_one_le_right (by norm_num) (le_max_right x 1)
  cases h with
  | whole h => linarith [le_of_abs_le h]
  | stops h => linarith
  | agrees _ _ _ h => linarith [le_of_abs_le h]

/-- More that is stated and more that is noted take nothing away. -/
lemma Covers.mono {u0 u1 : Option ℝ} {notes' : List (MotionNote ℝ)} (h : Covers x t v0 v1 notes p)
    (hv0 : v0.isSome → u0.isSome) (hv1 : v1.isSome → u1.isSome) (hnotes : notes ⊆ notes') :
    Covers x t u0 u1 notes' p := by
  cases h with
  | whole h => exact .whole h
  | stops h hnote =>
    obtain ⟨reached, hnote⟩ := hnote
    exact .stops h ⟨reached, hnotes hnote⟩
  | agrees ht h0 h1 h => exact .agrees ht (hv0 h0) (hv1 h1) h

lemma covers_eq (h : p.distance = x) : Covers x t v0 v1 notes p := by
  refine .whole ?_
  rw [h, sub_self, abs_zero]
  norm_num

lemma forward_unstated (h : Drivable p) : Forward none t v0 v1 notes p :=
  ⟨h, fun _ hx => absurd hx (Option.not_mem_none _)⟩

lemma forward_stated (h : Drivable p) (hcovers : Covers x t v0 v1 notes p) :
    Forward (some x) t v0 v1 notes p := by
  refine ⟨h, ?_⟩
  rintro _ ⟨⟩
  exact hcovers

lemma forward_stationary (hx : 0 ≤ x) (hsmall : x ≤ 1e-9) :
    Forward (some x) t v0 v1 notes (Profile.stationary (@OfNat.ofNat ℝ 0 Scalar.instOfNat)) := by
  refine forward_stated (drivable_stationary _) (.whole ?_)
  rw [zero_real, stationary_of_nonneg le_rfl, zero_sub, abs_neg, abs_of_nonneg hx]
  exact hsmall

lemma forward_constant (hw : 0 ≤ w0) (hy : 0 ≤ y) (h : w0 * y = x) :
    Forward (some x) t v0 v1 notes (Profile.constant w0 y) := by
  refine forward_stated (drivable_constant hw y) (covers_eq ?_)
  rw [constant_of_nonneg hy]
  exact h

lemma forward_rampOver (hw0 : 0 ≤ w0) (hw1 : 0 ≤ w1) (hy : 0 ≤ y) (h : (w0 + w1) / 2 * y = x) :
    Forward (some x) t v0 v1 notes (Profile.rampOver w0 w1 y) := by
  refine forward_stated (drivable_rampOver hw0 hw1 y) (covers_eq ?_)
  rw [rampOver_of_nonneg hy]
  exact h

lemma forward_rampThenCruise (hw0 : 0 ≤ w0) (hw1 : 0 ≤ w1) (hramp : 0 ≤ ramp) (hy : ramp ≤ y)
    (h : |(w0 + w1) / 2 * ramp + w1 * (y - ramp) - x| ≤ 1e-9) :
    Forward (some x) t v0 v1 notes (Profile.rampThenCruise w0 w1 ramp y) := by
  refine forward_stated (drivable_rampThenCruise hw0 hw1 ramp y) (.whole ?_)
  rw [rampThenCruise_of_le hramp hy]
  exact h

lemma inNoTime_forward (hx : 0 ≤ x) :
    Yields (Forward (some x) t v0 v1 notes) (MotionSpec.inNoTime x) :=
  .branch (fun _ => .error) fun h => .ok (forward_stationary hx (not_lt.mp h))

lemma coverAtSpeed_forward (hx : 0 ≤ x) :
    Yields (Forward (some x) t v0 v1 notes) (MotionSpec.coverAtSpeed x w0) := by
  refine .branch (fun h => .ok (forward_stationary hx h)) fun _ => .branch (fun _ => .error) ?_
  intro hspeed
  have hw : 0 < w0 := pos_of_past (not_le.mp hspeed)
  exact .ok (forward_constant hw.le (div_nonneg hx hw.le) (mul_div_cancel₀ _ hw.ne'))

/-- A deceleration is the only acceleration that may stop before the distance. -/
lemma accelerateOver_forward (hx : 0 ≤ x) (hw : 0 ≤ w0) (ha : a ≠ 0) :
    Forward (some x) t v0 v1 (MotionSpec.accelerateOver x w0 a).2
      (MotionSpec.accelerateOver x w0 a).1 := by
  cases hover : MotionSpec.accelerateOver x w0 a with
  | mk p notes =>
  have hresult := hover
  unfold MotionSpec.accelerateOver at hresult
  simp only [zero_real, two_real] at hresult
  split at hresult
  next hsquare =>
    have hneg : 0 < -a := by
      rw [neg_pos]
      by_contra hpos
      nlinarith [mul_self_nonneg w0, mul_nonneg (not_lt.mp hpos) hx]
    obtain ⟨rfl, rfl⟩ := Prod.mk.inj hresult
    refine forward_stated (drivable_rampOver hw le_rfl _) (.stops ?_ ⟨_, List.mem_singleton_self _⟩)
    rw [rampOver_of_nonneg (div_nonneg hw hneg.le)]
    have hreached : (w0 + 0) / 2 * (w0 / -a) = w0 * w0 / (2 * -a) := by
      field_simp
      ring
    rw [hreached, div_le_iff₀ (by positivity)]
    linarith
  next =>
    obtain ⟨-, rfl⟩ := Prod.mk.inj hresult
    obtain ⟨w, time, rfl, hw1, htime, hspeed, hsquare⟩ := accelerateOver_ok hw hx ha hover
    have hcovered : x = (w0 + w) / 2 * time := by
      apply mul_left_cancel₀ ha
      linear_combination (w0 + w) / 2 * hspeed - hsquare / 2
    refine forward_stated ⟨hw, hw1, htime, le_rfl, ?_⟩ (covers_eq rfl)
    rw [sub_self, mul_zero, add_zero]
    exact hcovered

/-- A motion that has time, unless it takes none. -/
lemma inTime_forward {rest : Except (MotionError ℝ) (Profile ℝ × List (MotionNote ℝ))} (hx : 0 ≤ x)
    (h : 0 < y → Yields (fun r => Forward (some x) t v0 v1 r.2 r.1) rest) :
    Yields (fun r => Forward (some x) t v0 v1 r.2 r.1)
      (if y ≤ Scalar.tolerance then do return (← MotionSpec.inNoTime x, []) else rest) :=
  .branch (fun _ => .bind (inNoTime_forward hx) fun _ hp => .pure hp)
    fun hy => h (pos_of_past (not_le.mp hy))

section Branches

lemma forward_distance_duration (hx : 0 ≤ x) :
    Yields (fun r => Forward (some x) (some y) none none r.2 r.1)
      (MotionSpec.solve given (some x) (some y) none none none) := by
  refine inTime_forward hx fun hy => .pure ?_
  exact forward_constant (div_nonneg hx hy.le) hy.le (div_mul_cancel₀ _ hy.ne')

lemma forward_distance_start (hx : 0 ≤ x) :
    Yields (fun r => Forward (some x) none (some w0) none r.2 r.1)
      (MotionSpec.solve given (some x) none (some w0) none none) :=
  .bind (coverAtSpeed_forward hx) fun _ hp => .pure hp

lemma forward_distance_speeds (hx : 0 ≤ x) (hw0 : 0 ≤ w0) (hw1 : 0 ≤ w1) :
    Yields (fun r => Forward (some x) none (some w0) (some w1) r.2 r.1)
      (MotionSpec.solve given (some x) none (some w0) (some w1) none) := by
  refine .branch (fun hsmall => .pure (forward_stationary hx hsmall)) fun _ => ?_
  refine .branch (fun _ => .throw) fun hspeeds => .pure ?_
  have hsum : 0 < w0 + w1 := pos_of_past (not_le.mp hspeeds)
  rw [two_real]
  refine forward_rampOver hw0 hw1 (by positivity) ?_
  field_simp

lemma forward_distance_duration_start (hx : 0 ≤ x) (hw0 : 0 ≤ w0) :
    Yields (fun r => Forward (some x) (some y) (some w0) none r.2 r.1)
      (MotionSpec.solve given (some x) (some y) (some w0) none none) := by
  refine inTime_forward hx fun hy => ?_
  simp only [zero_real, two_real]
  refine .branch (fun hw1 => .pure ?_) fun hbrake => .pure ?_
  · refine forward_rampOver hw0 hw1 hy.le ?_
    field_simp
    ring
  · -- The mean speed is below half the start speed, so the ramp ends in time.
    have hmean : 2 * x / y < w0 := sub_neg.mp (not_le.mp hbrake)
    have hpos : 0 < w0 := lt_of_le_of_lt (by positivity) hmean
    have hfits : 2 * x / w0 ≤ y := by
      rw [div_lt_iff₀ hy] at hmean
      rw [div_le_iff₀ hpos]
      linarith
    refine forward_rampThenCruise hw0 le_rfl (by positivity) hfits ?_
    have hcovered : (w0 + 0) / 2 * (2 * x / w0) + 0 * (y - 2 * x / w0) = x := by
      field_simp
      ring
    rw [hcovered, sub_self, abs_zero]
    norm_num

lemma forward_distance_duration_end (hx : 0 ≤ x) (hw1 : 0 ≤ w1) :
    Yields (fun r => Forward (some x) (some y) none (some w1) r.2 r.1)
      (MotionSpec.solve given (some x) (some y) none (some w1) none) := by
  refine inTime_forward hx fun hy => ?_
  simp only [zero_real, two_real]
  refine .branch (fun hw0 => .pure ?_) fun _ => .pure ?_
  · refine forward_rampOver hw0 hw1 hy.le ?_
    field_simp
    ring
  · refine forward_rampOver le_rfl (by positivity) hy.le ?_
    field_simp
    ring

lemma forward_distance_duration_speeds (hx : 0 ≤ x) (hw0 : 0 ≤ w0) (hw1 : 0 ≤ w1) :
    Yields (fun r => Forward (some x) (some y) (some w0) (some w1) r.2 r.1)
      (MotionSpec.solve given (some x) (some y) (some w0) (some w1) none) := by
  refine inTime_forward hx fun hy => ?_
  simp only [one_real, two_real, abs_real, larger_real]
  refine .branch (fun _ => .throw) fun hclose => .pure ?_
  refine forward_stated (drivable_rampOver hw0 hw1 y) (.agrees rfl rfl rfl ?_)
  rw [rampOver_of_nonneg hy.le]
  exact not_lt.mp hclose

lemma forward_distance_acceleration (hx : 0 ≤ x) (hv0 : ∀ v ∈ v0, 0 ≤ v) :
    Yields (fun r => Forward (some x) none v0 none r.2 r.1)
      (MotionSpec.solve given (some x) none v0 none (some a)) := by
  simp only [MotionSpec.solve, zero_real, abs_real]
  refine .branch (fun _ => .bind (coverAtSpeed_forward hx) fun _ hp => .pure hp) fun ha => .pure ?_
  refine accelerateOver_forward hx (getD_nonneg hv0) ?_
  rintro rfl
  rw [tolerance_real] at ha
  norm_num at ha

lemma forward_duration_acceleration (hv0 : ∀ v ∈ v0, 0 ≤ v) :
    Yields (fun r => Forward none (some y) v0 none r.2 r.1)
      (MotionSpec.solve given none (some y) v0 none (some a)) := by
  simp only [MotionSpec.solve, zero_real]
  have hw0 := getD_nonneg hv0
  refine .branch (fun hw1 => .pure ?_) fun _ => .pure ?_
  · exact forward_unstated (drivable_rampOver hw0 hw1 y)
  · exact forward_unstated (drivable_rampThenCruise hw0 le_rfl _ y)

lemma forward_end_acceleration (hv0 : ∀ v ∈ v0, 0 ≤ v) (hw1 : 0 ≤ w1) :
    Yields (fun r => Forward none none v0 (some w1) r.2 r.1)
      (MotionSpec.solve given none none v0 (some w1) (some a)) := by
  simp only [MotionSpec.solve, zero_real]
  exact .bind .trivial fun ramp _ => .pure (forward_unstated
    (drivable_rampOver (getD_nonneg hv0) hw1 ramp))

lemma forward_distance_end_acceleration (hx : 0 ≤ x) (hv0 : ∀ v ∈ v0, 0 ≤ v) (hw1 : 0 ≤ w1) :
    Yields (fun r => Forward (some x) none v0 (some w1) r.2 r.1)
      (MotionSpec.solve given (some x) none v0 (some w1) (some a)) := by
  simp only [MotionSpec.solve, zero_real, two_real, larger_real, tolerance_real]
  have hw0 := getD_nonneg hv0
  refine .bind (fun _ h => rampTime_ok h) fun ramp hsteep => ?_
  obtain ⟨hramp, -, htime⟩ := hsteep
  refine .branch (fun hcovered => ?_) fun hpast => .pure ?_
  · refine .branch (fun hrest => .pure ?_) fun hrest => .branch (fun _ => .throw) fun hspeed => ?_
    · -- What is left of the distance is below the tolerance.
      have hleft := (le_max_left _ _).trans hrest
      refine forward_rampThenCruise hw0 hw1 hramp le_rfl ?_
      rw [sub_self, mul_zero, add_zero]
      exact abs_le.mpr ⟨by linarith, by linarith⟩
    · have hpos : 0 < w1 := pos_of_past (not_le.mp hspeed)
      have hleft : 0 ≤ max (x - (v0.getD 0 + w1) / 2 * ramp) 0 / w1 :=
        div_nonneg (le_max_right _ _) hpos.le
      refine .pure (forward_rampThenCruise hw0 hw1 hramp (le_add_of_nonneg_right hleft) ?_)
      have hcruise : 0 ≤ x - (v0.getD 0 + w1) / 2 * ramp := by
        by_contra hnone
        rw [max_eq_right (not_le.mp hnone).le] at hrest
        norm_num at hrest
      rw [add_sub_cancel_left, mul_div_cancel₀ _ hpos.ne', max_eq_left hcruise, add_sub_cancel,
        sub_self, abs_zero]
      norm_num
  · -- The ramp takes time, so it is the acceleration that leads to the end speed.
    have hmoves : 0 < ramp := by
      refine lt_of_le_of_ne hramp ?_
      rintro rfl
      rw [mul_zero] at hpast
      exact hpast (by linarith)
    exact accelerateOver_forward hx hw0 (htime hmoves).1

lemma forward_duration_end_acceleration (hy : 0 ≤ y) (hv0 : ∀ v ∈ v0, 0 ≤ v) (hw1 : 0 ≤ w1) :
    Yields (fun r => Forward none (some y) v0 (some w1) r.2 r.1)
      (MotionSpec.solve given none (some y) v0 (some w1) (some a)) := by
  simp only [MotionSpec.solve, zero_real]
  have hw0 := getD_nonneg hv0
  refine .bind (fun _ h => rampTime_ok h) fun ramp hsteep => ?_
  obtain ⟨hramp, -, htime⟩ := hsteep
  refine .branch (fun _ => .pure ?_) fun hshort => .pure ?_
  · exact forward_unstated (drivable_rampThenCruise hw0 hw1 ramp y)
  · have hshort := not_le.mp hshort
    obtain ⟨ha, rfl⟩ := htime (hy.trans_lt hshort)
    refine forward_unstated (drivable_rampOver hw0 ?_ y)
    -- The speed at the end of the time lies between both speeds.
    have hspeed : (w1 - v0.getD 0) / a * a = w1 - v0.getD 0 := div_mul_cancel₀ _ ha
    rcases lt_or_gt_of_ne ha with hneg | hpos
    · nlinarith
    · positivity

end Branches

/-- Each way of solving a motion gives a profile that goes forward only. -/
theorem solve_forward (hd : ∀ x ∈ d, 0 ≤ x) (ht : ∀ y ∈ t, 0 ≤ y) (hv0 : ∀ v ∈ v0, 0 ≤ v)
    (hv1 : ∀ v ∈ v1, 0 ≤ v) (a : Option ℝ) :
    Yields (fun r => Forward d t v0 v1 r.2 r.1) (MotionSpec.solve given d t v0 v1 a) := by
  intro r h
  have hbranch := h
  unfold MotionSpec.solve at hbranch
  split at hbranch
  · cases hbranch
    exact forward_unstated (drivable_stationary _)
  · exact forward_distance_duration (hd _ rfl) r h
  · exact forward_distance_start (hd _ rfl) r h
  · cases hbranch
    exact forward_unstated (drivable_constant (hv0 _ rfl) _)
  · exact forward_distance_speeds (hd _ rfl) (hv0 _ rfl) (hv1 _ rfl) r h
  · cases hbranch
    exact forward_unstated (drivable_rampOver (hv0 _ rfl) (hv1 _ rfl) _)
  · exact forward_distance_duration_start (hd _ rfl) (hv0 _ rfl) r h
  · exact forward_distance_duration_end (hd _ rfl) (hv1 _ rfl) r h
  · exact forward_distance_duration_speeds (hd _ rfl) (hv0 _ rfl) (hv1 _ rfl) r h
  · exact forward_distance_acceleration (hd _ rfl) hv0 r h
  · exact forward_duration_acceleration hv0 r h
  · exact forward_end_acceleration hv0 (hv1 _ rfl) r h
  · exact forward_distance_end_acceleration (hd _ rfl) hv0 (hv1 _ rfl) r h
  · exact forward_duration_end_acceleration (ht _ rfl) hv0 (hv1 _ rfl) r h
  · cases hbranch

lemma nonNegative_isSome {note : ℝ → MotionNote ℝ} {v : Option ℝ} :
    (MotionSpec.nonNegative note v).1.isSome → v.isSome := by
  cases v with
  | none => exact id
  | some x => exact fun _ => rfl

/-- Whatever is noted of a motion, its profile goes forward only, and not beyond its distance. -/
theorem resolve_forward {s : MotionSpec ℝ} {motion : ResolvedMotion ℝ}
    (h : s.resolve = .ok motion) :
    Forward (s.distance.map Distance.internal) (s.duration.map TimeSpan.internal)
      (s.startSpeed.map Speed.internal) (s.endSpeed.map Speed.internal) motion.notes
      motion.profile := by
  unfold MotionSpec.resolve at h
  dsimp only at h
  split at h
  · cases h
  next hd =>
    split at h
    · cases h
    next ht =>
      obtain ⟨⟨q, notes⟩, hsolve, h⟩ := bind_eq_ok.mp h
      cases h
      have hforward := solve_forward (nonneg_of_any hd) (nonneg_of_any ht) nonNegative_nonneg
        nonNegative_nonneg _ _ hsolve
      refine ⟨hforward.drivable, fun x hx => (hforward.covers x hx).mono ?_ ?_ ?_⟩
      · exact nonNegative_isSome
      · exact nonNegative_isSome
      · exact List.subset_append_right _ _

/-- A motion that is resolved is one motion forward in time, with or without notes, and does not
go beyond the distance that is stated. -/
theorem resolved_motion_physical {s : MotionSpec ℝ} {motion : ResolvedMotion ℝ}
    (h : s.resolve = .ok motion) : Physical motion.profile ∧
      ∀ d ∈ s.distance, motion.profile.distance ≤ d.internal + 1e-6 * max d.internal 1 := by
  have hforward := resolve_forward h
  refine ⟨hforward.drivable.physical, fun d hd => ?_⟩
  exact (hforward.covers _ (Option.mem_map_of_mem _ hd)).le

end Solving

section Braking

/-- Ten meters in ten seconds, from five meters per second on: half of that would do. -/
noncomputable def braking : MotionSpec ℝ where
  distance := some (.centimeters 1000)
  duration := some (.seconds 10)
  startSpeed := some (.centimetersPerSecond 500)

lemma braking_resolve : braking.resolve =
    .ok ⟨Profile.rampThenCruise 500 0 4 10, [.endSpeedClamped (-300)]⟩ := by
  have hforward : ¬(500 : ℝ) < 0 ∧ ¬(1000 : ℝ) < 0 ∧ ¬(10 : ℝ) < 0 := by norm_num
  have htime : ¬(10 : ℝ) ≤ 1e-9 := by norm_num
  have hbrakes : ¬(0 : ℝ) ≤ 2 * 1000 / 10 - 500 := by norm_num
  simp only [MotionSpec.resolve, braking, Option.map_some, Option.map_none, centimeters_real,
    seconds_real, centimetersPerSecond_real]
  simp [MotionSpec.nonNegative, MotionSpec.solve, tolerance_real, hforward, htime, hbrakes]
  norm_num
  rfl

/-- The actor comes to rest after four of its ten seconds. -/
theorem braking_is_physical :
    braking.resolve = .ok ⟨Profile.rampThenCruise 500 0 4 10, [.endSpeedClamped (-300)]⟩ ∧
      Physical (Profile.rampThenCruise (500 : ℝ) 0 4 10) :=
  ⟨braking_resolve, (resolved_motion_physical braking_resolve).1⟩

end Braking

end Stagecraft.Proofs
