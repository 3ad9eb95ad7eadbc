import Stagecraft.Curve
import Stagecraft.Proofs.ResolvedMotions

/-!
# Zero divisors

What a division by zero gives is a convention. `divided` is exact arithmetic with an arbitrary one.
The functions that solve motions and measure curves look at every divisor before they divide, and so
they make the same of their numbers under any convention.
-/

namespace Stagecraft.Proofs

/-- Exact arithmetic, in which a division by zero gives any quotient and any remainder. -/
noncomputable abbrev divided (quotient remainder : ℝ → ℝ) : Scalar ℝ :=
  { realScalar with
    div := fun x y => if y = 0 then quotient x else x / y
    rem := fun x y => if y = 0 then remainder x else Scalar.rem x y }

variable {f g : ℝ → ℝ}

section Numbers

variable {x y : ℝ}

lemma div_divided (h : y ≠ 0) :
    @HDiv.hDiv ℝ ℝ ℝ (@instHDiv ℝ (divided f g).toDiv) x y = x / y := if_neg h

lemma literal_ne_zero {n : ℕ} (h : n ≠ 0) :
    @OfNat.ofNat ℝ n (@Scalar.instOfNat ℝ (divided f g) n) ≠ 0 :=
  Nat.cast_ne_zero.mpr h

/-- The program's own zero is zero. -/
lemma ne_zero_of_pos (h : @OfNat.ofNat ℝ 0 Scalar.instOfNat < x) : x ≠ 0 := by
  rw [zero_real] at h
  exact h.ne'

lemma modulo_divided (h : y ≠ 0) :
    @Scalar.modulo ℝ (divided f g) x y = Scalar.modulo x y := by
  have hrem : (divided f g).rem x y = Scalar.rem x y := if_neg h
  unfold Scalar.modulo
  rw [hrem]
  rfl

lemma epsilon_divided : @Scalar.epsilon ℝ (divided f g) = Scalar.epsilon :=
  div_divided (literal_ne_zero (by norm_num))

lemma leastNormal_divided : @Scalar.leastNormal ℝ (divided f g) = Scalar.leastNormal :=
  div_divided (Nat.cast_ne_zero.mpr (by decide))

lemma speed_divided (v : Speed ℝ) : @Speed.internal ℝ (divided f g) v = v.internal := by
  obtain ⟨value, unit⟩ := v
  cases unit with
  | kilometersPerHour =>
    unfold Speed.internal SpeedUnit.factor
    dsimp only
    rw [div_divided (literal_ne_zero (show 3600 ≠ 0 by norm_num))]
  | metersPerSecond | centimetersPerSecond | milesPerHour => rfl

lemma shortestYaw_divided (current target : ℝ) :
    @shortestYaw ℝ (divided f g) current target = shortestYaw current target := by
  unfold shortestYaw
  rw [modulo_divided (literal_ne_zero (show 360 ≠ 0 by norm_num))]

lemma unwrapYaw_divided (current target : ℝ) :
    @unwrapYaw ℝ (divided f g) current target = unwrapYaw current target := by
  unfold unwrapYaw
  rw [shortestYaw_divided]

lemma secondsAt_divided {rate : FrameRate ℝ} (h : rate.fps ≠ 0) (frame : ℕ) :
    @FrameRate.secondsAt ℝ (divided f g) rate frame = rate.secondsAt frame :=
  div_divided h

end Numbers

section Motions

lemma rampThenCruise_divided (startSpeed endSpeed ramp duration : ℝ) :
    @Profile.rampThenCruise ℝ (divided f g) startSpeed endSpeed ramp duration =
      Profile.rampThenCruise startSpeed endSpeed ramp duration := by
  unfold Profile.rampThenCruise
  rw [div_divided (literal_ne_zero two_ne_zero)]
  rfl

lemma stationary_divided (duration : ℝ) :
    @Profile.stationary ℝ (divided f g) duration = Profile.stationary duration :=
  rampThenCruise_divided _ _ _ _

lemma constant_divided (speed duration : ℝ) :
    @Profile.constant ℝ (divided f g) speed duration = Profile.constant speed duration :=
  rampThenCruise_divided _ _ _ _

lemma rampOver_divided (startSpeed endSpeed duration : ℝ) :
    @Profile.rampOver ℝ (divided f g) startSpeed endSpeed duration =
      Profile.rampOver startSpeed endSpeed duration :=
  rampThenCruise_divided _ _ _ _

lemma inNoTime_divided (distance : ℝ) :
    @MotionSpec.inNoTime ℝ (divided f g) distance = MotionSpec.inNoTime distance := by
  unfold MotionSpec.inNoTime
  rw [stationary_divided]
  rfl

lemma coverAtSpeed_divided (distance speed : ℝ) :
    @MotionSpec.coverAtSpeed ℝ (divided f g) distance speed =
      MotionSpec.coverAtSpeed distance speed := by
  unfold MotionSpec.coverAtSpeed
  rw [stationary_divided]
  refine ite_congr rfl (fun _ => rfl) fun _ => ite_congr rfl (fun _ => rfl) fun hspeed => ?_
  rw [tolerance_real] at hspeed
  rw [constant_divided, div_divided (by linarith)]

lemma ne_zero_of_steep {a : ℝ} (h : ¬Scalar.abs a ≤ Scalar.tolerance) : a ≠ 0 := by
  rintro rfl
  rw [abs_real, tolerance_real, abs_zero] at h
  exact h (by norm_num)

lemma rampTime_divided (startSpeed endSpeed acceleration : ℝ) :
    @MotionSpec.rampTime ℝ (divided f g) startSpeed endSpeed acceleration =
      MotionSpec.rampTime startSpeed endSpeed acceleration := by
  unfold MotionSpec.rampTime
  refine ite_congr rfl (fun _ => rfl) fun hsteep => ?_
  rw [div_divided (ne_zero_of_steep hsteep)]

/-- Where an actor accelerates over a distance, it does accelerate. -/
lemma accelerateOver_divided (distance startSpeed : ℝ) {acceleration : ℝ} (h : acceleration ≠ 0) :
    @MotionSpec.accelerateOver ℝ (divided f g) distance startSpeed acceleration =
      MotionSpec.accelerateOver distance startSpeed acceleration := by
  unfold MotionSpec.accelerateOver
  dsimp only
  refine ite_congr rfl (fun _ => ?_) fun _ => ?_
  · rw [rampOver_divided, div_divided (neg_ne_zero.mpr h),
      div_divided (mul_ne_zero (literal_ne_zero two_ne_zero) (neg_ne_zero.mpr h))]
  · rw [rampOver_divided, div_divided h]
    rfl

lemma clamp_nonneg {hi x : ℝ} (h : ¬hi ≤ Scalar.clamp 0 hi x) : 0 ≤ Scalar.clamp 0 hi x := by
  unfold Scalar.clamp at h ⊢
  by_cases hneg : x < 0
  · rw [if_pos hneg]
  · rw [if_neg hneg] at h ⊢
    by_cases hover : hi < x
    · rw [if_pos hover] at h
      exact absurd le_rfl h
    · rw [if_neg hover]
      exact not_lt.mp hneg

/-- The time on a ramp is not negative, so a ramp that is not over takes time. -/
lemma distanceAt_divided (p : Profile ℝ) (t : ℝ) :
    @Profile.distanceAt ℝ (divided f g) p t = p.distanceAt t := by
  unfold Profile.distanceAt
  refine ite_congr rfl (fun _ => rfl) fun hend => ite_congr rfl (fun hramp => ?_) fun _ => ?_
  · rw [zero_real] at hend hramp
    have hpos : 0 < p.ramp := (clamp_nonneg hend).trans_lt hramp
    rw [div_divided hpos.ne']
    rfl
  · rw [div_divided (literal_ne_zero two_ne_zero)]
    rfl

/-- In a duration that is not negative no moment comes before the start. -/
lemma speedAt_divided {p : Profile ℝ} (h : 0 ≤ p.duration) (t : ℝ) :
    @Profile.speedAt ℝ (divided f g) p t = p.speedAt t := by
  unfold Profile.speedAt
  refine ite_congr rfl (fun hramp => ?_) fun _ => rfl
  have hpos : 0 < p.ramp := by
    rw [zero_real] at hramp
    exact (clamp_mem h t).1.trans_lt hramp
  rw [div_divided hpos.ne']
  rfl

/-- Quantities that a motion may be solved for: the distance and the start speed are not
negative. -/
structure Solvable (distance startSpeed : Option ℝ) : Prop where
  distance_nonneg : ∀ d, distance = some d → 0 ≤ d
  startSpeed_nonneg : ∀ v, startSpeed = some v → 0 ≤ v

lemma Solvable.start_nonneg {d v0 : Option ℝ} (h : Solvable d v0) :
    0 ≤ v0.getD (@OfNat.ofNat ℝ 0 Scalar.instOfNat) := by
  cases v0 with
  | none => exact zero_real.ge
  | some v => exact h.startSpeed_nonneg v rfl

section Solving

variable {given : List String} {d t v0 v1 a : ℝ}

/-- In time, a stated duration is a divisor; in no time nothing is divided. -/
lemma inTime_divided {p q : Except (MotionError ℝ) (Profile ℝ × List (MotionNote ℝ))}
    (h : 1e-9 < t → p = q) :
    (if t ≤ @Scalar.tolerance ℝ (divided f g) then
      (@MotionSpec.inNoTime ℝ (divided f g) d >>= fun r => pure (r, [])) else p) =
    (if t ≤ Scalar.tolerance then (MotionSpec.inNoTime d >>= fun r => pure (r, [])) else q) := by
  refine ite_congr rfl (fun _ => ?_) fun ht => h ?_
  · rw [inNoTime_divided]
  · rw [tolerance_real] at ht
    exact not_le.mp ht

lemma solve_covering :
    @MotionSpec.solve ℝ (divided f g) given (some d) (some t) none none none =
      MotionSpec.solve given (some d) (some t) none none none := by
  refine inTime_divided fun ht => ?_
  rw [constant_divided, div_divided (by linarith)]

lemma solve_between :
    @MotionSpec.solve ℝ (divided f g) given (some d) none (some v0) (some v1) none =
      MotionSpec.solve given (some d) none (some v0) (some v1) none := by
  refine ite_congr rfl (fun _ => ?_) fun _ => ite_congr rfl (fun _ => rfl) fun hspeed => ?_
  · rw [stationary_divided]
  · rw [tolerance_real] at hspeed
    rw [rampOver_divided, div_divided (by linarith)]

/-- An actor that is to brake moves: it is faster at first than on average. -/
lemma solve_from_start (hd : 0 ≤ d) :
    @MotionSpec.solve ℝ (divided f g) given (some d) (some t) (some v0) none none =
      MotionSpec.solve given (some d) (some t) (some v0) none none := by
  refine inTime_divided fun ht => ?_
  rw [div_divided (by linarith)]
  refine ite_congr rfl (fun _ => ?_) fun hbrake => ?_
  · rw [rampOver_divided]
  · have hmean : 0 ≤ 2 * d / t := by positivity
    have hv0 : 2 * d / t < v0 := by
      rw [zero_real, two_real] at hbrake
      linarith
    rw [rampThenCruise_divided, div_divided (hmean.trans_lt hv0).ne']

lemma solve_to_end :
    @MotionSpec.solve ℝ (divided f g) given (some d) (some t) none (some v1) none =
      MotionSpec.solve given (some d) (some t) none (some v1) none := by
  refine inTime_divided fun ht => ?_
  rw [div_divided (by linarith)]
  refine ite_congr rfl (fun _ => ?_) fun _ => ?_
  · rw [rampOver_divided]
  · dsimp only
    rw [rampOver_divided]

lemma solve_overdetermined :
    @MotionSpec.solve ℝ (divided f g) given (some d) (some t) (some v0) (some v1) none =
      MotionSpec.solve given (some d) (some t) (some v0) (some v1) none := by
  refine inTime_divided fun ht => ?_
  rw [div_divided (literal_ne_zero two_ne_zero)]
  refine ite_congr rfl (fun _ => rfl) fun _ => ?_
  rw [rampOver_divided]

lemma solve_over :
    @MotionSpec.solve ℝ (divided f g) given (some d) none (some v0) none (some a) =
      MotionSpec.solve given (some d) none (some v0) none (some a) := by
  refine ite_congr rfl (fun _ => ?_) fun hsteep => ?_
  · rw [coverAtSpeed_divided]
  · exact congrArg pure (accelerateOver_divided d v0 (ne_zero_of_steep hsteep))

/-- An actor that is to stop before the time is over brakes. -/
lemma solve_for (hv0 : 0 ≤ v0) :
    @MotionSpec.solve ℝ (divided f g) given none (some t) (some v0) none (some a) =
      MotionSpec.solve given none (some t) (some v0) none (some a) := by
  refine ite_congr rfl (fun _ => ?_) fun hstop => ?_
  · rw [rampOver_divided]
  · rw [zero_real] at hstop
    have ha : -a ≠ 0 := by
      intro ha
      rw [neg_eq_zero.mp ha] at hstop
      exact hstop (by simpa using hv0)
    rw [rampThenCruise_divided, div_divided ha]

lemma solve_ramp :
    @MotionSpec.solve ℝ (divided f g) given none none (some v0) (some v1) (some a) =
      MotionSpec.solve given none none (some v0) (some v1) (some a) := by
  refine bind_congr_ok (rampTime_divided v0 v1 a) fun ramp _ => ?_
  rw [rampOver_divided]

/-- A ramp that covers some distance takes time, so there is an acceleration. -/
lemma solve_ramp_over (hd : 0 ≤ d) :
    @MotionSpec.solve ℝ (divided f g) given (some d) none (some v0) (some v1) (some a) =
      MotionSpec.solve given (some d) none (some v0) (some v1) (some a) := by
  refine bind_congr_ok (rampTime_divided v0 v1 a) fun ramp hramp => ?_
  dsimp only
  rw [div_divided (literal_ne_zero two_ne_zero)]
  refine ite_congr rfl (fun _ => ?_) fun hover => ?_
  · refine ite_congr rfl (fun _ => ?_) fun _ => ite_congr rfl (fun _ => rfl) fun hspeed => ?_
    · rw [rampThenCruise_divided]
    · rw [tolerance_real] at hspeed
      rw [rampThenCruise_divided, div_divided (by linarith)]
      rfl
  · obtain ⟨hnonneg, -, htime⟩ := rampTime_ok hramp
    have hpos : 0 < ramp := by
      refine hnonneg.lt_of_ne ?_
      rintro rfl
      rw [tolerance_real, mul_zero] at hover
      exact hover (by linarith)
    exact congrArg pure (accelerateOver_divided d v0 (htime hpos).1)

lemma solve_ramp_for :
    @MotionSpec.solve ℝ (divided f g) given none (some t) (some v0) (some v1) (some a) =
      MotionSpec.solve given none (some t) (some v0) (some v1) (some a) := by
  refine bind_congr_ok (rampTime_divided v0 v1 a) fun ramp _ => ?_
  refine ite_congr rfl (fun _ => ?_) fun _ => ?_
  · rw [rampThenCruise_divided]
  · rw [rampOver_divided]

/-- An actor whose acceleration is known starts at rest unless its start speed is known too. -/
lemma solve_from_rest {K : Type} [Scalar K] (given : List String) (d t v0 v1 : Option K) (a : K) :
    MotionSpec.solve given d t v0 v1 (some a) =
      MotionSpec.solve given d t (some (v0.getD 0)) v1 (some a) := by
  cases d <;> cases t <;> cases v0 <;> cases v1 <;> rfl

end Solving

theorem solve_divided (given : List String) {d v0 : Option ℝ} (t v1 a : Option ℝ)
    (h : Solvable d v0) :
    @MotionSpec.solve ℝ (divided f g) given d t v0 v1 a = MotionSpec.solve given d t v0 v1 a := by
  have hd := h.distance_nonneg
  cases a with
  | none =>
    cases d with
    | none =>
      cases t with
      | none => cases v0 <;> cases v1 <;> rfl
      | some t =>
        cases v0 with
        | none =>
          cases v1 with
          | none => exact congrArg (fun p => pure (p, [])) (stationary_divided t)
          | some v1 => rfl
        | some v0 =>
          cases v1 with
          | none => exact congrArg (fun p => pure (p, [])) (constant_divided v0 t)
          | some v1 => exact congrArg (fun p => pure (p, [])) (rampOver_divided v0 v1 t)
    | some d =>
      cases t with
      | none =>
        cases v0 with
        | none => cases v1 <;> rfl
        | some v0 =>
          cases v1 with
          | none => exact bind_congr_ok (coverAtSpeed_divided d v0) fun _ _ => rfl
          | some v1 => exact solve_between
      | some t =>
        cases v0 with
        | none =>
          cases v1 with
          | none => exact solve_covering
          | some v1 => exact solve_to_end
        | some v0 =>
          cases v1 with
          | none => exact solve_from_start (hd d rfl)
          | some v1 => exact solve_overdetermined
  | some a =>
    refine (@solve_from_rest ℝ (divided f g) given d t v0 v1 a).trans
      (Eq.trans ?_ (solve_from_rest given d t v0 v1 a).symm)
    cases d with
    | none =>
      cases t with
      | none =>
        cases v1 with
        | none => rfl
        | some v1 => exact solve_ramp
      | some t =>
        cases v1 with
        | none => exact solve_for h.start_nonneg
        | some v1 => exact solve_ramp_for
    | some d =>
      cases t with
      | none =>
        cases v1 with
        | none => exact solve_over
        | some v1 => exact solve_ramp_over (hd d rfl)
      | some t => cases v1 <;> rfl

theorem resolve_divided (s : MotionSpec ℝ) : @MotionSpec.resolve ℝ (divided f g) s = s.resolve := by
  have hspeeds (v : Option (Speed ℝ)) :
      v.map (@Speed.internal ℝ (divided f g)) = v.map Speed.internal :=
    congrFun (congrArg Option.map (funext speed_divided)) v
  unfold MotionSpec.resolve
  rw [hspeeds, hspeeds]
  refine ite_congr rfl (fun _ => rfl) fun hd => ite_congr rfl (fun _ => rfl) fun _ => ?_
  exact bind_congr_ok (solve_divided _ _ _ _ ⟨nonneg_of_any hd, nonNegative_nonneg⟩)
    fun _ _ => rfl

end Motions

section Curves

lemma epsilon_pos : 0 < (Scalar.epsilon : ℝ) :=
  div_pos (Nat.cast_pos.mpr (by norm_num)) (Nat.cast_pos.mpr (by norm_num))

lemma length_pos {a : Vec3 ℝ} (h : ¬a.length ≤ Scalar.epsilon) : 0 < a.length :=
  epsilon_pos.trans (not_le.mp h)

lemma normalized_divided (a : Vec3 ℝ) : @Vec3.normalized ℝ (divided f g) a = a.normalized := by
  unfold Vec3.normalized
  rw [epsilon_divided]
  refine ite_congr rfl (fun _ => rfl) fun hlong => ?_
  exact congrArg (a * ·) (div_divided (length_pos hlong).ne')

lemma segment_sample_divided (s : CurveSegment ℝ) (t : ℝ) :
    @CurveSegment.sample ℝ (divided f g) s t = s.sample t := by
  unfold CurveSegment.sample
  rw [normalized_divided, normalized_divided]
  rfl

lemma chord_divided {samples : ℕ} (h : samples ≠ 0) (segment : CurveSegment ℝ) (index : ℕ)
    (s : Survey ℝ) (k : ℕ) :
    @Survey.chord ℝ (divided f g) samples segment index s k = s.chord samples segment index k := by
  have hsamples : @Scalar.ofNat ℝ (divided f g) samples ≠ 0 := Nat.cast_ne_zero.mpr h
  unfold Survey.chord
  rw [div_divided hsamples]
  rfl

lemma along_divided {samples : ℕ} (h : samples ≠ 0) (s : Survey ℝ)
    (segment : CurveSegment ℝ × ℕ) :
    @Survey.along ℝ (divided f g) samples s segment = s.along samples segment := by
  unfold Survey.along
  congr 1
  funext s k
  exact chord_divided h _ _ s k

lemma ofSegments_divided {samples : ℕ} (h : samples ≠ 0) (segments : List (CurveSegment ℝ)) :
    @Survey.ofSegments ℝ (divided f g) samples segments = Survey.ofSegments samples segments := by
  have halong : @Survey.along ℝ (divided f g) samples = Survey.along samples :=
    funext fun s => funext fun segment => along_divided h s segment
  unfold Survey.ofSegments
  rw [halong]
  rfl

lemma segmentsOf_divided (tension : ℝ) : ∀ points : List (Vec3 ℝ),
    @Curve.segmentsOf ℝ (divided f g) tension points = Curve.segmentsOf tension points
  | [] | [_] | [_, _] | [_, _, _] => rfl
  | _ :: p1 :: p2 :: p3 :: rest =>
    congrArg (List.cons _) (segmentsOf_divided tension (p1 :: p2 :: p3 :: rest))

/-- However few samples are asked for, a segment has some. -/
lemma ofSpline?_divided (spline : Spline ℝ) (samples : ℕ) :
    @Curve.ofSpline? ℝ (divided f g) spline samples = Curve.ofSpline? spline samples := by
  have hsamples : max samples 4 ≠ 0 := by omega
  unfold Curve.ofSpline?
  refine ite_congr rfl (fun _ => rfl) fun _ => ?_
  dsimp only
  rw [ofSegments_divided hsamples, segmentsOf_divided]

/-- The parameter in proportion between two rows of a table of arclength. -/
def rowsBetween {K : Type} [Scalar K] (s : K) (row row' : K × K) : K :=
  if row'.2 - row.2 ≤ Scalar.epsilon then row'.1
  else row.1 + (row'.1 - row.1) * (s - row.2) / (row'.2 - row.2)

lemma rowsBetween_divided :
    @rowsBetween ℝ (divided f g) = rowsBetween := by
  funext s row row'
  unfold rowsBetween
  rw [epsilon_divided]
  refine ite_congr rfl (fun _ => rfl) fun hrows => ?_
  have hpos : 0 < row'.2 - row.2 := epsilon_pos.trans (not_le.mp hrows)
  rw [div_divided hpos.ne']

lemma parameterAt_eq {K : Type} [Scalar K] (c : Curve K) (distance : K) :
    c.parameterAt distance =
      let s := Scalar.clamp 0 c.length distance
      let i := countFront c.table fun row => row.2 < s
      if i = 0 then 0
      else (Option.map₂ (rowsBetween s) c.table[i - 1]? c.table[i]?).getD c.segments.size := by
  unfold Curve.parameterAt
  dsimp only
  generalize countFront c.table _ = i
  cases i with
  | zero => rfl
  | succ i =>
    rw [if_neg (Nat.succ_ne_zero i)]
    cases c.table[i + 1 - 1]? with
    | none => rfl
    | some row => cases c.table[i + 1]? <;> rfl

lemma parameterAt_divided (c : Curve ℝ) (distance : ℝ) :
    @Curve.parameterAt ℝ (divided f g) c distance = c.parameterAt distance := by
  rw [@parameterAt_eq ℝ (divided f g), parameterAt_eq, rowsBetween_divided]
  rfl

lemma locate_divided (c : Curve ℝ) (distance : ℝ) :
    @Curve.locate ℝ (divided f g) c distance = c.locate distance := by
  unfold Curve.locate
  rw [parameterAt_divided]
  rfl

lemma sampleAt?_divided (c : Curve ℝ) (distance : ℝ) :
    @Curve.sampleAt? ℝ (divided f g) c distance = c.sampleAt? distance := by
  unfold Curve.sampleAt?
  rw [locate_divided]
  simp only [segment_sample_divided]

lemma wrap?_divided (c : Curve ℝ) (distance : ℝ) :
    @Curve.wrap? ℝ (divided f g) c distance = c.wrap? distance := by
  unfold Curve.wrap?
  refine ite_congr rfl (fun hclosed => ?_) fun _ => rfl
  obtain ⟨-, hpos⟩ := Bool.and_eq_true_iff.mp hclosed
  rw [zero_real, decide_eq_true_eq] at hpos
  rw [modulo_divided hpos.ne']

lemma travelAt?_divided (c : Curve ℝ) (distance : ℝ) :
    @Curve.travelAt? ℝ (divided f g) c distance = c.travelAt? distance := by
  unfold Curve.travelAt?
  rw [wrap?_divided]
  simp only [sampleAt?_divided]

end Curves

end Stagecraft.Proofs
