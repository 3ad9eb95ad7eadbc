import Stagecraft.Motion
import Stagecraft.Proofs.Outcomes
import Stagecraft.Proofs.RealScalar

/-!
# The shape of a profile

However a motion is solved, its profile is a ramp followed by a cruise. So it never takes a
negative time.
-/

namespace Stagecraft.Proofs

section Shape

variable {K : Type} [Scalar K]

/-- A profile put together from a ramp and a cruise. -/
def Built (p : Profile K) : Prop :=
  ∃ v0 v1 ramp t, p = Profile.rampThenCruise v0 v1 ramp t

lemma built_rampThenCruise (v0 v1 ramp t : K) : Built (Profile.rampThenCruise v0 v1 ramp t) :=
  ⟨v0, v1, ramp, t, rfl⟩

lemma built_stationary (t : K) : Built (Profile.stationary t) := built_rampThenCruise 0 0 0 t

lemma built_constant (v t : K) : Built (Profile.constant v t) := built_rampThenCruise v v 0 t

lemma built_rampOver (v0 v1 t : K) : Built (Profile.rampOver v0 v1 t) :=
  built_rampThenCruise v0 v1 t t

lemma inNoTime_built (d : K) : Yields Built (MotionSpec.inNoTime d) :=
  .ite .error (.ok (built_stationary 0))

lemma coverAtSpeed_built (d v : K) : Yields Built (MotionSpec.coverAtSpeed d v) :=
  .ite (.ok (built_stationary 0)) (.ite .error (.ok (built_constant v (d / v))))

lemma accelerateOver_built (d v a : K) : Built (MotionSpec.accelerateOver d v a).1 := by
  unfold MotionSpec.accelerateOver
  by_cases h : v * v + 2 * a * d < 0
  · simp only [h, if_true]
    exact built_rampOver v 0 _
  · simp only [h, if_false]
    exact built_rampOver v _ _

/-- Each way of solving a motion ends in a ramp and a cruise. -/
theorem solve_built (given : List String) (d t v0 v1 a : Option K) :
    Yields (fun r => Built r.1) (MotionSpec.solve given d t v0 v1 a) := by
  unfold MotionSpec.solve
  split
  · exact .pure (built_stationary _)
  · exact .ite (.bind (inNoTime_built _) fun p hp => .pure hp) (.pure (built_constant _ _))
  · exact .bind (coverAtSpeed_built _ _) fun p hp => .pure hp
  · exact .pure (built_constant _ _)
  · exact .ite (.pure (built_stationary _)) (.ite .throw (.pure (built_rampOver _ _ _)))
  · exact .pure (built_rampOver _ _ _)
  · exact .ite (.bind (inNoTime_built _) fun p hp => .pure hp)
      (.ite (.pure (built_rampOver _ _ _)) (.pure (built_rampThenCruise _ _ _ _)))
  · exact .ite (.bind (inNoTime_built _) fun p hp => .pure hp)
      (.ite (.pure (built_rampOver _ _ _)) (.pure (built_rampOver _ _ _)))
  · exact .ite (.bind (inNoTime_built _) fun p hp => .pure hp)
      (.ite .throw (.pure (built_rampOver _ _ _)))
  · exact .ite (.bind (coverAtSpeed_built _ _) fun p hp => .pure hp)
      (.pure (accelerateOver_built _ _ _))
  · exact .ite (.pure (built_rampOver _ _ _)) (.pure (built_rampThenCruise _ _ _ _))
  · exact .bind .trivial fun ramp _ => .pure (built_rampOver _ _ _)
  · exact .bind .trivial fun ramp _ =>
      .ite (.ite (.pure (built_rampThenCruise _ _ _ _))
        (.ite .throw (.pure (built_rampThenCruise _ _ _ _)))) (.pure (accelerateOver_built _ _ _))
  · exact .bind .trivial fun ramp _ =>
      .ite (.pure (built_rampThenCruise _ _ _ _)) (.pure (built_rampOver _ _ _))
  · exact .throw

theorem resolve_built (s : MotionSpec K) : Yields (fun m => Built m.profile) s.resolve := by
  unfold MotionSpec.resolve
  exact .ite .throw (.ite .throw (.bind (solve_built _ _ _ _ _ _) fun r hr => .pure hr))

end Shape

lemma Built.duration_nonneg {p : Profile ℝ} (h : Built p) : 0 ≤ p.duration := by
  obtain ⟨v0, v1, ramp, t, rfl⟩ := h
  unfold Profile.rampThenCruise
  rw [larger_real, zero_real]
  exact le_max_right t 0

/-- Nothing is covered at the start, also where no time is taken. -/
lemma Built.distanceAt_zero {p : Profile ℝ} (h : Built p) : p.distanceAt 0 = 0 := by
  have hduration := h.duration_nonneg
  obtain ⟨v0, v1, ramp, t, rfl⟩ := h
  unfold Profile.rampThenCruise at hduration ⊢
  dsimp only at hduration ⊢
  generalize Scalar.larger t (@OfNat.ofNat ℝ 0 Scalar.instOfNat) = d at hduration ⊢
  obtain ⟨hlow, hhigh⟩ := clamp_mem hduration ramp
  rw [zero_real]
  generalize Scalar.clamp 0 d ramp = r at hlow hhigh ⊢
  have hstart : Scalar.clamp (@OfNat.ofNat ℝ 0 Scalar.instOfNat) d 0 = 0 := by
    rw [zero_real]
    exact clamp_of_mem le_rfl hduration
  unfold Profile.distanceAt
  simp only [hstart]
  split
  next hnone =>
    have hd : d = 0 := le_antisymm hnone hduration
    have hr : r = 0 := le_antisymm (hhigh.trans hd.le) hlow
    rw [hd, hr]
    ring
  next =>
    split
    next => ring
    next hramp =>
      have hr : r = 0 := le_antisymm (not_lt.mp hramp) hlow
      rw [hr]
      ring

section Profiles

variable {v0 v1 v ramp t : ℝ}

lemma rampThenCruise_of_le (hramp : 0 ≤ ramp) (ht : ramp ≤ t) :
    Profile.rampThenCruise v0 v1 ramp t =
      ⟨v0, v1, ramp, t, (v0 + v1) / 2 * ramp + v1 * (t - ramp)⟩ := by
  have hduration := larger_zero_of_nonneg (hramp.trans ht)
  have hclamp : Scalar.clamp (@OfNat.ofNat ℝ 0 Scalar.instOfNat) t ramp = ramp :=
    clamp_of_mem (by rw [zero_real]; exact hramp) ht
  unfold Profile.rampThenCruise
  simp only [hduration, hclamp, two_real]

lemma rampOver_of_nonneg (ht : 0 ≤ t) :
    Profile.rampOver v0 v1 t = ⟨v0, v1, t, t, (v0 + v1) / 2 * t⟩ := by
  unfold Profile.rampOver
  rw [rampThenCruise_of_le ht le_rfl, sub_self, mul_zero, add_zero]

lemma constant_of_nonneg (ht : 0 ≤ t) : Profile.constant v t = ⟨v, v, 0, t, v * t⟩ := by
  unfold Profile.constant
  rw [zero_real, rampThenCruise_of_le le_rfl ht, mul_zero, zero_add, sub_zero]

lemma stationary_of_nonneg (ht : 0 ≤ t) : Profile.stationary t = ⟨0, 0, 0, t, 0⟩ := by
  unfold Profile.stationary
  rw [zero_real, rampThenCruise_of_le le_rfl ht, zero_mul, mul_zero, add_zero]

end Profiles

end Stagecraft.Proofs
