import Stagecraft.Proofs.ProfileShape

/-!
# Physical profiles

The speed and the distance of a profile are two functions of time that are written independently.
Where neither end of the ramp is backward they are one motion: the distance grows by the mean of
the speeds, within the ramp and within the cruise, and nothing jumps where these meet. Both
functions are expressed by the time that is over and the part of the ramp that is left then.
-/

namespace Stagecraft.Proofs

/-- A profile that goes forward only. Its ramp fits into its duration and its distance is the one
that both phases cover. -/
structure Drivable (p : Profile ℝ) : Prop where
  startSpeed_nonneg : 0 ≤ p.startSpeed
  endSpeed_nonneg : 0 ≤ p.endSpeed
  ramp_nonneg : 0 ≤ p.ramp
  ramp_le : p.ramp ≤ p.duration
  distance_eq : p.distance =
    (p.startSpeed + p.endSpeed) / 2 * p.ramp + p.endSpeed * (p.duration - p.ramp)

/-- Both times lie in the ramp, or both in the cruise. -/
def SamePhase (p : Profile ℝ) (t₁ t₂ : ℝ) : Prop :=
  t₂ ≤ p.ramp ∨ p.ramp ≤ t₁

/-- A profile is a motion forward: it starts with nothing covered, ends with its distance, and in
each of its phases the distance grows by the mean speed. Neither speed nor distance jump. -/
structure Physical (p : Profile ℝ) : Prop where
  ramp_nonneg : 0 ≤ p.ramp
  ramp_le : p.ramp ≤ p.duration
  speedAt_nonneg : ∀ t, 0 ≤ p.speedAt t
  distanceAt_zero : p.distanceAt 0 = 0
  distanceAt_duration : p.distanceAt p.duration = p.distance
  distanceAt_mono : Monotone p.distanceAt
  distanceAt_sub : ∀ t₁ t₂, 0 ≤ t₁ → t₁ ≤ t₂ → t₂ ≤ p.duration → SamePhase p t₁ t₂ →
    p.distanceAt t₂ - p.distanceAt t₁ = (p.speedAt t₁ + p.speedAt t₂) / 2 * (t₂ - t₁)
  continuous_speedAt : Continuous p.speedAt
  continuous_distanceAt : Continuous p.distanceAt

section Phases

variable {p : Profile ℝ} {t t₁ t₂ : ℝ}

/-- The part of the duration that is over at a time. -/
noncomputable def elapsed (p : Profile ℝ) (t : ℝ) : ℝ :=
  max 0 (min p.duration t)

/-- The part of the ramp that is left at a time. -/
noncomputable def rampLeft (p : Profile ℝ) (t : ℝ) : ℝ :=
  max (p.ramp - elapsed p t) 0

/-- The acceleration along the ramp. -/
noncomputable def steepness (p : Profile ℝ) : ℝ :=
  (p.endSpeed - p.startSpeed) / p.ramp

lemma elapsed_mono (p : Profile ℝ) : Monotone (elapsed p) := by
  intro t₁ t₂ h
  exact max_le_max_left 0 (min_le_min_left p.duration h)

lemma elapsed_of_mem (ht : 0 ≤ t) (htd : t ≤ p.duration) : elapsed p t = t := by
  unfold elapsed
  rw [min_eq_right htd, max_eq_right ht]

lemma rampLeft_nonneg (p : Profile ℝ) (t : ℝ) : 0 ≤ rampLeft p t :=
  le_max_right _ 0

lemma rampLeft_of_le (h : elapsed p t ≤ p.ramp) : rampLeft p t = p.ramp - elapsed p t :=
  max_eq_left (sub_nonneg.mpr h)

lemma rampLeft_of_ge (h : p.ramp ≤ elapsed p t) : rampLeft p t = 0 :=
  max_eq_right (sub_nonpos.mpr h)

lemma continuous_elapsed (p : Profile ℝ) : Continuous (elapsed p) := by
  unfold elapsed
  fun_prop

lemma continuous_rampLeft (p : Profile ℝ) : Continuous (rampLeft p) := by
  have h := continuous_elapsed p
  unfold rampLeft
  fun_prop

/-- Without a ramp there is nothing to gain, whatever the speeds are. -/
lemma steepness_mul_sq (p : Profile ℝ) :
    steepness p * (p.ramp * p.ramp) = (p.endSpeed - p.startSpeed) * p.ramp := by
  unfold steepness
  by_cases h : p.ramp = 0
  · rw [h]
    ring
  · field_simp

lemma Drivable.duration_nonneg (h : Drivable p) : 0 ≤ p.duration :=
  h.ramp_nonneg.trans h.ramp_le

lemma Drivable.clamp_eq (h : Drivable p) (t : ℝ) :
    Scalar.clamp (@OfNat.ofNat ℝ 0 Scalar.instOfNat) p.duration t = elapsed p t := by
  rw [zero_real]
  exact clamp_real h.duration_nonneg t

lemma Drivable.rampLeft_le (h : Drivable p) (t : ℝ) : rampLeft p t ≤ p.ramp :=
  max_le (sub_le_self _ (le_max_left 0 _)) h.ramp_nonneg

lemma Drivable.speedAt_eq (h : Drivable p) (t : ℝ) :
    p.speedAt t = p.endSpeed - steepness p * rampLeft p t := by
  unfold Profile.speedAt
  simp only [h.clamp_eq]
  split
  next ht =>
    have hramp : p.ramp ≠ 0 := ((le_max_left 0 _).trans_lt ht).ne'
    rw [rampLeft_of_le ht.le]
    unfold steepness
    field_simp
    ring
  next ht => rw [rampLeft_of_ge (not_lt.mp ht), mul_zero, sub_zero]

lemma Drivable.distanceAt_eq (h : Drivable p) (t : ℝ) :
    p.distanceAt t = p.endSpeed * elapsed p t -
      steepness p * (p.ramp * p.ramp - rampLeft p t * rampLeft p t) / 2 := by
  have hgain := steepness_mul_sq p
  unfold Profile.distanceAt
  simp only [h.clamp_eq, half_real, two_real]
  split
  next hover =>
    have htime : elapsed p t = p.duration :=
      le_antisymm (max_le h.duration_nonneg (min_le_left _ _)) hover
    rw [rampLeft_of_ge (htime ▸ h.ramp_le), htime, h.distance_eq]
    linear_combination hgain / 2
  next =>
    split
    next ht =>
      have hramp : p.ramp ≠ 0 := ((le_max_left 0 _).trans_lt ht).ne'
      rw [rampLeft_of_le ht.le]
      unfold steepness
      field_simp
      ring
    next ht =>
      rw [rampLeft_of_ge (not_lt.mp ht)]
      linear_combination hgain / 2

/-- The speed lies between those at both ends of the ramp. -/
lemma Drivable.speedAt_nonneg (h : Drivable p) (t : ℝ) : 0 ≤ p.speedAt t := by
  have hleft := rampLeft_nonneg p t
  have hle := h.rampLeft_le t
  have hstart := h.startSpeed_nonneg
  have hend := h.endSpeed_nonneg
  rw [h.speedAt_eq]
  rcases h.ramp_nonneg.eq_or_lt with hnone | hramp
  · have hzero : rampLeft p t = 0 := le_antisymm (hle.trans hnone.ge) hleft
    rw [hzero, mul_zero, sub_zero]
    exact hend
  · have hshare : p.endSpeed - steepness p * rampLeft p t =
        (p.startSpeed * rampLeft p t + p.endSpeed * (p.ramp - rampLeft p t)) / p.ramp := by
      unfold steepness
      field_simp
      ring
    rw [hshare]
    have hover : 0 ≤ p.ramp - rampLeft p t := sub_nonneg.mpr hle
    positivity

/-- The mean of two speeds of one phase is the speed in between. -/
lemma Drivable.distanceAt_sub (h : Drivable p) (ht₁ : 0 ≤ t₁) (ht : t₁ ≤ t₂)
    (ht₂ : t₂ ≤ p.duration) (hphase : SamePhase p t₁ t₂) :
    p.distanceAt t₂ - p.distanceAt t₁ = (p.speedAt t₁ + p.speedAt t₂) / 2 * (t₂ - t₁) := by
  have h₁ : elapsed p t₁ = t₁ := elapsed_of_mem ht₁ (ht.trans ht₂)
  have h₂ : elapsed p t₂ = t₂ := elapsed_of_mem (ht₁.trans ht) ht₂
  simp only [h.speedAt_eq, h.distanceAt_eq]
  rcases hphase with hramp | hcruise
  · rw [rampLeft_of_le (h₁.trans_le (ht.trans hramp)), rampLeft_of_le (h₂.trans_le hramp), h₁, h₂]
    ring
  · rw [rampLeft_of_ge (hcruise.trans_eq h₁.symm),
      rampLeft_of_ge ((hcruise.trans ht).trans_eq h₂.symm), h₁, h₂]
    ring

/-- Within a phase the distance grows as the speed is not negative. -/
lemma Drivable.distanceAt_le (h : Drivable p) (ht₁ : 0 ≤ t₁) (ht : t₁ ≤ t₂) (ht₂ : t₂ ≤ p.duration)
    (hphase : SamePhase p t₁ t₂) : p.distanceAt t₁ ≤ p.distanceAt t₂ := by
  have hspeed₁ := h.speedAt_nonneg t₁
  have hspeed₂ := h.speedAt_nonneg t₂
  have htime : 0 ≤ t₂ - t₁ := sub_nonneg.mpr ht
  rw [← sub_nonneg, h.distanceAt_sub ht₁ ht ht₂ hphase]
  positivity

/-- Before the start nothing is covered, and after the end nothing more. -/
lemma Drivable.distanceAt_elapsed (h : Drivable p) (t : ℝ) :
    p.distanceAt (elapsed p t) = p.distanceAt t := by
  have htime : elapsed p (elapsed p t) = elapsed p t :=
    elapsed_of_mem (le_max_left 0 _) (max_le h.duration_nonneg (min_le_left _ _))
  simp only [h.distanceAt_eq, rampLeft, htime]

lemma Drivable.distanceAt_mono (h : Drivable p) : Monotone p.distanceAt := by
  intro t₁ t₂ ht
  rw [← h.distanceAt_elapsed t₁, ← h.distanceAt_elapsed t₂]
  have hstart : 0 ≤ elapsed p t₁ := le_max_left 0 _
  have hend : elapsed p t₂ ≤ p.duration := max_le h.duration_nonneg (min_le_left _ _)
  have hle : elapsed p t₁ ≤ elapsed p t₂ := elapsed_mono p ht
  rcases le_total (elapsed p t₂) p.ramp with hramp | hramp
  · exact h.distanceAt_le hstart hle hend (Or.inl hramp)
  · rcases le_total p.ramp (elapsed p t₁) with hcruise | hcruise
    · exact h.distanceAt_le hstart hle hend (Or.inr hcruise)
    · -- The two phases meet at the end of the ramp.
      have hfirst := h.distanceAt_le hstart hcruise h.ramp_le (Or.inl le_rfl)
      exact hfirst.trans (h.distanceAt_le h.ramp_nonneg hramp hend (Or.inr le_rfl))

lemma Drivable.distanceAt_zero (h : Drivable p) : p.distanceAt 0 = 0 := by
  have htime : elapsed p 0 = 0 := elapsed_of_mem le_rfl h.duration_nonneg
  rw [h.distanceAt_eq, rampLeft_of_le (htime.trans_le h.ramp_nonneg), htime]
  ring

lemma Drivable.distanceAt_duration (h : Drivable p) : p.distanceAt p.duration = p.distance := by
  have htime : elapsed p p.duration = p.duration := elapsed_of_mem h.duration_nonneg le_rfl
  rw [h.distanceAt_eq, rampLeft_of_ge (h.ramp_le.trans_eq htime.symm), htime, h.distance_eq]
  linear_combination -steepness_mul_sq p / 2

lemma Drivable.distance_nonneg (h : Drivable p) : 0 ≤ p.distance := by
  rw [← h.distanceAt_zero, ← h.distanceAt_duration]
  exact h.distanceAt_mono h.duration_nonneg

theorem Drivable.physical (h : Drivable p) : Physical p where
  ramp_nonneg := h.ramp_nonneg
  ramp_le := h.ramp_le
  speedAt_nonneg := h.speedAt_nonneg
  distanceAt_zero := h.distanceAt_zero
  distanceAt_duration := h.distanceAt_duration
  distanceAt_mono := h.distanceAt_mono
  distanceAt_sub _ _ := h.distanceAt_sub
  continuous_speedAt := by
    have hleft := continuous_rampLeft p
    rw [funext h.speedAt_eq]
    fun_prop
  continuous_distanceAt := by
    have htime := continuous_elapsed p
    have hleft := continuous_rampLeft p
    rw [funext h.distanceAt_eq]
    fun_prop

end Phases

section Building

variable {v0 v1 v : ℝ}

/-- A ramp and a cruise between speeds that are not negative can be driven, whatever the times
asked for. -/
lemma drivable_rampThenCruise (hv0 : 0 ≤ v0) (hv1 : 0 ≤ v1) (ramp t : ℝ) :
    Drivable (Profile.rampThenCruise v0 v1 ramp t) := by
  have hduration : 0 ≤ Scalar.larger t (@OfNat.ofNat ℝ 0 Scalar.instOfNat) := by
    rw [larger_real, zero_real]
    exact le_max_right t 0
  unfold Profile.rampThenCruise
  rw [zero_real] at hduration ⊢
  obtain ⟨hlow, hhigh⟩ := clamp_mem hduration ramp
  exact ⟨hv0, hv1, hlow, hhigh, by simp only [two_real]⟩

lemma drivable_stationary (t : ℝ) : Drivable (Profile.stationary t) := by
  have hzero : (0 : ℝ) ≤ @OfNat.ofNat ℝ 0 Scalar.instOfNat := zero_real.ge
  exact drivable_rampThenCruise hzero hzero _ t

lemma drivable_constant (hv : 0 ≤ v) (t : ℝ) : Drivable (Profile.constant v t) :=
  drivable_rampThenCruise hv hv _ t

lemma drivable_rampOver (hv0 : 0 ≤ v0) (hv1 : 0 ≤ v1) (t : ℝ) :
    Drivable (Profile.rampOver v0 v1 t) :=
  drivable_rampThenCruise hv0 hv1 t t

end Building

end Stagecraft.Proofs
