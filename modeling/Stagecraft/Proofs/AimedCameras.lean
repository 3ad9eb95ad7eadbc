import Stagecraft.Framing
import Stagecraft.Proofs.RealScalar

/-!
# Aimed cameras

A camera is aimed by the polar angles of the way to its target: the yaw of the way on the ground,
and the pitch of its height over its length on the ground. With the distance in focus these are
spherical coordinates of the target around the camera, wherever the target is: above or below the
camera, along an axis, or at the seam where the yaw jumps from one half turn to the other.
-/

namespace Stagecraft

/-- The unit vector along which an orientation looks. -/
def Rotator.direction {K : Type} [Scalar K] (r : Rotator K) : Vec3 K :=
  let yaw := Scalar.toRadians r.yaw
  let pitch := Scalar.toRadians r.pitch
  ⟨Scalar.cos pitch * Scalar.cos yaw, Scalar.cos pitch * Scalar.sin yaw, Scalar.sin pitch⟩

namespace Proofs

section Angles

lemma toRadians_toDegrees (a : ℝ) : Scalar.toRadians (Scalar.toDegrees a) = a := by
  have hfactors : 180 / Real.pi * (Real.pi / 180) = 1 := by
    have hpi := Real.pi_ne_zero
    field_simp
  calc Scalar.toRadians (Scalar.toDegrees a) = a * (180 / Real.pi) * (Real.pi / 180) := rfl
    _ = a := by rw [mul_assoc, hfactors, mul_one]

lemma toDegrees_strictMono : StrictMono fun a : ℝ => Scalar.toDegrees a :=
  strictMono_mul_right_of_pos (div_pos (by norm_num) Real.pi_pos)

lemma toDegrees_neg (a : ℝ) : Scalar.toDegrees (-a) = -Scalar.toDegrees a :=
  neg_mul a _

lemma toDegrees_pi : Scalar.toDegrees Real.pi = 180 :=
  mul_div_cancel₀ _ Real.pi_ne_zero

lemma toDegrees_quarter : Scalar.toDegrees (Real.pi / 2) = 90 := by
  calc Scalar.toDegrees (Real.pi / 2) = Scalar.toDegrees Real.pi / 2 := div_mul_eq_mul_div _ _ _
    _ = 90 := by
      rw [toDegrees_pi]
      norm_num

variable (x y : ℝ)

lemma hypot_eq_norm : Scalar.hypot x y = ‖(⟨x, y⟩ : ℂ)‖ :=
  (Complex.norm_eq_sqrt_sq_add_sq ⟨x, y⟩).symm

lemma hypot_mul_cos : Scalar.hypot x y * Scalar.cos (Scalar.atan2 y x) = x := by
  rw [hypot_eq_norm]
  exact Complex.norm_mul_cos_arg _

lemma hypot_mul_sin : Scalar.hypot x y * Scalar.sin (Scalar.atan2 y x) = y := by
  rw [hypot_eq_norm]
  exact Complex.norm_mul_sin_arg _

end Angles

section Vectors

variable (v : Vec3 ℝ)

lemma yaw_mem : v.yaw ∈ Set.Ioc (-180 : ℝ) 180 := by
  obtain ⟨hlow, hhigh⟩ := Complex.arg_mem_Ioc ⟨v.x, v.y⟩
  constructor
  · calc (-180 : ℝ) = Scalar.toDegrees (-Real.pi) := by rw [toDegrees_neg, toDegrees_pi]
      _ < v.yaw := toDegrees_strictMono hlow
  · calc v.yaw ≤ Scalar.toDegrees Real.pi := toDegrees_strictMono.monotone hhigh
      _ = 180 := toDegrees_pi

/-- Over a length, which is not negative, an angle is at most a quarter turn. -/
lemma pitch_mem : v.pitch ∈ Set.Icc (-90 : ℝ) 90 := by
  have hground : 0 ≤ v.horizontalLength := Real.sqrt_nonneg _
  obtain ⟨hlow, hhigh⟩ : -(Real.pi / 2) ≤ Complex.arg ⟨v.horizontalLength, v.z⟩ ∧
      Complex.arg ⟨v.horizontalLength, v.z⟩ ≤ Real.pi / 2 :=
    abs_le.mp (Complex.abs_arg_le_pi_div_two_iff.mpr hground)
  constructor
  · calc (-90 : ℝ) = Scalar.toDegrees (-(Real.pi / 2)) := by rw [toDegrees_neg, toDegrees_quarter]
      _ ≤ v.pitch := toDegrees_strictMono.monotone hlow
  · calc v.pitch ≤ Scalar.toDegrees (Real.pi / 2) := toDegrees_strictMono.monotone hhigh
      _ = 90 := toDegrees_quarter

/-- The length of a vector is made of its length on the ground and its height. -/
lemma length_eq_hypot : v.length = Scalar.hypot v.horizontalLength v.z := by
  have hground : v.horizontalLength ^ 2 = v.x ^ 2 + v.y ^ 2 := Real.sq_sqrt (by positivity)
  have hdot : v.dot v = v.horizontalLength ^ 2 + v.z ^ 2 := by
    rw [hground]
    unfold Vec3.dot
    ring
  exact congrArg Real.sqrt hdot

lemma length_mul_cos_pitch :
    v.length * Scalar.cos (Scalar.toRadians v.pitch) = v.horizontalLength := by
  unfold Vec3.pitch
  rw [toRadians_toDegrees, length_eq_hypot]
  exact hypot_mul_cos _ _

lemma length_mul_sin_pitch : v.length * Scalar.sin (Scalar.toRadians v.pitch) = v.z := by
  unfold Vec3.pitch
  rw [toRadians_toDegrees, length_eq_hypot]
  exact hypot_mul_sin _ _

lemma horizontalLength_mul_cos_yaw :
    v.horizontalLength * Scalar.cos (Scalar.toRadians v.yaw) = v.x := by
  unfold Vec3.yaw
  rw [toRadians_toDegrees]
  exact hypot_mul_cos _ _

lemma horizontalLength_mul_sin_yaw :
    v.horizontalLength * Scalar.sin (Scalar.toRadians v.yaw) = v.y := by
  unfold Vec3.yaw
  rw [toRadians_toDegrees]
  exact hypot_mul_sin _ _

/-- Yaw, pitch and length are spherical coordinates. -/
lemma direction_mul_length (roll : ℝ) :
    Rotator.direction ⟨v.pitch, v.yaw, roll⟩ * v.length = v := by
  have hground : ∀ g : ℝ, Scalar.cos (Scalar.toRadians v.pitch) * g * v.length =
      v.horizontalLength * g := by
    intro g
    rw [mul_right_comm, mul_comm _ v.length, length_mul_cos_pitch]
  have hheight : Scalar.sin (Scalar.toRadians v.pitch) * v.length = v.z := by
    rw [mul_comm, length_mul_sin_pitch]
  have hx := (hground _).trans (horizontalLength_mul_cos_yaw v)
  have hy := (hground _).trans (horizontalLength_mul_sin_yaw v)
  exact congr (congrArg₂ Vec3.mk hx hy) hheight

lemma add_way (a b : Vec3 ℝ) : a + (b - a) = b :=
  congr (congrArg₂ Vec3.mk (add_sub_cancel a.x b.x) (add_sub_cancel a.y b.y))
    (add_sub_cancel a.z b.z)

end Vectors

/-- The direction of an orientation is the yaw vector of its yaw, raised by its pitch. -/
theorem direction_eq_raised (r : Rotator ℝ) : r.direction =
    yawVector r.yaw * Scalar.cos (Scalar.toRadians r.pitch) +
      (Vec3.up : Vec3 ℝ) * Scalar.sin (Scalar.toRadians r.pitch) := by
  have hflat : ∀ a b : ℝ, a * b = b * a + (@OfNat.ofNat ℝ 0 Scalar.instOfNat) *
      Scalar.sin (Scalar.toRadians r.pitch) := by
    intro a b
    rw [zero_real, zero_mul, add_zero, mul_comm]
  have hhigh : Scalar.sin (Scalar.toRadians r.pitch) =
      (@OfNat.ofNat ℝ 0 Scalar.instOfNat) * Scalar.cos (Scalar.toRadians r.pitch) +
        (@OfNat.ofNat ℝ 1 Scalar.instOfNat) * Scalar.sin (Scalar.toRadians r.pitch) := by
    rw [zero_real, one_real, zero_mul, one_mul, zero_add]
  exact congr (congrArg₂ Vec3.mk (hflat _ _) (hflat _ _)) hhigh

/-- A camera that looks at a target points at it: the way along its direction, as far as the
distance in focus, ends in the target. Its angles are the principal ones. At the place of the
camera itself the distance is zero. -/
theorem lookAt_reaches (camera target : Vec3 ℝ) :
    (Optics.lookAt camera target).yaw ∈ Set.Ioc (-180 : ℝ) 180 ∧
      (Optics.lookAt camera target).pitch ∈ Set.Icc (-90 : ℝ) 90 ∧
      (Optics.lookAt camera target).roll = 0 ∧
      camera + (Optics.lookAt camera target).direction * Optics.focusDistance camera target =
        target := by
  refine ⟨yaw_mem _, pitch_mem _, zero_real, ?_⟩
  have hway := direction_mul_length (target - camera) (0 : ℝ)
  calc camera + (Optics.lookAt camera target).direction * Optics.focusDistance camera target
      = camera + (target - camera) := congrArg (camera + ·) hway
    _ = target := add_way camera target

end Proofs

end Stagecraft
