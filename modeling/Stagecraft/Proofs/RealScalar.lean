import Mathlib.Analysis.SpecialFunctions.Complex.Arg
import Mathlib.Tactic
import Stagecraft.FrameRate
import Stagecraft.Units

/-!
# Exact arithmetic

The program is reasoned about on the real line. `realScalar` supplies the arithmetic with exact
roots, angles and remainders, and the equations below express the program's own helpers by the
library's operations.
-/

namespace Stagecraft.Proofs

/-! The literals that definitions on the real line share. Under a named instance a literal is one
and the same term in each of these definitions. -/

instance two_atLeastTwo : Nat.AtLeastTwo 2 := ⟨by decide⟩
instance halfTurn_atLeastTwo : Nat.AtLeastTwo 180 := ⟨by decide⟩
instance turn_atLeastTwo : Nat.AtLeastTwo 360 := ⟨by decide⟩

/-- Exact arithmetic. Every number is finite and any two are comparable. -/
noncomputable instance realScalar : Scalar ℝ where
  decidableLT := inferInstance
  decidableLE := inferInstance
  beq a b := decide (a = b)
  ofNat n := n
  ofScientific m s e := OfScientific.ofScientific m s e
  sqrt := Real.sqrt
  hypot x y := Real.sqrt (x ^ 2 + y ^ 2)
  sin := Real.sin
  cos := Real.cos
  atan2 y x := Complex.arg ⟨x, y⟩
  rem x y := x - y * (if 0 ≤ x / y then (⌊x / y⌋ : ℝ) else ⌈x / y⌉)
  floor x := ⌊x⌋₊
  round x := ⌊x + 1 / 2⌋₊
  isFinite _ := true
  radiansPerDegree := Real.pi / 180
  degreesPerRadian := 180 / Real.pi

@[simp] lemma zero_real : (@OfNat.ofNat ℝ 0 Scalar.instOfNat) = 0 :=
  Nat.cast_zero

@[simp] lemma one_real : (@OfNat.ofNat ℝ 1 Scalar.instOfNat) = 1 :=
  Nat.cast_one

@[simp] lemma two_real : (@OfNat.ofNat ℝ 2 Scalar.instOfNat) = 2 :=
  Nat.cast_ofNat

@[simp] lemma three_real : (@OfNat.ofNat ℝ 3 Scalar.instOfNat) = 3 :=
  Nat.cast_ofNat

lemma half_real : (@OfScientific.ofScientific ℝ Scalar.instOfScientific 5 true 1) = 1 / 2 := by
  change (0.5 : ℝ) = 1 / 2
  norm_num

lemma larger_real (a b : ℝ) : Scalar.larger a b = max a b := by
  unfold Scalar.larger
  by_cases h : a ≤ b
  · rw [if_pos h, max_eq_right h]
  · have hba : b ≤ a := (not_le.mp h).le
    rw [if_neg h, if_pos hba, max_eq_left hba]

lemma larger_zero_of_nonneg {a : ℝ} (h : 0 ≤ a) :
    Scalar.larger a (@OfNat.ofNat ℝ 0 Scalar.instOfNat) = a := by
  rw [larger_real, zero_real, max_eq_left h]

lemma smaller_real (a b : ℝ) : Scalar.smaller a b = min a b := by
  unfold Scalar.smaller
  by_cases h : a ≤ b
  · rw [if_pos h, min_eq_left h]
  · have hba : b ≤ a := (not_le.mp h).le
    rw [if_neg h, if_pos hba, min_eq_right hba]

lemma abs_real (x : ℝ) : Scalar.abs x = |x| := by
  unfold Scalar.abs
  rw [zero_real]
  split
  next h => exact (abs_of_neg h).symm
  next h => exact (abs_of_nonneg (not_lt.mp h)).symm

lemma tolerance_real : (Scalar.tolerance : ℝ) = 1e-9 := rfl

lemma clamp_of_mem {lo hi x : ℝ} (hlo : lo ≤ x) (hhi : x ≤ hi) : Scalar.clamp lo hi x = x := by
  unfold Scalar.clamp
  rw [if_neg (not_lt.mpr hlo), if_neg (not_lt.mpr hhi)]

lemma clamp_mem {lo hi : ℝ} (h : lo ≤ hi) (x : ℝ) : Scalar.clamp lo hi x ∈ Set.Icc lo hi := by
  unfold Scalar.clamp
  split
  next => exact ⟨le_refl lo, h⟩
  next hlo =>
    split
    next => exact ⟨h, le_refl hi⟩
    next hhi => exact ⟨not_lt.mp hlo, not_lt.mp hhi⟩

lemma clamp_real {lo hi : ℝ} (h : lo ≤ hi) (x : ℝ) : Scalar.clamp lo hi x = max lo (min hi x) := by
  unfold Scalar.clamp
  split
  next hx => rw [min_eq_right (hx.le.trans h), max_eq_left hx.le]
  next hlo =>
    split
    next hx => rw [min_eq_left hx.le, max_eq_right h]
    next hhi => rw [min_eq_right (not_lt.mp hhi), max_eq_right (not_lt.mp hlo)]

/-- No place between the bounds is nearer. -/
lemma clamp_nearest {lo hi : ℝ} (x : ℝ) {y : ℝ} (hy : y ∈ Set.Icc lo hi) :
    |Scalar.clamp lo hi x - x| ≤ |y - x| := by
  obtain ⟨hlo, hhi⟩ := hy
  unfold Scalar.clamp
  split
  next hx =>
    rw [abs_of_pos (sub_pos.mpr hx), abs_of_pos (sub_pos.mpr (hx.trans_le hlo))]
    exact sub_le_sub_right hlo x
  next =>
    split
    next hx =>
      rw [abs_of_neg (sub_neg.mpr hx), abs_of_neg (sub_neg.mpr (hhi.trans_lt hx))]
      exact neg_le_neg (sub_le_sub_right hhi x)
    next =>
      rw [sub_self, abs_zero]
      exact abs_nonneg _

lemma clamp?_of_le {lo hi : ℝ} (h : lo ≤ hi) (x : ℝ) :
    Scalar.clamp? lo hi x = some (Scalar.clamp lo hi x) := by
  unfold Scalar.clamp?
  rw [if_pos h]

section Remainders

lemma rem_real (x y : ℝ) : ∃ turns : ℤ, Scalar.rem x y = x - y * turns := by
  by_cases h : 0 ≤ x / y
  · exact ⟨⌊x / y⌋, congrArg (fun z => x - y * z) (if_pos h)⟩
  · exact ⟨⌈x / y⌉, congrArg (fun z => x - y * z) (if_neg h)⟩

variable {y : ℝ}

lemma modulo_turns (hy : 0 < y) (x : ℝ) : ∃ turns : ℤ, Scalar.modulo x y = x + y * turns := by
  obtain ⟨turns, hrem⟩ := rem_real x y
  unfold Scalar.modulo
  rw [hrem, abs_real, abs_of_pos hy]
  dsimp only
  split
  · refine ⟨1 - turns, ?_⟩
    push_cast
    ring
  · refine ⟨-turns, ?_⟩
    push_cast
    ring

lemma modulo_mem (hy : 0 < y) (x : ℝ) : Scalar.modulo x y ∈ Set.Ico 0 y := by
  have hx : x / y * y = x := div_mul_cancel₀ x hy.ne'
  have hrem : Scalar.rem x y = x - y * (if 0 ≤ x / y then (⌊x / y⌋ : ℝ) else ⌈x / y⌉) := rfl
  unfold Scalar.modulo
  rw [hrem, abs_real, abs_of_pos hy, zero_real]
  dsimp only
  by_cases h : 0 ≤ x / y
  · have hle := mul_le_mul_of_nonneg_right (Int.floor_le (x / y)) hy.le
    have hlt := mul_lt_mul_of_pos_right (Int.lt_floor_add_one (x / y)) hy
    rw [if_pos h, if_neg (by linarith)]
    constructor <;> linarith
  · have hle := mul_le_mul_of_nonneg_right (Int.le_ceil (x / y)) hy.le
    have hlt := mul_lt_mul_of_pos_right (Int.ceil_lt_add_one (x / y)) hy
    rw [if_neg h]
    split
    next hneg => constructor <;> linarith
    next hpos => constructor <;> linarith

/-- The remainder that is not negative is what is left of whole turns. -/
lemma modulo_real (hy : 0 < y) (x : ℝ) : Scalar.modulo x y = y * Int.fract (x / y) := by
  obtain ⟨turns, hturns⟩ := modulo_turns hy x
  obtain ⟨hlow, hhigh⟩ := modulo_mem hy x
  have hfract : Int.fract (x / y) = Scalar.modulo x y / y := by
    refine Int.fract_eq_iff.mpr ⟨div_nonneg hlow hy.le, (div_lt_one hy).mpr hhigh, -turns, ?_⟩
    rw [hturns]
    push_cast
    field_simp
    ring
  rw [hfract, mul_div_cancel₀ _ hy.ne']

end Remainders

section Frames

variable {rate : FrameRate ℝ}

lemma frameAt_real (t : ℝ) : rate.frameAt t = ⌊max t 0 * rate.fps + 1e-6⌋₊ := by
  unfold FrameRate.frameAt
  rw [larger_real, zero_real]
  rfl

lemma secondsAt_real (n : ℕ) : rate.secondsAt n = n / rate.fps := rfl

lemma isValid_real : rate.isValid = true ↔ 0 < rate.fps := by
  have hfinite : Scalar.isFinite rate.fps = true := rfl
  unfold FrameRate.isValid
  rw [hfinite, zero_real, Bool.true_and, decide_eq_true_iff]

lemma frameAt_mono (hfps : 0 < rate.fps) {s t : ℝ} (h : s ≤ t) :
    rate.frameAt s ≤ rate.frameAt t := by
  rw [frameAt_real, frameAt_real]
  have hmax : max s 0 ≤ max t 0 := max_le_max_right 0 h
  exact Nat.floor_le_floor (by nlinarith)

lemma frameAt_zero : rate.frameAt 0 = 0 := by
  rw [frameAt_real, max_self, zero_mul, zero_add, Nat.floor_eq_zero]
  norm_num

/-- A moment lies in a frame up to `n` exactly when it comes before frame `n + 1` by more than the
millionth of a frame that is forgiven. -/
lemma frameAt_le_iff {t : ℝ} (ht : 0 ≤ t) (n : ℕ) :
    rate.frameAt t ≤ n ↔ t * rate.fps + 1e-6 < n + 1 := by
  rw [frameAt_real, max_eq_left ht, ← Nat.lt_add_one_iff, Nat.floor_lt' n.succ_ne_zero]
  push_cast
  rfl

lemma le_frameAt_iff (hfps : 0 < rate.fps) {t : ℝ} (ht : 0 ≤ t) (n : ℕ) :
    n ≤ rate.frameAt t ↔ n ≤ t * rate.fps + 1e-6 := by
  have hpos : 0 ≤ t * rate.fps + 1e-6 := by positivity
  rw [frameAt_real, max_eq_left ht, Nat.le_floor_iff hpos]

/-- A frame contains the moment it starts. -/
lemma frameAt_secondsAt (hfps : 0 < rate.fps) (n : ℕ) : rate.frameAt (rate.secondsAt n) = n := by
  have hcancel : (n : ℝ) / rate.fps * rate.fps = n := div_mul_cancel₀ _ hfps.ne'
  have hnonneg : 0 ≤ rate.secondsAt n := div_nonneg n.cast_nonneg hfps.le
  apply le_antisymm
  · rw [frameAt_le_iff hnonneg, secondsAt_real, hcancel]
    norm_num
  · rw [le_frameAt_iff hfps hnonneg, secondsAt_real, hcancel]
    norm_num

/-- At a frame a second, seconds are frames. -/
lemma frameAt_natCast (h : rate.fps = 1) (n : ℕ) : rate.frameAt n = n := by
  have hfps : 0 < rate.fps := by
    rw [h]
    exact one_pos
  have hframe := frameAt_secondsAt hfps n
  rw [secondsAt_real, h, div_one] at hframe
  exact hframe

end Frames

lemma centimeters_real (x : ℝ) : (Distance.centimeters x).internal = x := by
  unfold Distance.internal Distance.centimeters DistanceUnit.factor
  rw [one_real, mul_one]

lemma centimetersPerSecond_real (x : ℝ) : (Speed.centimetersPerSecond x).internal = x := by
  unfold Speed.internal Speed.centimetersPerSecond SpeedUnit.factor
  rw [one_real, mul_one]

lemma seconds_real (x : ℝ) : (TimeSpan.seconds x).internal = x := by
  unfold TimeSpan.internal TimeSpan.seconds TimeUnit.factor
  rw [one_real, mul_one]

end Stagecraft.Proofs
