import Mathlib.Order.Basic
import Stagecraft.Binary64
import Stagecraft.Units

/-!
# Ordered numbers

A machine number may be undefined, and then it is comparable to none. Of those that are defined one
is less than the other or it is not, and a quantity whose value is defined is a defined number of
centimeters or seconds: a unit is never zero nor beyond all numbers.
-/

namespace Stagecraft

variable {K : Type}

/-- A number that equals itself, as one that is undefined does not. -/
def Scalar.Defined [Scalar K] (x : K) : Prop :=
  (x == x) = true

instance [Scalar K] (x : K) : Decidable (Scalar.Defined x) :=
  inferInstanceAs (Decidable ((x == x) = true))

/-- Numbers whose order is total where they are defined. -/
class Scalar.Ordered (K : Type) [Scalar K] : Prop where
  not_lt {x y : K} (hx : Scalar.Defined x) (hy : Scalar.Defined y) : ¬x < y ↔ y ≤ x
  not_le {x y : K} (hx : Scalar.Defined x) (hy : Scalar.Defined y) : ¬x ≤ y ↔ y < x
  zero : Scalar.Defined (0 : K)
  leastNormal : Scalar.Defined (Scalar.leastNormal : K)
  greatest : Scalar.Defined (Scalar.greatest : K)
  distance (d : Distance K) (h : Scalar.Defined d.value) : Scalar.Defined d.internal
  timeSpan (t : TimeSpan K) (h : Scalar.Defined t.value) : Scalar.Defined t.internal

/-- Ordered numbers of which only defined ones compare, and those not below a positive one are
positive. -/
class Scalar.Graded (K : Type) [Scalar K] : Prop extends Scalar.Ordered K where
  le_refl {x : K} (h : Scalar.Defined x) : x ≤ x
  defined_of_lt {x y : K} (h : x < y) : Scalar.Defined x ∧ Scalar.Defined y
  defined_of_le {x y : K} (h : x ≤ y) : Scalar.Defined x ∧ Scalar.Defined y
  pos_of_le {x y : K} (hx : 0 < x) (h : x ≤ y) : 0 < y
  twelve : (0 : K) < 12

end Stagecraft

namespace Stagecraft.Proofs

section Comparisons

open Float.Model

variable {u v : UnpackedFloat}

/-- Defined numbers compare, and the other way round they compare the other way. -/
lemma compare_defined (hu : u.isNaN = false) (hv : v.isNaN = false) :
    ∃ o, u.compare v = some o ∧ v.compare u = some o.swap := by
  cases u with
  | notANumber => cases hu
  | infinity s =>
    cases v with
    | notANumber => cases hv
    | infinity t => cases s <;> cases t <;> exact ⟨_, rfl, rfl⟩
    | zero t => cases s <;> exact ⟨_, rfl, rfl⟩
    | finite t m e h => cases s <;> exact ⟨_, rfl, rfl⟩
  | zero s =>
    cases v with
    | notANumber => cases hv
    | infinity t => cases t <;> exact ⟨_, rfl, rfl⟩
    | zero t => exact ⟨_, rfl, rfl⟩
    | finite t m e h => cases t <;> exact ⟨_, rfl, rfl⟩
  | finite s m e h =>
    cases v with
    | notANumber => cases hv
    | infinity t => cases t <;> exact ⟨_, rfl, rfl⟩
    | zero t => cases s <;> exact ⟨_, rfl, rfl⟩
    | finite t m' e' h' =>
      have hswap : (compare e' e).then (compare m' m) =
          ((compare e e').then (compare m m')).swap := by
        rw [Ordering.swap_then, Int.compare_swap, Nat.compare_swap]
      cases s <;> cases t
      · exact ⟨_, rfl, congrArg some (congrArg Ordering.swap hswap)⟩
      · exact ⟨_, rfl, rfl⟩
      · exact ⟨_, rfl, rfl⟩
      · exact ⟨_, rfl, congrArg some hswap⟩

lemma not_lt_unpacked (hu : u.isNaN = false) (hv : v.isNaN = false) :
    ¬u.lt v = true ↔ v.le u = true := by
  obtain ⟨o, huv, hvu⟩ := compare_defined hu hv
  unfold UnpackedFloat.lt UnpackedFloat.le
  rw [huv, hvu]
  cases o <;> decide

lemma not_le_unpacked (hu : u.isNaN = false) (hv : v.isNaN = false) :
    ¬u.le v = true ↔ v.lt u = true := by
  rw [← not_lt_unpacked hv hu, not_not]

lemma lt_defined (h : u.lt v = true) : u.isNaN = false ∧ v.isNaN = false := by
  cases u with
  | notANumber => cases h
  | infinity | zero | finite =>
    cases v with
    | notANumber => cases h
    | infinity | zero | finite => exact ⟨rfl, rfl⟩

lemma le_defined (h : u.le v = true) : u.isNaN = false ∧ v.isNaN = false := by
  cases u with
  | notANumber => cases h
  | infinity | zero | finite =>
    cases v with
    | notANumber => cases h
    | infinity | zero | finite => exact ⟨rfl, rfl⟩

lemma le_refl_unpacked (hu : u.isNaN = false) : u.le u = true := by
  rw [← not_lt_unpacked hu hu]
  intro hlt
  obtain ⟨o, ho, hswap⟩ := compare_defined hu hu
  rw [ho, Option.some.injEq] at hswap
  unfold UnpackedFloat.lt at hlt
  rw [ho] at hlt
  cases o with
  | lt => cases hswap
  | eq | gt => cases hlt

/-- What is not below a number above a zero is above that zero. -/
lemma pos_of_le_unpacked {s : UnpackedFloat.Sign} (hu : (UnpackedFloat.zero s).lt u = true)
    (h : u.le v = true) : (UnpackedFloat.zero s).lt v = true := by
  cases u with
  | notANumber | zero => cases hu
  | infinity t =>
    cases t with
    | negative => cases hu
    | positive =>
      cases v with
      | notANumber | zero | finite => cases h
      | infinity t =>
        cases t with
        | negative => cases h
        | positive => rfl
  | finite t m e hm =>
    cases t with
    | negative => cases hu
    | positive =>
      cases v with
      | notANumber | zero => cases h
      | infinity t =>
        cases t with
        | negative => cases h
        | positive => rfl
      | finite t m' e' hm' =>
        cases t with
        | negative => cases h
        | positive => rfl

end Comparisons

section Products

open Float.Model

variable {u : UnpackedFloat}

lemma dite_defined {p : Prop} [Decidable p] {a : p → UnpackedFloat} {b : ¬p → UnpackedFloat}
    (ha : ∀ h, (a h).isNaN = false) (hb : ∀ h, (b h).isNaN = false) :
    (dite p a b).isNaN = false := by
  by_cases h : p
  · rw [dif_pos h]
    exact ha h
  · rw [dif_neg h]
    exact hb h

lemma unpack_defined {b : BitVec Format.binary64.numBits}
    (h : UnpackedFloat.unpackExponent b = -1#_ → UnpackedFloat.unpackMantissa b = 0#_) :
    (UnpackedFloat.unpack Format.binary64 b).isNaN = false := by
  unfold UnpackedFloat.unpack
  dsimp only
  by_cases hexponent : UnpackedFloat.unpackExponent b = -1#_
  · rw [if_pos hexponent, if_pos (h hexponent)]
    rfl
  · rw [if_neg hexponent]
    by_cases hleast : UnpackedFloat.unpackExponent b = 0#_
    · rw [if_pos hleast]
      exact dite_defined (fun _ => rfl) fun _ => rfl
    · rw [if_neg hleast]
      rfl

/-- What is defined stays so in sixty-four bits. -/
lemma pack_defined (hu : u.isNaN = false) :
    (UnpackedFloat.unpack Format.binary64 (UnpackedFloat.pack Format.binary64 u)).isNaN =
      false := by
  apply unpack_defined
  fun_cases UnpackedFloat.pack Format.binary64 u with
  | case1 => cases hu
  | case2 s => simp [UnpackedFloat.packedInfinity]
  | case3 s => simp [UnpackedFloat.packedZero]
  | case4 s m e hm biased h => simp [UnpackedFloat.packedInfinity]
  | case5 s m e hm bits biased hrange hbits =>
    -- The exponent of a normal number is below the one of all ones.
    intro hones
    rw [UnpackedFloat.unpackExponent_packComponents] at hones
    have hnat := congrArg BitVec.toNat hones
    change ¬2 ^ 11 ≤ biased + 1 at hrange
    change biased % 2 ^ 11 = 2 ^ 11 - 1 at hnat
    omega
  | case6 s m e hm bits biased hrange hbits =>
    rw [UnpackedFloat.unpackExponent_packComponents]
    intro hones
    exact absurd hones (by decide)

lemma mul_defined (hu : u.isNaN = false) (s : UnpackedFloat.Sign) (m : ℕ) (e : Int) (h : 0 < m) :
    (UnpackedFloat.mul Format.binary64 u (.finite s m e h)).isNaN = false := by
  cases u with
  | notANumber => cases hu
  | infinity t => rfl
  | zero t => rfl
  | finite t n e' h' =>
    unfold UnpackedFloat.mul UnpackedFloat.roundWithAccuracy
    exact dite_defined (fun _ => rfl) fun _ => rfl

end Products

section Floats

variable {x y : Float}

lemma defined_iff : Scalar.Defined x ↔ x.isNaN = false := by
  have hbeq : (x == x) = (x.toModel.unpack.compare x.toModel.unpack == some .eq) := rfl
  have hnan : x.isNaN = x.toModel.unpack.isNaN := rfl
  unfold Scalar.Defined
  rw [hnan]
  constructor
  · intro h
    have heq : (x.toModel.unpack.compare x.toModel.unpack == some .eq) = true := hbeq ▸ h
    cases hu : x.toModel.unpack with
    | notANumber =>
      rw [hu] at heq
      cases heq
    | infinity | zero | finite => rfl
  · intro h
    obtain ⟨o, ho, hswap⟩ := compare_defined h h
    have heq : o = .eq := by
      rw [ho, Option.some.injEq] at hswap
      cases o with
      | eq => rfl
      | lt | gt => cases hswap
    change (x.toModel.unpack.compare x.toModel.unpack == some .eq) = true
    rw [ho, heq]
    rfl

lemma float_mul_defined (hx : Scalar.Defined x) (hfinite : y.isFinite = true)
    (hzero : (y == 0) = false) : Scalar.Defined (x * y) := by
  rw [defined_iff] at hx ⊢
  have hproduct : (x * y).isNaN = (Float.Model.UnpackedFloat.unpack _
    (Float.Model.UnpackedFloat.pack _ (Float.Model.UnpackedFloat.mul Float.Model.Format.binary64
      x.toModel.unpack y.toModel.unpack))).isNaN := rfl
  rw [hproduct]
  have hunit : y.toModel.unpack.isFinite = true := hfinite
  have hother : (y.toModel.unpack.compare (0 : Float).toModel.unpack == some .eq) = false := hzero
  cases hy : y.toModel.unpack with
  | notANumber =>
    rw [hy] at hunit
    cases hunit
  | infinity s =>
    rw [hy] at hunit
    cases hunit
  | zero s =>
    rw [hy] at hother
    exact absurd hother (by cases s <;> decide +kernel)
  | finite s m e h => exact pack_defined (mul_defined hx s m e h)

lemma float_lt_iff : x < y ↔ x.toModel.unpack.lt y.toModel.unpack = true :=
  decide_eq_true_iff

lemma float_le_iff : x ≤ y ↔ x.toModel.unpack.le y.toModel.unpack = true :=
  decide_eq_true_iff

lemma distanceFactor_nonzero (unit : DistanceUnit) :
    (unit.factor : Float).isFinite = true ∧ ((unit.factor : Float) == 0) = false := by
  cases unit <;> decide +kernel

lemma timeFactor_nonzero (unit : TimeUnit) :
    (unit.factor : Float).isFinite = true ∧ ((unit.factor : Float) == 0) = false := by
  cases unit <;> decide +kernel

instance floatOrdered : Scalar.Ordered Float where
  not_lt {x y} hx hy := by
    have hiff := not_lt_unpacked (defined_iff.mp hx) (defined_iff.mp hy)
    rw [← float_lt_iff, ← float_le_iff] at hiff
    exact hiff
  not_le {x y} hx hy := by
    have hiff := not_le_unpacked (defined_iff.mp hx) (defined_iff.mp hy)
    rw [← float_lt_iff, ← float_le_iff] at hiff
    exact hiff
  zero := by decide +kernel
  leastNormal := by decide +kernel
  greatest := by decide +kernel
  distance d h := by
    obtain ⟨hfinite, hzero⟩ := distanceFactor_nonzero d.unit
    exact float_mul_defined h hfinite hzero
  timeSpan t h := by
    obtain ⟨hfinite, hzero⟩ := timeFactor_nonzero t.unit
    exact float_mul_defined h hfinite hzero

instance floatGraded : Scalar.Graded Float where
  le_refl h := float_le_iff.mpr (le_refl_unpacked (defined_iff.mp h))
  defined_of_lt h := by
    rw [defined_iff, defined_iff]
    exact lt_defined (float_lt_iff.mp h)
  defined_of_le h := by
    rw [defined_iff, defined_iff]
    exact le_defined (float_le_iff.mp h)
  pos_of_le hx h := float_lt_iff.mpr (pos_of_le_unpacked (float_lt_iff.mp hx) (float_le_iff.mp h))
  twelve := by decide +kernel

end Floats

end Stagecraft.Proofs
