import Mathlib.Algebra.Order.ToIntervalMod
import Stagecraft.Heading
import Stagecraft.Proofs.RealScalar

/-!
# Short turns

Yaws count up to full turns, and of all the turns that lead from one yaw to another the program
takes the shortest: the way between the two, brought back into `(-180, 180]` by full turns. Of the
two turns by half a circle this leaves the one to the right. A yaw is unwrapped by adding that turn
to the yaw before it, so a row of yaws follows its targets without ever turning by more than half a
circle at once.
-/

namespace Stagecraft.Proofs

open AddCommGroup

section Turns

variable {current target turn : ℝ}

lemma fullTurn_pos : (0 : ℝ) < 360 := by
  norm_num

/-- The short way round is the way to the target, less its full turns. -/
lemma shortestYaw_real (current target : ℝ) :
    shortestYaw current target = toIocMod fullTurn_pos (-180) (target - current) := by
  obtain ⟨turns, hturns⟩ := modulo_turns fullTurn_pos (target - current)
  obtain ⟨hzero, hfull⟩ := modulo_mem fullTurn_pos (target - current)
  symm
  rw [toIocMod_eq_iff]
  unfold shortestYaw
  dsimp only
  split
  next hfar =>
    refine ⟨⟨by linarith, by linarith⟩, 1 - turns, ?_⟩
    rw [hturns, zsmul_eq_mul]
    push_cast
    ring_nf
  next hnear =>
    refine ⟨⟨by linarith, by linarith⟩, -turns, ?_⟩
    rw [hturns, zsmul_eq_mul]
    push_cast
    ring

/-- The short way round is the only turn within half a circle that leads to the target. -/
lemma shortestYaw_eq_iff : shortestYaw current target = turn ↔
    turn ∈ Set.Ioc (-180 : ℝ) 180 ∧ turn ≡ target - current [PMOD 360] := by
  have hcircle : (-180 : ℝ) + 360 = 180 := by norm_num
  rw [shortestYaw_real, toIocMod_eq_iff, hcircle, modEq_iff_eq_add_zsmul]

lemma shortestYaw_mem (current target : ℝ) :
    shortestYaw current target ∈ Set.Ioc (-180 : ℝ) 180 :=
  (shortestYaw_eq_iff.mp rfl).1

lemma shortestYaw_modEq (current target : ℝ) :
    shortestYaw current target ≡ target - current [PMOD 360] :=
  (shortestYaw_eq_iff.mp rfl).2

lemma abs_shortestYaw_le_half (current target : ℝ) : |shortestYaw current target| ≤ 180 := by
  obtain ⟨hlow, hhigh⟩ := shortestYaw_mem current target
  exact abs_le.mpr ⟨hlow.le, hhigh⟩

/-- Any other turn to the target is as long as half a circle, or longer. -/
lemma abs_shortestYaw_le (h : turn ≡ target - current [PMOD 360]) :
    |shortestYaw current target| ≤ |turn| := by
  by_cases hnear : turn ∈ Set.Ioc (-180 : ℝ) 180
  · rw [shortestYaw_eq_iff.mpr ⟨hnear, h⟩]
  · have hfar : 180 ≤ |turn| := by
      by_contra hless
      obtain ⟨hlow, hhigh⟩ := abs_lt.mp (not_le.mp hless)
      exact hnear ⟨hlow, hhigh.le⟩
    exact (abs_shortestYaw_le_half current target).trans hfar

lemma shortestYaw_congr {current' target' : ℝ} (hcurrent : current' ≡ current [PMOD 360])
    (htarget : target' ≡ target [PMOD 360]) :
    shortestYaw current' target' = shortestYaw current target := by
  have hway : target - current ≡ target' - current' [PMOD 360] := (htarget.sub hcurrent).symm
  exact shortestYaw_eq_iff.mpr
    ⟨shortestYaw_mem current target, (shortestYaw_modEq current target).trans hway⟩

/-- The short way round from how far it goes and how many full turns it leaves out. -/
lemma shortestYaw_eq (hturn : turn ∈ Set.Ioc (-180 : ℝ) 180) (n : ℤ)
    (h : target = current + turn + 360 * n) : shortestYaw current target = turn := by
  refine shortestYaw_eq_iff.mpr ⟨hturn, modEq_iff_eq_add_zsmul.mpr ⟨n, ?_⟩⟩
  rw [h, zsmul_eq_mul]
  ring

end Turns

section Unwrapping

variable {current target : ℝ}

lemma unwrapYaw_modEq (current target : ℝ) : unwrapYaw current target ≡ target [PMOD 360] :=
  modEq_sub_iff_add_modEq'.mp (shortestYaw_modEq current target)

/-- A yaw is kept near the one before it by full turns. -/
lemma unwrapYaw_real (current target : ℝ) :
    ∃ turns : ℤ, unwrapYaw current target = target + 360 * turns := by
  obtain ⟨turns, hturns⟩ := modEq_iff_eq_add_zsmul.mp (unwrapYaw_modEq current target).symm
  rw [zsmul_eq_mul, mul_comm] at hturns
  exact ⟨turns, hturns⟩

lemma abs_unwrapYaw_sub_le (current target : ℝ) : |unwrapYaw current target - current| ≤ 180 := by
  rw [unwrapYaw, add_sub_cancel_left]
  exact abs_shortestYaw_le_half current target

/-- A yaw that is reached already, but for full turns, is kept. -/
lemma unwrapYaw_still {turns : ℤ} (h : current = target + 360 * turns) :
    unwrapYaw current target = current := by
  have hstill : shortestYaw current target = 0 := by
    apply shortestYaw_eq ⟨by norm_num, by norm_num⟩ (-turns)
    push_cast
    linarith
  rw [unwrapYaw, hstill, add_zero]

/-- Turning both yaws turns the unwrapped one. -/
lemma unwrapYaw_shifted (current target turn : ℝ) :
    unwrapYaw (current + turn) (target + turn) = unwrapYaw current target + turn := by
  unfold unwrapYaw shortestYaw
  rw [add_sub_add_right_eq_sub]
  exact add_right_comm _ _ _

/-- The turn between two yaws is the same for the mesh, and whatever full turns lie behind it. -/
lemma shortestYaw_mesh {y z offset : ℝ} {turns : ℤ} :
    shortestYaw (y + offset + 360 * turns) (z + offset) = shortestYaw y z := by
  obtain ⟨around, haround⟩ := unwrapYaw_real y z
  unfold unwrapYaw at haround
  apply shortestYaw_eq (shortestYaw_mem y z) (-turns - around)
  push_cast
  linarith

/-- Yaws that are unwrapped in a row reach their targets, up to full turns, each by at most half a
turn from the one before. -/
lemma scanl_unwrapYaw (start : ℝ) (targets : List ℝ) :
    List.Forall₂ (fun yaw target => yaw ≡ target [PMOD 360])
        (targets.scanl unwrapYaw start).tail targets ∧
      (targets.scanl unwrapYaw start).IsChain fun yaw next => |next - yaw| ≤ 180 := by
  induction targets generalizing start with
  | nil => exact ⟨.nil, .singleton start⟩
  | cons target rest ih =>
    obtain ⟨hreach, hnear⟩ := ih (unwrapYaw start target)
    have hrow : rest.scanl unwrapYaw (unwrapYaw start target) =
        unwrapYaw start target :: (rest.scanl unwrapYaw (unwrapYaw start target)).tail :=
      List.eq_cons_of_mem_head? List.head?_scanl
    rw [List.scanl_cons, List.tail_cons]
    rw [hrow] at hnear ⊢
    exact ⟨.cons (unwrapYaw_modEq start target) hreach,
      .cons_cons (abs_unwrapYaw_sub_le start target) hnear⟩

end Unwrapping

/-- The program turns by the shortest way: by the only turn in `(-180, 180]` to the target, which
no other turn to it undercuts and which full turns of either yaw leave alone. Yaws that are
unwrapped in a row, each from the one before, follow their targets by such turns. -/
theorem turns_by_shortest_way (current target : ℝ) :
    (∀ turn : ℝ, shortestYaw current target = turn ↔
      turn ∈ Set.Ioc (-180 : ℝ) 180 ∧ turn ≡ target - current [PMOD 360]) ∧
    (∀ turn : ℝ, turn ≡ target - current [PMOD 360] → |shortestYaw current target| ≤ |turn|) ∧
    (∀ current' target' : ℝ, current' ≡ current [PMOD 360] → target' ≡ target [PMOD 360] →
      shortestYaw current' target' = shortestYaw current target) ∧
    ∀ targets : List ℝ,
      List.Forall₂ (fun yaw target => yaw ≡ target [PMOD 360])
          (targets.scanl unwrapYaw current).tail targets ∧
        (targets.scanl unwrapYaw current).IsChain fun yaw next => |next - yaw| ≤ 180 :=
  ⟨fun _ => shortestYaw_eq_iff, fun _ => abs_shortestYaw_le, fun _ _ => shortestYaw_congr,
    scanl_unwrapYaw current⟩

/-- From behind, both turns by half a circle lead to the front. -/
theorem half_turn_goes_right :
    (180 : ℝ) ∈ Set.Ioc (-180 : ℝ) 180 ∧ (180 : ℝ) ≡ 0 - 180 [PMOD 360] ∧
      shortestYaw (180 : ℝ) 0 = 180 := by
  have hnear : (180 : ℝ) ∈ Set.Ioc (-180 : ℝ) 180 := ⟨by norm_num, le_rfl⟩
  have hreach : (180 : ℝ) ≡ 0 - 180 [PMOD 360] := modEq_iff_eq_add_zsmul.mpr ⟨-1, by norm_num⟩
  exact ⟨hnear, hreach, ((turns_by_shortest_way 180 0).1 180).mpr ⟨hnear, hreach⟩⟩

end Stagecraft.Proofs
