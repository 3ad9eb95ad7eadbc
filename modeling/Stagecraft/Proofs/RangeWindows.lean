import Stagecraft.Proofs.CurveJourneys
import Stagecraft.Settings

/-!
# Windows of curves

Where a motion leaves the distance open, the window of the command gives it. An actor that is told
to go from the lower end of its window to the upper one, or back, stays within the window and
arrives at the other end. Where the ends are stated the other way round, only their distance is
made sense of: the actor sets out from the right place, and away from the window.
-/

namespace Stagecraft.Proofs

section Arclengths

variable {c : FollowCommand ℝ} {curve : Curve ℝ} {d : ℝ}

lemma windowLength_real : windowLength c curve = |keptEnd c curve - keptStart c curve| :=
  abs_real _

lemma travelled_forward (h : c.reverse = false) :
    travelled c curve d = keptStart c curve + d ∧ goal c curve = keptEnd c curve := by
  unfold travelled origin direction goal
  simp [h]

lemma travelled_backward (h : c.reverse = true) :
    travelled c curve d = keptEnd c curve - d ∧ goal c curve = keptStart c curve := by
  unfold travelled origin direction goal
  simp only [h, if_true, one_real, neg_one_mul, and_true]
  exact (sub_eq_add_neg _ _).symm

lemma travelled_zero : travelled c curve 0 = origin c curve := by
  unfold travelled
  rw [mul_zero, add_zero]

lemma travelled_dist (d d' : ℝ) : |travelled c curve d - travelled c curve d'| = |d - d'| := by
  cases hreverse : c.reverse
  · rw [(travelled_forward hreverse).1, (travelled_forward hreverse).1, add_sub_add_left_eq_sub]
  · rw [(travelled_backward hreverse).1, (travelled_backward hreverse).1, sub_sub_sub_cancel_left,
      abs_sub_comm]

/-- The window that is stated, its ends in either order, but for the precision of a motion. -/
def window (c : FollowCommand ℝ) (curve : Curve ℝ) : Set ℝ :=
  Set.Icc (min (windowStart c) (windowEnd c curve) - 1e-9)
    (max (windowStart c) (windowEnd c curve) + 1e-9)

/-- A window on the curve is kept as it is. -/
lemma kept_eq (hstart : windowStart c ∈ Set.Icc 0 curve.length)
    (hend : windowEnd c curve ∈ Set.Icc 0 curve.length) :
    keptStart c curve = windowStart c ∧ keptEnd c curve = windowEnd c curve := by
  unfold keptStart keptEnd
  rw [zero_real]
  exact ⟨clamp_of_mem hstart.1 hstart.2, clamp_of_mem hend.1 hend.2⟩

/-- The goal lies from the origin as the upper end of the window from the lower one. -/
lemma goal_eq : goal c curve = travelled c curve (keptEnd c curve - keptStart c curve) := by
  cases hreverse : c.reverse
  · rw [(travelled_forward hreverse).1, (travelled_forward (d := 0) hreverse).2]
    ring
  · rw [(travelled_backward hreverse).1, (travelled_backward (d := 0) hreverse).2]
    ring

/-- Toward the goal, what is left of the window is what is not travelled yet. -/
lemma goal_ahead (h : keptStart c curve ≤ keptEnd c curve) :
    goal c curve = travelled c curve (windowLength c curve) := by
  rw [goal_eq, windowLength_real, abs_of_nonneg (sub_nonneg.mpr h)]

/-- The goal lies behind where the window is stated the other way round. -/
lemma goal_behind (h : keptEnd c curve ≤ keptStart c curve) :
    goal c curve = travelled c curve (-windowLength c curve) := by
  rw [goal_eq, windowLength_real, abs_of_nonpos (sub_nonpos.mpr h), neg_neg]

section Kept

variable (hkept : keptStart c curve = windowStart c ∧ keptEnd c curve = windowEnd c curve)

include hkept

lemma travelled_mem_ahead (h : windowStart c ≤ windowEnd c curve) (hd : 0 ≤ d)
    (hfar : d ≤ windowLength c curve + 1e-9) : travelled c curve d ∈ window c curve := by
  rw [windowLength_real, hkept.1, hkept.2, abs_of_nonneg (sub_nonneg.mpr h)] at hfar
  unfold window
  rw [min_eq_left h, max_eq_right h]
  cases hreverse : c.reverse
  · rw [(travelled_forward hreverse).1, hkept.1]
    constructor <;> linarith
  · rw [(travelled_backward hreverse).1, hkept.2]
    constructor <;> linarith

lemma travelled_mem_behind (h : windowEnd c curve ≤ windowStart c) (hd : 0 ≤ d) :
    travelled c curve d ∈ window c curve ↔ d ≤ 1e-9 := by
  unfold window
  rw [min_eq_right h, max_eq_left h, Set.mem_Icc]
  cases hreverse : c.reverse
  · rw [(travelled_forward hreverse).1, hkept.1]
    constructor
    · rintro ⟨-, hle⟩
      linarith
    · intro hle
      constructor <;> linarith
  · rw [(travelled_backward hreverse).1, hkept.2]
    constructor
    · rintro ⟨hle, -⟩
      linarith
    · intro hle
      constructor <;> linarith

end Kept

end Arclengths

section Motions

variable {c : FollowCommand ℝ} {o : PlanOptions ℝ} {m : Movie ℝ} {name : String} {index : ℕ}

/-- The window gives the distance of a motion that neither states one nor is timed. -/
lemma followMotion_open {motion : MotionSpec ℝ} (hdistance : motion.distance = none)
    (htimed : motion.duration = none ∨ motion.startSpeed = none ∧ motion.endSpeed = none)
    (x : ℝ) : Run.followMotion motion x = { motion with distance := some (.centimeters x) } := by
  unfold Run.followMotion
  rcases htimed with hduration | ⟨hstart, hend⟩
  · simp [hdistance, hduration]
  · simp [hdistance, hstart, hend]

/-- The solver has noted that the actor comes to rest before it has covered its distance. -/
def StopIsNoted (motion : ResolvedMotion ℝ) : Prop :=
  ∃ reached distance, .stopsAfterDistance reached distance ∈ motion.notes

namespace Journey

variable (j : Journey o m name index c)

lemma distanceAt_mem (t : ℝ) :
    j.motion.profile.distanceAt t ∈ Set.Icc 0 j.motion.profile.distance := by
  have hp := j.drivable
  have hstart : elapsed j.motion.profile t ∈ Set.Icc 0 j.motion.profile.duration :=
    ⟨le_max_left 0 _, max_le hp.duration_nonneg (min_le_left _ _)⟩
  rw [← hp.distanceAt_elapsed, ← hp.distanceAt_duration, ← hp.distanceAt_zero]
  exact ⟨hp.distanceAt_mono hstart.1, hp.distanceAt_mono hstart.2⟩

lemma arclengthAt_zero : j.arclengthAt 0 = origin c j.curve := by
  unfold arclengthAt
  rw [j.drivable.distanceAt_zero, travelled_zero]

lemma arclengthAt_duration :
    j.arclengthAt j.motion.profile.duration = travelled c j.curve j.motion.profile.distance := by
  unfold arclengthAt
  rw [j.drivable.distanceAt_duration]

/-- A motion whose distance is left open covers the window, unless it stops short. -/
lemma covers_window (hdistance : c.motion.distance = none)
    (htimed : c.motion.duration = none ∨ c.motion.startSpeed = none ∧ c.motion.endSpeed = none) :
    |j.motion.profile.distance - windowLength c j.curve| ≤ 1e-9 ∨
      j.motion.profile.distance ≤ windowLength c j.curve ∧ StopIsNoted j.motion := by
  have hresolved := j.resolved
  rw [followMotion_open hdistance htimed] at hresolved
  have hcovers := (resolve_forward hresolved).covers (windowLength c j.curve)
    (congrArg some (centimeters_real _))
  cases hcovers with
  | whole h => exact Or.inl h
  | stops h hnote =>
    obtain ⟨reached, hnote⟩ := hnote
    exact Or.inr ⟨h, reached, _, hnote⟩
  | agrees ht hv0 hv1 h =>
    rcases htimed with hduration | ⟨hstart, -⟩
    · simp [hduration] at ht
    · simp [hstart] at hv0

end Journey

end Motions

section Windows

variable {o : PlanOptions ℝ} {m : Movie ℝ} {name : String} {index : ℕ} {c : FollowCommand ℝ}
  {reel : Reel ℝ}

/-- How a journey goes about its window. With the ends in order it stays within, and it arrives
at the other end unless it stops short. Else all of it leads away from there. -/
structure TravelsWindow (j : Journey o m name index c) : Prop where
  shows : ∀ t, ∃ place, j.curve.travelAt? (j.arclengthAt t) = some place ∧
    (j.span.pose t).location = place.position
  begins : j.arclengthAt 0 = if c.reverse then windowEnd c j.curve else windowStart c
  ordered : windowStart c ≤ windowEnd c j.curve → ∀ t, j.arclengthAt t ∈ window c j.curve
  arrives : windowStart c ≤ windowEnd c j.curve → ¬StopIsNoted j.motion →
    |j.arclengthAt j.motion.profile.duration -
      (if c.reverse then windowStart c else windowEnd c j.curve)| ≤ 1e-9
  leaves : windowEnd c j.curve ≤ windowStart c → ∀ t,
    |j.arclengthAt t - (if c.reverse then windowStart c else windowEnd c j.curve)| =
      windowStart c - windowEnd c j.curve + j.motion.profile.distanceAt t
  within_iff : (∀ t, j.arclengthAt t ∈ window c j.curve) ↔
    windowStart c ≤ windowEnd c j.curve ∨ j.motion.profile.distance ≤ 1e-9

lemma Journey.travelsWindow (j : Journey o m name index c) (hdistance : c.motion.distance = none)
    (htimed : c.motion.duration = none ∨ c.motion.startSpeed = none ∧ c.motion.endSpeed = none)
    (hstart : windowStart c ∈ Set.Icc 0 j.curve.length)
    (hend : windowEnd c j.curve ∈ Set.Icc 0 j.curve.length) : TravelsWindow j := by
  have hkept := kept_eq hstart hend
  have hcovers := j.covers_window hdistance htimed
  have hfar : j.motion.profile.distance ≤ windowLength c j.curve + 1e-9 := by
    rcases hcovers with hwhole | ⟨hshort, -⟩
    · linarith [le_of_abs_le hwhole]
    · linarith
  have hgoal : (if c.reverse then windowStart c else windowEnd c j.curve) = goal c j.curve := by
    unfold goal
    rw [hkept.1, hkept.2]
  have hordered (hle : windowStart c ≤ windowEnd c j.curve) (t : ℝ) :
      j.arclengthAt t ∈ window c j.curve := by
    obtain ⟨hnonneg, hmost⟩ := j.distanceAt_mem t
    exact travelled_mem_ahead hkept hle hnonneg (hmost.trans hfar)
  refine ⟨fun t => ?_, ?_, hordered, fun hle hnone => ?_, fun hle t => ?_, fun h => ?_, ?_⟩
  · obtain ⟨place, hplace, hpose⟩ := j.pose_eq t
    exact ⟨place, hplace, congrArg Pose.location hpose⟩
  · rw [j.arclengthAt_zero, origin, hkept.1, hkept.2]
  · rw [hgoal, goal_ahead (by rwa [hkept.1, hkept.2]), j.arclengthAt_duration, travelled_dist]
    exact hcovers.resolve_right fun hshort => hnone hshort.2
  · have hnonneg := (j.distanceAt_mem t).1
    have hlength : windowLength c j.curve = windowStart c - windowEnd c j.curve := by
      rw [windowLength_real, hkept.1, hkept.2, abs_of_nonpos (sub_nonpos.mpr hle), neg_sub]
    rw [hgoal, goal_behind (by rwa [hkept.1, hkept.2]), Journey.arclengthAt, travelled_dist,
      sub_neg_eq_add, hlength, add_comm, abs_of_nonneg (by linarith)]
  · refine (le_total _ _).imp_right fun hle => ?_
    have hlast := h j.motion.profile.duration
    rw [j.arclengthAt_duration] at hlast
    exact (travelled_mem_behind hkept hle j.drivable.distance_nonneg).mp hlast
  · rintro (hle | hsmall) t
    · exact hordered hle t
    · rcases le_total (windowStart c) (windowEnd c j.curve) with hle | hle
      · exact hordered hle t
      · obtain ⟨hnonneg, hmost⟩ := j.distanceAt_mem t
        exact (travelled_mem_behind hkept hle hnonneg).mpr (hmost.trans hsmall)

/-- A command that follows a spline by the length of its window sets out from the end of the window
that it states, and stays within if the ends are stated in order, or if there is nothing to
travel. -/
theorem plan_travels_window (h : m.plan o = .ok reel)
    (hc : (m.commandsFor name)[index]? = some (.follow c)) (hdistance : c.motion.distance = none)
    (htimed : c.motion.duration = none ∨ c.motion.startSpeed = none ∧ c.motion.endSpeed = none) :
    ∃ j : Journey o m name index c, (∃ s final, played o m = .ok (reel.lastFrame, s) ∧
        s.run name = .ok final ∧ j.span ∈ final.spans) ∧
      (windowStart c ∈ Set.Icc 0 j.curve.length → windowEnd c j.curve ∈ Set.Icc 0 j.curve.length →
        TravelsWindow j) := by
  obtain ⟨j, -⟩ := exists_journey h hc
  exact ⟨j, j.span_played h, j.travelsWindow hdistance htimed⟩

end Windows

section Trams

variable {o : PlanOptions ℝ} {first last : ℝ} {reverse : Bool}

lemma tram_kept (reverse : Bool) {curve : Curve ℝ} (hlength : curve.length = 128)
    (hfirst : first ∈ Set.Icc 0 128) (hlast : last ∈ Set.Icc 0 128) :
    windowStart (tram first last reverse) ∈ Set.Icc 0 curve.length ∧
      windowEnd (tram first last reverse) curve ∈ Set.Icc 0 curve.length ∧
      windowLength (tram first last reverse) curve = |last - first| := by
  obtain ⟨hstart, hend⟩ := tram_window first last reverse curve
  have hstart' : windowStart (tram first last reverse) ∈ Set.Icc 0 curve.length := by
    rwa [hstart, hlength]
  have hend' : windowEnd (tram first last reverse) curve ∈ Set.Icc 0 curve.length := by
    rwa [hend, hlength]
  obtain ⟨hkept, hkept'⟩ := kept_eq hstart' hend'
  refine ⟨hstart', hend', ?_⟩
  rw [windowLength_real, hkept, hkept', hstart, hend]

lemma tram_window_plan (o : PlanOptions ℝ) (reverse : Bool) (hfirst : first ∈ Set.Icc 0 128)
    (hlast : last ∈ Set.Icc 0 128) (hwide : |last - first| = 64) :
    ∃ reel, (shuttle (tram first last reverse)).plan o = .ok reel :=
  tram_plan o (w := 64) (by norm_num) fun _ hlength =>
    (tram_kept reverse hlength hfirst hlast).2.2.trans hwide

/-- A window of half the track is crossed in a second. -/
lemma tram_window_motion (hfirst : first ∈ Set.Icc 0 128) (hlast : last ∈ Set.Icc 0 128)
    (hwide : |last - first| = 64) (j : Journey o (shuttle (tram first last reverse)) "A" 0
      (tram first last reverse)) : j.motion = ⟨⟨64, 64, 0, 1, 64⟩, []⟩ := by
  have hwindow := (tram_kept reverse (shuttle_along rfl j).2 hfirst hlast).2.2
  rw [tram_motion (w := 64) (by norm_num) j (hwindow.trans hwide), div_self (by norm_num)]

lemma tram_travelled {curve : Curve ℝ} (hlength : curve.length = 128)
    (hfirst : first ∈ Set.Icc 0 128) (hlast : last ∈ Set.Icc 0 128) (d : ℝ) :
    travelled (tram first last false) curve d = first + d := by
  obtain ⟨hstart, hend, -⟩ := tram_kept false hlength hfirst hlast
  rw [(travelled_forward rfl).1, (kept_eq hstart hend).1, (tram_window first last false curve).1]

/-- Back along the track from 96 centimeters to 32. -/
theorem tram_travels_window : ∃ reel : Reel ℝ,
    (shuttle (tram 32 96 true)).plan Settings.standard.options = .ok reel ∧
      ∃ j : Journey Settings.standard.options (shuttle (tram 32 96 true)) "A" 0 (tram 32 96 true),
        TravelsWindow j ∧ j.arclengthAt 0 = 96 ∧ |j.arclengthAt 1 - 32| ≤ 1e-9 := by
  have hfirst : (32 : ℝ) ∈ Set.Icc 0 128 := by norm_num
  have hlast : (96 : ℝ) ∈ Set.Icc 0 128 := by norm_num
  have hwide : |96 - 32| = (64 : ℝ) := by norm_num
  obtain ⟨reel, hplan⟩ := tram_window_plan Settings.standard.options true hfirst hlast hwide
  obtain ⟨j, -, hwindow⟩ := plan_travels_window hplan shuttle_command rfl (Or.inl rfl)
  obtain ⟨hstart, hend, -⟩ := tram_kept true (shuttle_along rfl j).2 hfirst hlast
  obtain ⟨hstart_eq, hend_eq⟩ := tram_window 32 96 true j.curve
  have htravels := hwindow hstart hend
  refine ⟨reel, hplan, j, htravels, htravels.begins.trans hend_eq, ?_⟩
  have harrives := htravels.arrives (by rw [hstart_eq, hend_eq]; norm_num)
  rw [tram_window_motion hfirst hlast hwide j, hstart_eq] at harrives
  exact harrives (by simp [StopIsNoted])

/-- From 96 centimeters to 32, but forward: the actor leaves its window for the end of the
track. -/
theorem tram_leaves_window : ∃ reel : Reel ℝ,
    (shuttle (tram 96 32 false)).plan Settings.standard.options = .ok reel ∧
      ∃ j : Journey Settings.standard.options (shuttle (tram 96 32 false)) "A" 0 (tram 96 32 false),
        windowStart (tram 96 32 false) ∈ Set.Icc 0 j.curve.length ∧
        windowEnd (tram 96 32 false) j.curve ∈ Set.Icc 0 j.curve.length ∧
        ¬StopIsNoted j.motion ∧ j.motion.profile.duration = 1 ∧ j.arclengthAt 1 = 160 ∧
        160 ∉ Set.uIcc (windowStart (tram 96 32 false)) (windowEnd (tram 96 32 false) j.curve) := by
  have hfirst : (96 : ℝ) ∈ Set.Icc 0 128 := by norm_num
  have hlast : (32 : ℝ) ∈ Set.Icc 0 128 := by norm_num
  have hwide : |32 - 96| = (64 : ℝ) := by norm_num
  obtain ⟨reel, hplan⟩ := tram_window_plan Settings.standard.options false hfirst hlast hwide
  obtain ⟨j, -⟩ := exists_journey hplan shuttle_command
  obtain ⟨hstart, hend, -⟩ := tram_kept false (shuttle_along rfl j).2 hfirst hlast
  obtain ⟨hstart_eq, hend_eq⟩ := tram_window 96 32 false j.curve
  have hmotion := tram_window_motion hfirst hlast hwide j
  have hduration : j.motion.profile.duration = 1 := by rw [hmotion]
  refine ⟨reel, hplan, j, hstart, hend, by simp [hmotion, StopIsNoted], hduration, ?_, ?_⟩
  · have hfinish := j.arclengthAt_duration
    rw [hduration, tram_travelled (shuttle_along rfl j).2 hfirst hlast] at hfinish
    rw [hfinish, hmotion]
    norm_num
  · rw [hstart_eq, hend_eq]
    norm_num [Set.uIcc]

end Trams

end Stagecraft.Proofs
