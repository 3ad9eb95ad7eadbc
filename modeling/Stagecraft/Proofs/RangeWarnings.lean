import Stagecraft.Proofs.KeptReports
import Stagecraft.Proofs.RangeWindows

/-!
# Warnings of ranges

Arclengths beyond an open curve are brought to its ends. Of travel this is reported: travel goes one
way, so it leaves the curve at some time if and only if it ends beyond it. Of the window it is not:
ends that are stated beyond the curve are moved onto it in silence.
-/

namespace Stagecraft.Proofs

/-- An arclength lies beyond an end of a curve, by more than is forgiven. -/
def OffCurve (curve : Curve ℝ) (s : ℝ) : Prop :=
  s < -1e-6 ∨ curve.length + 1e-6 < s

/-- A plan reports of a command that its travel runs over. -/
def WarnedOfRange (reel : Reel ℝ) (name : String) (index : ℕ) : Prop :=
  ∃ distance spline length, ReportedOf reel name index (.travelOverruns distance spline length)

section Travel

variable {o : PlanOptions ℝ} {m : Movie ℝ} {name : String} {index : ℕ} {c : FollowCommand ℝ}
  {reel : Reel ℝ}

lemma origin_mem {curve : Curve ℝ} (h : 0 ≤ curve.length) :
    origin c curve ∈ Set.Icc 0 curve.length := by
  have hclamp (x : ℝ) : Scalar.clamp (@OfNat.ofNat ℝ 0 Scalar.instOfNat) curve.length x ∈
      Set.Icc 0 curve.length := by
    rw [zero_real]
    exact clamp_mem h x
  unfold origin
  cases c.reverse
  · exact hclamp _
  · exact hclamp _

lemma runsOver_real {curve : Curve ℝ} {p : Profile ℝ} : runsOver c curve p = true ↔
    curve.closed = false ∧ OffCurve curve (travelled c curve p.distance) := by
  unfold runsOver OffCurve
  rw [Bool.and_eq_true, Bool.or_eq_true, decide_eq_true_iff, decide_eq_true_iff,
    Bool.not_eq_true_eq_eq_false]

namespace Journey

/-- Some time of the journey is off the curve. -/
def Leaves (j : Journey o m name index c) : Prop :=
  ∃ t ∈ Set.Icc 0 j.motion.profile.duration, OffCurve j.curve (j.arclengthAt t)

/-- Some arclength that the command asks for is off the curve. -/
def AsksBeyond (j : Journey o m name index c) : Prop :=
  OffCurve j.curve (windowStart c) ∨ OffCurve j.curve (windowEnd c j.curve) ∨ j.Leaves

/-- Travel goes one way, so its end decides for all of it. -/
lemma leaves_iff (j : Journey o m name index c) :
    j.Leaves ↔ OffCurve j.curve (travelled c j.curve j.motion.profile.distance) := by
  constructor
  · rintro ⟨t, -, hoff⟩
    obtain ⟨hnonneg, hmost⟩ := j.distanceAt_mem t
    obtain ⟨hlow, hhigh⟩ := origin_mem (c := c) j.length_nonneg
    unfold OffCurve arclengthAt travelled direction at *
    cases hreverse : c.reverse
    · simp only [hreverse, Bool.false_eq_true, if_false, one_real, one_mul] at hoff ⊢
      rcases hoff with hoff | hoff
      · linarith
      · exact Or.inr (by linarith)
    · simp only [hreverse, if_true, one_real] at hoff ⊢
      rcases hoff with hoff | hoff
      · exact Or.inl (by linarith)
      · linarith
  · intro hoff
    exact ⟨_, ⟨j.drivable.duration_nonneg, le_rfl⟩, j.arclengthAt_duration ▸ hoff⟩

/-- The plan reports of the journey what is found of it, and nothing else. -/
lemma reported_iff (j : Journey o m name index c) (h : m.plan o = .ok reel) {finding : Finding ℝ} :
    ReportedOf reel name index finding ↔ (∃ note ∈ j.motion.notes, .motion note = finding) ∨
      (j.curve.closed = false ∧ j.Leaves) ∧
        finding = .travelOverruns j.motion.profile.distance c.spline j.curve.length := by
  have hv := valid_of_issues_nil (issues_nil_of_plan h)
  have hreported := plan_reports_iff h j.steps_eq j.walked j.run_eq (j.run_free h)
    (j.obey_eq hv j.run.nextIndex) rfl finding
  rw [j.nextIndex_eq] at hreported
  rw [hreported, j.leaves_iff, ← runsOver_real, journeyFindings, List.mem_append, List.mem_map,
    List.mem_ite_nil_right, List.mem_singleton]

lemma warned_iff_leaves (j : Journey o m name index c) (h : m.plan o = .ok reel) :
    WarnedOfRange reel name index ↔ j.curve.closed = false ∧ j.Leaves := by
  constructor
  · rintro ⟨distance, spline, length, hwarned⟩
    rcases (j.reported_iff h).mp hwarned with ⟨note, -, hnote⟩ | ⟨hleaves, -⟩
    · cases hnote
    · exact hleaves
  · intro hleaves
    exact ⟨_, _, _, (j.reported_iff h).mpr (Or.inr ⟨hleaves, rfl⟩)⟩

end Journey

/-- Of a command to follow a spline the notes of its motion are reported, and that its travel
leaves the curve if that is open, but nothing of the window that it states. So a range that is asked
for beyond the curve is told of unless only the ends of the window are. -/
theorem plan_warns_overruns (h : m.plan o = .ok reel)
    (hc : (m.commandsFor name)[index]? = some (.follow c)) :
    ∃ j : Journey o m name index c,
      (∀ finding, ReportedOf reel name index finding ↔
        (∃ note ∈ j.motion.notes, .motion note = finding) ∨
        (j.curve.closed = false ∧ j.Leaves) ∧
          finding = .travelOverruns j.motion.profile.distance c.spline j.curve.length) ∧
      (j.curve.closed = false → ((WarnedOfRange reel name index ↔ j.AsksBeyond) ↔
        (OffCurve j.curve (windowStart c) ∨ OffCurve j.curve (windowEnd c j.curve) →
          j.Leaves))) := by
  obtain ⟨j, -⟩ := exists_journey h hc
  refine ⟨j, fun finding => j.reported_iff h, fun hopen => ?_⟩
  rw [j.warned_iff_leaves h]
  unfold Journey.AsksBeyond
  tauto

end Travel

section Trams

/-- From 96 centimeters to 32, but forward: the end of the track is in the way. -/
theorem tram_is_warned : ∃ reel : Reel ℝ,
    (shuttle (tram 96 32 false)).plan Settings.standard.options = .ok reel ∧
      WarnedOfRange reel "A" 0 := by
  have hfirst : (96 : ℝ) ∈ Set.Icc 0 128 := by norm_num
  have hlast : (32 : ℝ) ∈ Set.Icc 0 128 := by norm_num
  have hwide : |32 - 96| = (64 : ℝ) := by norm_num
  obtain ⟨reel, hplan⟩ := tram_window_plan Settings.standard.options false hfirst hlast hwide
  obtain ⟨j, hreported, -⟩ := plan_warns_overruns hplan shuttle_command
  obtain ⟨hopen, hlength⟩ := shuttle_along rfl j
  have hleaves : j.Leaves := by
    refine j.leaves_iff.mpr (Or.inr ?_)
    rw [tram_travelled hlength hfirst hlast, tram_window_motion hfirst hlast hwide j, hlength]
    norm_num
  exact ⟨reel, hplan, _, _, _, (hreported _).mpr (Or.inr ⟨⟨hopen, hleaves⟩, rfl⟩)⟩

lemma early_kept {curve : Curve ℝ} (hlength : curve.length = 128) :
    keptStart (tram (-64) 128 false) curve = 0 ∧
      windowLength (tram (-64) 128 false) curve = 128 := by
  obtain ⟨hstart, hend⟩ := tram_window (-64) 128 false curve
  have hkept : keptStart (tram (-64) 128 false) curve = 0 := by
    unfold keptStart
    rw [zero_real, hstart, hlength, clamp_real (by norm_num)]
    norm_num
  have hkept' : keptEnd (tram (-64) 128 false) curve = 128 := by
    unfold keptEnd
    rw [zero_real, hend, hlength, clamp_real (by norm_num)]
    norm_num
  refine ⟨hkept, ?_⟩
  rw [windowLength_real, hkept, hkept']
  norm_num

/-- From 64 centimeters before the track: the actor sets out from its start, and nobody is told. -/
theorem tram_starts_in_silence : ∃ reel : Reel ℝ,
    (shuttle (tram (-64) 128 false)).plan Settings.standard.options = .ok reel ∧
      (∀ finding, ¬ReportedOf reel "A" 0 finding) ∧
      ∃ j : Journey Settings.standard.options (shuttle (tram (-64) 128 false)) "A" 0
          (tram (-64) 128 false),
        j.curve.closed = false ∧ OffCurve j.curve (windowStart (tram (-64) 128 false)) ∧
        j.arclengthAt 0 = 0 := by
  have hlong : (1e-9 : ℝ) < 128 := by norm_num
  obtain ⟨reel, hplan⟩ := tram_plan Settings.standard.options hlong
    fun _ hlength => (early_kept hlength).2
  obtain ⟨j, -⟩ := exists_journey hplan shuttle_command
  obtain ⟨hopen, hlength⟩ := shuttle_along rfl j
  obtain ⟨hkept, hwindow⟩ := early_kept hlength
  have hmotion := tram_motion hlong j hwindow
  refine ⟨reel, hplan, fun finding hreported => ?_, j, hopen, Or.inl ?_, ?_⟩
  · rcases (j.reported_iff hplan).mp hreported with ⟨note, hnote, -⟩ | ⟨⟨-, hleaves⟩, -⟩
    · rw [hmotion] at hnote
      cases hnote
    · have hoff := j.leaves_iff.mp hleaves
      unfold OffCurve at hoff
      rw [(travelled_forward rfl).1, hkept, hmotion, hlength] at hoff
      norm_num at hoff
  · rw [(tram_window (-64) 128 false j.curve).1]
    norm_num
  · rw [j.arclengthAt_zero]
    exact hkept

end Trams

end Stagecraft.Proofs
