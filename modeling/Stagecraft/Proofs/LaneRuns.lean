import Stagecraft.Proofs.SessionRuns

/-!
# Runs through lanes

An actor goes from corridor to corridor, and now and then into the open. `laneAfter` is the lane it
is in after such steps. A corridor that is entered anew leaves the actor in its free interval, short
of half the tolerance where it is too narrow by less than that. A corridor whose bounds are those
before, up to the tolerance, keeps the offset, and each such step may add the tolerance to what the
offset is off. The lanes of the actors in a walked script all come about by such steps.
-/

namespace Stagecraft.Proofs

section Steps

variable {K : Type} [Scalar K]

/-- The bounds of a corridor with room for an actor of a radius. -/
def fitted (radius : K) (c : Corridor K) : Bounds K :=
  (Bounds.ofCorridor c).fit radius

/-- The lane after steps into corridors and, where a step has none, out of all of them. Steps are
listed latest first. -/
def laneAfter (radius : K) (anchor : Anchor) : List (Option (Corridor K)) → Option (Lane K)
  | [] => none
  | none :: _ => none
  | some c :: earlier =>
    (Drift.into? (laneAfter radius anchor earlier) (fitted radius c) radius anchor).map
      (Drift.lane · (fitted radius c))

/-- How many steps up to the latest found their bounds unchanged, one after another. -/
def unchangedSteps (radius : K) : List (Option (Corridor K)) → Nat
  | some c :: some d :: earlier =>
    if (fitted radius d).sameAs (fitted radius c) then
      unchangedSteps radius (some d :: earlier) + 1
    else 0
  | _ => 0

end Steps

section Bounds

variable {b : Bounds ℝ} {radius : ℝ}

lemma isTight_real : b.isTight radius = true ↔ b.width + 1e-9 < 2 * max radius 0 := by
  unfold Bounds.isTight
  rw [larger_real, two_real, zero_real, tolerance_real, Bool.not_eq_true', decide_eq_false_iff_not,
    not_le]

lemma fit_of_loose (h : ¬b.isTight radius = true) : b.fit radius = b := if_neg h

lemma fit_of_tight (h : b.isTight radius = true) :
    b.fit radius = ⟨b.midpoint - max radius 0, b.midpoint + max radius 0⟩ := by
  have hradius : 0 ≤ max radius 0 := le_max_right radius 0
  have hle : b.midpoint - max radius 0 ≤ b.midpoint + max radius 0 := by linarith
  unfold Bounds.fit Bounds.between
  simp only [if_pos h, larger_real, smaller_real, two_real, zero_real,
    mul_div_cancel_left₀ (max radius 0) two_ne_zero, min_eq_left hle, max_eq_right hle]

lemma midpoint_real (b : Bounds ℝ) : b.midpoint = (b.left + b.right) / 2 := by
  unfold Bounds.midpoint
  rw [two_real]

/-- Room is made on both sides alike, and none is taken away. -/
lemma fit_contains (b : Bounds ℝ) (radius : ℝ) :
    (b.fit radius).left ≤ b.left ∧ b.right ≤ (b.fit radius).right ∧
      (b.fit radius).midpoint = b.midpoint := by
  by_cases h : b.isTight radius = true
  · have hnarrow := isTight_real.mp h
    unfold Bounds.width at hnarrow
    rw [fit_of_tight h]
    simp only [midpoint_real]
    refine ⟨by linarith, by linarith, by ring⟩
  · rw [fit_of_loose h]
    exact ⟨le_refl _, le_refl _, rfl⟩

/-- The room that is made is enough, up to the tolerance. -/
lemma fit_width (b : Bounds ℝ) (hradius : 0 ≤ radius) :
    2 * radius ≤ (b.fit radius).right - (b.fit radius).left + 1e-9 := by
  by_cases h : b.isTight radius = true
  · rw [fit_of_tight h, max_eq_left hradius]
    linarith
  · have hloose := not_lt.mp (isTight_real.not.mp h)
    rw [max_eq_left hradius] at hloose
    rw [fit_of_loose h]
    exact hloose

lemma sameAs_real {b' : Bounds ℝ} :
    b.sameAs b' = true ↔ |b.left - b'.left| ≤ 1e-9 ∧ |b.right - b'.right| ≤ 1e-9 := by
  unfold Bounds.sameAs
  rw [decide_eq_true_iff, abs_real, abs_real, tolerance_real]

end Bounds

section Drifts

variable {bounds : Bounds ℝ} {radius : ℝ} {anchor : Anchor} {lane : Lane ℝ} {k : ℕ}

/-- The offsets at which an actor keeps its radius from both bounds, up to a slack. -/
def freeOffsets (b : Bounds ℝ) (radius slack : ℝ) : Set ℝ :=
  Set.Icc (b.left + radius - slack) (b.right - radius + slack)

lemma freeOffsets_zero (b : Bounds ℝ) (radius : ℝ) :
    freeOffsets b radius 0 = Set.Icc (b.left + radius) (b.right - radius) := by
  rw [freeOffsets, sub_zero, add_zero]

lemma freeOffsets_subset {slack slack' : ℝ} (h : slack ≤ slack') :
    freeOffsets bounds radius slack ⊆ freeOffsets bounds radius slack' :=
  Set.Icc_subset_Icc (sub_le_sub_left h _) (add_le_add_right h _)

/-- The middle is free, up to half of what the room is short of. -/
lemma midpoint_free {slack : ℝ} (h : 2 * radius ≤ bounds.right - bounds.left + 2 * slack) :
    bounds.midpoint ∈ freeOffsets bounds radius slack := by
  rw [midpoint_real]
  constructor
  · linarith
  · linarith

/-- Bounds that are the same up to the tolerance have the same free offsets up to the tolerance. -/
lemma free_of_sameAs {bounds' : Bounds ℝ} (h : bounds'.sameAs bounds = true) {slack x : ℝ}
    (hx : x ∈ freeOffsets bounds' radius slack) : x ∈ freeOffsets bounds radius (slack + 1e-9) := by
  obtain ⟨hleft, hright⟩ := sameAs_real.mp h
  obtain ⟨hlo, hhi⟩ := hx
  have hl := (abs_le.mp hleft).1
  have hr := (abs_le.mp hright).2
  constructor
  · linarith
  · linarith

/-- A drift never leaves the offsets between its two ends. -/
lemma offsetAt_between (d : Drift ℝ) (fraction : ℝ) :
    d.offsetAt fraction ∈ Set.uIcc d.start d.finish := by
  have hunit : Scalar.clamp (@OfNat.ofNat ℝ 0 Scalar.instOfNat) (@OfNat.ofNat ℝ 1 Scalar.instOfNat)
      fraction ∈ Set.Icc (0 : ℝ) 1 := by
    rw [zero_real, one_real]
    exact clamp_mem zero_le_one fraction
  rw [← segment_eq_uIcc, segment_eq_image']
  exact ⟨_, hunit, congrArg (d.start + ·) (mul_comm _ _)⟩

lemma offsetAt_of_mem (d : Drift ℝ) {fraction : ℝ} (h : fraction ∈ Set.Icc (0 : ℝ) 1) :
    d.offsetAt fraction = d.start + (d.finish - d.start) * fraction := by
  unfold Drift.offsetAt
  rw [zero_real, one_real, clamp_of_mem h.1 h.2]

lemma offsetAt_zero (d : Drift ℝ) : d.offsetAt 0 = d.start := by
  rw [offsetAt_of_mem d (Set.left_mem_Icc.mpr zero_le_one), mul_zero, add_zero]

lemma offsetAt_one (d : Drift ℝ) : d.offsetAt 1 = d.finish := by
  rw [offsetAt_of_mem d (Set.right_mem_Icc.mpr zero_le_one), mul_one, add_sub_cancel]

/-- What a step into a corridor does that found its bounds unchanged for the `k`-th time. -/
structure Entered (previous : Option (Lane ℝ)) (bounds : Bounds ℝ) (radius : ℝ) (anchor : Anchor)
    (k : ℕ) (d : Drift ℝ) : Prop where
  into_eq : Drift.into? previous bounds radius anchor = some d
  start_eq : ∀ lane ∈ previous, d.start = lane.offset
  finish_free : d.finish ∈ freeOffsets bounds radius (1e-9 * (k + 1 / 2))
  kept : 0 < k → d.finish = d.start
  nearest : k = 0 → anchor = .nearestEdge → (freeOffsets bounds radius 0).Nonempty →
    d.finish ∈ freeOffsets bounds radius 0 ∧
      ∀ x ∈ freeOffsets bounds radius 0, |d.finish - d.start| ≤ |x - d.start|

lemma midpoint_free_of_nonempty (h : (freeOffsets bounds radius 0).Nonempty) :
    bounds.midpoint ∈ freeOffsets bounds radius 0 := by
  rw [freeOffsets_zero, Set.nonempty_Icc] at h
  exact midpoint_free (by linarith)

/-- The first corridor has the actor in its middle, without a drift. -/
lemma entered_first (hwide : 2 * radius ≤ bounds.right - bounds.left + 1e-9) :
    Entered none bounds radius anchor 0 ⟨bounds.midpoint, bounds.midpoint⟩ where
  into_eq := rfl
  start_eq := nofun
  finish_free := midpoint_free (by norm_num; linarith)
  kept := nofun
  nearest _ _ hfree := by
    refine ⟨midpoint_free_of_nonempty hfree, fun x _ => ?_⟩
    rw [sub_self, abs_zero]
    exact abs_nonneg _

/-- Into bounds that changed an actor drifts to the middle or to the nearest free offset. -/
lemma entered_changed (hwide : 2 * radius ≤ bounds.right - bounds.left + 1e-9)
    (h : ¬lane.bounds.sameAs bounds = true) :
    ∃ d, Entered (some lane) bounds radius anchor 0 d := by
  have hstart (d : Drift ℝ) (hd : d.start = lane.offset) : ∀ l ∈ some lane, d.start = l.offset := by
    intro l hl
    rw [hd, Option.some.inj hl]
  have hmiddle : bounds.midpoint ∈ freeOffsets bounds radius (1e-9 * ((0 : ℕ) + 1 / 2)) :=
    midpoint_free (by norm_num; linarith)
  cases anchor with
  | midpoint =>
    exact ⟨⟨lane.offset, bounds.midpoint⟩, if_neg h, hstart _ rfl, hmiddle, nofun, nofun⟩
  | nearestEdge =>
    by_cases hnarrow : bounds.right - radius < bounds.left + radius
    · refine ⟨⟨lane.offset, bounds.midpoint⟩, (if_neg h).trans (if_pos hnarrow), hstart _ rfl,
        hmiddle, nofun, ?_⟩
      intro _ _ hfree
      rw [freeOffsets_zero, Set.nonempty_Icc] at hfree
      exact absurd hnarrow (not_lt.mpr hfree)
    · have hle := not_lt.mp hnarrow
      let target := Scalar.clamp (bounds.left + radius) (bounds.right - radius) lane.offset
      have htarget : target ∈ freeOffsets bounds radius 0 := by
        rw [freeOffsets_zero]
        exact clamp_mem hle lane.offset
      refine ⟨⟨lane.offset, target⟩, ?_, hstart _ rfl, freeOffsets_subset (by norm_num) htarget,
        nofun, fun _ _ _ => ⟨htarget, fun x hx => ?_⟩⟩
      · refine (if_neg h).trans ((if_neg hnarrow).trans ?_)
        rw [clamp?_of_le hle, Option.map_some]
      · rw [freeOffsets_zero] at hx
        exact clamp_nearest lane.offset hx

/-- Into bounds that are unchanged an actor takes its offset along. -/
lemma entered_unchanged (h : lane.bounds.sameAs bounds = true)
    (hlane : lane.offset ∈ freeOffsets lane.bounds radius (1e-9 * (k + 1 / 2))) :
    Entered (some lane) bounds radius anchor (k + 1) ⟨lane.offset, lane.offset⟩ where
  into_eq := if_pos h
  start_eq l hl := by rw [Option.some.inj hl]
  finish_free := by
    have hslack : (1e-9 : ℝ) * ((k + 1 : ℕ) + 1 / 2) = 1e-9 * (k + 1 / 2) + 1e-9 := by
      push_cast
      ring
    rw [hslack]
    exact free_of_sameAs h hlane
  kept _ := rfl
  nearest := nofun

end Drifts

section Runs

variable {radius : ℝ} {anchor : Anchor}

lemma laneAfter_of_entered {earlier : List (Option (Corridor ℝ))} {c : Corridor ℝ} {k : ℕ}
    {d : Drift ℝ}
    (h : Entered (laneAfter radius anchor earlier) (fitted radius c) radius anchor k d) :
    laneAfter radius anchor (some c :: earlier) = some (d.lane (fitted radius c)) := by
  rw [laneAfter, h.into_eq, Option.map_some]

/-- Every step into a corridor counts on from the one before, when that was a corridor too. -/
lemma entered_run (hradius : 0 ≤ radius) (anchor : Anchor)
    (earlier : List (Option (Corridor ℝ))) (c : Corridor ℝ) :
    ∃ d, Entered (laneAfter radius anchor earlier) (fitted radius c) radius anchor
      (unchangedSteps radius (some c :: earlier)) d := by
  have hwide (c : Corridor ℝ) := fit_width (Bounds.ofCorridor c) hradius
  induction earlier generalizing c with
  | nil => exact ⟨_, entered_first (hwide c)⟩
  | cons step earlier ih =>
    cases step with
    | none => exact ⟨_, entered_first (hwide c)⟩
    | some b =>
      obtain ⟨d, hd⟩ := ih b
      rw [laneAfter_of_entered hd, unchangedSteps]
      by_cases hsame : (fitted radius b).sameAs (fitted radius c) = true
      · rw [if_pos hsame]
        exact ⟨_, entered_unchanged hsame hd.finish_free⟩
      · rw [if_neg hsame]
        exact entered_changed (hwide c) hsame

/-- After every step into a corridor the offset is free in the fitted bounds, up to half the
tolerance and as many times the tolerance as steps in a row have found their bounds unchanged. The
fitted bounds are about the declared ones, and the drift leads from the offset before. A step that
finds its bounds unchanged drifts nowhere; any other one, toward the nearest edge, drifts the
shortest way to a free offset. -/
theorem lane_run_contained (hradius : 0 ≤ radius) (anchor : Anchor)
    (earlier : List (Option (Corridor ℝ))) (c : Corridor ℝ) :
    let declared := Bounds.ofCorridor c
    let bounds := fitted radius c
    let k := unchangedSteps radius (some c :: earlier)
    ∃ d, Drift.into? (laneAfter radius anchor earlier) bounds radius anchor = some d ∧
      laneAfter radius anchor (some c :: earlier) = some (d.lane bounds) ∧
      d.finish ∈ freeOffsets bounds radius (1e-9 * (k + 1 / 2)) ∧
      (bounds.left ≤ declared.left ∧ declared.right ≤ bounds.right ∧
        bounds.midpoint = declared.midpoint) ∧
      (∀ lane ∈ laneAfter radius anchor earlier, d.start = lane.offset) ∧
      d.offsetAt 0 = d.start ∧ d.offsetAt 1 = d.finish ∧
      (∀ fraction, d.offsetAt fraction ∈ Set.uIcc d.start d.finish) ∧
      (0 < k → d.finish = d.start) ∧
      (k = 0 → anchor = .nearestEdge → (freeOffsets bounds radius 0).Nonempty →
        d.finish ∈ freeOffsets bounds radius 0 ∧
          ∀ x ∈ freeOffsets bounds radius 0, |d.finish - d.start| ≤ |x - d.start|) := by
  intro declared bounds k
  obtain ⟨d, hd⟩ := entered_run hradius anchor earlier c
  exact ⟨d, hd.into_eq, laneAfter_of_entered hd, hd.finish_free, fit_contains declared radius,
    hd.start_eq, offsetAt_zero d, offsetAt_one d, offsetAt_between d, hd.kept, hd.nearest⟩

/-- A corridor between two offsets in centimeters. -/
def slot (left right : ℝ) : Corridor ℝ :=
  ⟨.centimeters left, .centimeters right⟩

lemma fitted_slot {left right : ℝ} (h : left ≤ right)
    (hwide : 2 * max radius 0 ≤ right - left + 1e-9) : fitted radius (slot left right) =
      ⟨left, right⟩ := by
  have hbounds : Bounds.ofCorridor (slot left right) = ⟨left, right⟩ := by
    unfold Bounds.ofCorridor Bounds.between slot
    rw [centimeters_real, centimeters_real, smaller_real, larger_real, min_eq_left h, max_eq_right h]
  unfold fitted
  rw [hbounds]
  exact fit_of_loose (isTight_real.not.mpr (not_lt.mpr hwide))

/-- From the middle of one lane the nearest free offset of the next is where an actor just keeps
its radius from the near bound. -/
theorem crossing_lanes_contained : (0 : ℝ) ≤ 35 ∧
    ∃ d, Drift.into? (laneAfter 35 .nearestEdge [some (slot 0 122)]) (fitted 35 (slot 610 732)) 35
        .nearestEdge = some d ∧ d.start = 61 ∧ d.finish = 645 := by
  have hradius : (0 : ℝ) ≤ 35 := by norm_num
  have hfirst : fitted 35 (slot 0 122) = ⟨0, 122⟩ := fitted_slot (by norm_num) (by norm_num)
  have hnext : fitted 35 (slot 610 732) = ⟨610, 732⟩ := fitted_slot (by norm_num) (by norm_num)
  have hlane : laneAfter 35 .nearestEdge [some (slot 0 122)] = some ⟨⟨0, 122⟩, 61⟩ := by
    have hmiddle : (⟨0, 122⟩ : Bounds ℝ).midpoint = 61 := by
      rw [midpoint_real]
      norm_num
    simp only [laneAfter, hfirst, Drift.into?, hmiddle, Option.map_some, Drift.lane]
  have hanew : unchangedSteps (35 : ℝ) [some (slot 610 732), some (slot 0 122)] = 0 := by
    refine if_neg ?_
    rw [hfirst, hnext, sameAs_real]
    norm_num [abs_of_neg]
  have hfree : freeOffsets ⟨610, 732⟩ 35 0 = Set.Icc (645 : ℝ) 697 := by
    rw [freeOffsets_zero]
    norm_num
  obtain ⟨d, hinto, -, -, -, hstart, -, -, -, -, hnearest⟩ :=
    lane_run_contained hradius .nearestEdge [some (slot 0 122)] (slot 610 732)
  rw [hnext, hfree] at hnearest
  have hfrom : d.start = 61 := hstart _ hlane
  obtain ⟨hmem, hshortest⟩ := hnearest hanew rfl (Set.nonempty_Icc.mpr (by norm_num))
  have hedge := hshortest 645 (Set.left_mem_Icc.mpr (by norm_num))
  refine ⟨hradius, d, hinto, hfrom, le_antisymm ?_ hmem.1⟩
  rw [hfrom, abs_of_nonneg (by linarith [hmem.1]), abs_of_nonneg (by norm_num)] at hedge
  linarith

/-- Bounds that come closer by less than the tolerance count as unchanged, and leave the actor
beyond a free interval that is not empty. -/
theorem unchanged_lane_leaves_free_offsets :
    Drift.into? (laneAfter 0 .nearestEdge [some (slot (-100) 2e-9), some (slot 100 200)])
        (fitted 0 (slot (-100) 1.5e-9)) 0 .nearestEdge = some ⟨2e-9, 2e-9⟩ ∧
      (freeOffsets (fitted 0 (slot (-100) 1.5e-9)) 0 0).Nonempty ∧
      2e-9 ∉ freeOffsets (fitted 0 (slot (-100) 1.5e-9)) 0 0 := by
  have hfirst : fitted 0 (slot 100 200) = ⟨100, 200⟩ := fitted_slot (by norm_num) (by norm_num)
  have hnext : fitted 0 (slot (-100) 2e-9) = ⟨-100, 2e-9⟩ :=
    fitted_slot (by norm_num) (by norm_num)
  have hlast : fitted 0 (slot (-100) 1.5e-9) = ⟨-100, 1.5e-9⟩ :=
    fitted_slot (by norm_num) (by norm_num)
  have hedge : Drift.into? (some ⟨⟨100, 200⟩, 150⟩) ⟨-100, 2e-9⟩ (0 : ℝ) .nearestEdge =
      some ⟨150, 2e-9⟩ := by
    have hchanged : ¬(⟨100, 200⟩ : Bounds ℝ).sameAs ⟨-100, 2e-9⟩ = true := by
      rw [sameAs_real]
      norm_num
    have hclamp : Scalar.clamp (-100) 2e-9 (150 : ℝ) = 2e-9 := by
      norm_num [Scalar.clamp]
    refine (if_neg hchanged).trans ((if_neg (by norm_num)).trans ?_)
    simp only [add_zero, sub_zero, clamp?_of_le (show (-100 : ℝ) ≤ 2e-9 by norm_num),
      Option.map_some, hclamp]
  have hlane : laneAfter 0 .nearestEdge [some (slot (-100) 2e-9), some (slot 100 200)] =
      some ⟨⟨-100, 2e-9⟩, 2e-9⟩ := by
    have hmiddle : (⟨100, 200⟩ : Bounds ℝ).midpoint = 150 := by
      rw [midpoint_real]
      norm_num
    have hstart : laneAfter 0 .nearestEdge [some (slot 100 200)] = some ⟨⟨100, 200⟩, 150⟩ := by
      simp only [laneAfter, hfirst, Drift.into?, hmiddle, Option.map_some, Drift.lane]
    rw [laneAfter, hstart, hnext, hedge, Option.map_some, Drift.lane]
  have hsame : (⟨-100, 2e-9⟩ : Bounds ℝ).sameAs ⟨-100, 1.5e-9⟩ = true := by
    rw [sameAs_real]
    norm_num [abs_of_pos]
  rw [hlane, hlast, freeOffsets_zero]
  refine ⟨if_pos hsame, ⟨0, ?_⟩, ?_⟩
  · norm_num
  · norm_num

end Runs

section Walks

variable {m : Movie ℝ} {o : PlanOptions ℝ} {s : Session ℝ} {r r' : Run ℝ} {anchor : Anchor}
  {findings : List (Finding ℝ)}

/-- The lane of a run comes about by steps into corridors and out of them. -/
def Laned (anchor : Anchor) (r : Run ℝ) : Prop :=
  ∀ l ∈ r.lane, ∃ steps, laneAfter r.actor.radius.internal anchor steps = some l.2

lemma Laned.of_eq (h : Laned anchor r) (hactor : r'.actor = r.actor) (hlane : r'.lane = r.lane) :
    Laned anchor r' := by
  unfold Laned
  rw [hactor, hlane]
  exact h

/-- Where the heading is a new one, the steps begin anew. -/
lemma enter_laneAfter (h : Laned anchor r) {heading : ℝ} {corridor : Corridor ℝ} {drift : Drift ℝ}
    {lane : Lane ℝ} (henter : r.enter anchor heading corridor = .ok (drift, lane, findings)) :
    ∃ steps, laneAfter r.actor.radius.internal anchor steps = some lane := by
  unfold Run.enter at henter
  dsimp only at henter
  split at henter
  next drift' hinto =>
    cases henter
    have hkept : ∃ steps, laneAfter r.actor.radius.internal anchor steps =
        (r.lane.filter fun l => Scalar.abs (shortestYaw l.1 heading) < 1e-6).map (·.2) := by
      cases hfilter : r.lane.filter fun l => Scalar.abs (shortestYaw l.1 heading) < 1e-6 with
      | none => exact ⟨[], rfl⟩
      | some l => exact h l (Option.mem_filter_iff.mp hfilter).1
    obtain ⟨steps, hsteps⟩ := hkept
    refine ⟨some corridor :: steps, ?_⟩
    rw [laneAfter, hsteps]
    exact congrArg (Option.map _) hinto
  next => cases henter

/-- A move leaves its actor in no lane, or in that of the corridor it enters. -/
lemma move_lane_ok {rate : FrameRate ℝ} {index : ℕ} {c : MoveCommand ℝ}
    (h : r.move rate anchor index c = .ok (r', findings)) : r'.lane = none ∨
      ∃ heading corridor drift lane found, r.enter anchor heading corridor =
        .ok (drift, lane, found) ∧ r'.lane = some (heading, lane) := by
  unfold Run.move at h
  obtain ⟨motion, -, h⟩ := bind_eq_ok.mp h
  cases hc : c.corridor with
  | none =>
    simp only [hc] at h
    cases h
    exact Or.inl rfl
  | some corridor =>
    simp only [hc] at h
    obtain ⟨⟨drift, lane, found⟩, henter, h⟩ := bind_eq_ok.mp h
    cases h
    exact Or.inr ⟨_, corridor, drift, lane, found, henter, rfl⟩

lemma move_laned {rate : FrameRate ℝ} {index : ℕ} {c : MoveCommand ℝ} (h : Laned anchor r)
    (hmove : r.move rate anchor index c = .ok (r', findings)) : Laned anchor r' := by
  have hactor : r'.actor = r.actor := by
    obtain ⟨motion, drift, lane, -, rfl⟩ := move_ok hmove
    exact play_actor _ _ _
  intro l hl
  rw [hactor]
  rcases move_lane_ok hmove with hnone | ⟨heading, corridor, drift, lane, found, henter, hlane⟩
  · rw [hnone] at hl
    cases hl
  · rw [hlane] at hl
    cases hl
    exact enter_laneAfter h henter

lemma follow_laned {rate : FrameRate ℝ} {index : ℕ} {c : FollowCommand ℝ} {curve : Curve ℝ}
    (hfollow : r.follow rate index c curve = .ok (r', findings)) : Laned anchor r' := by
  obtain ⟨range, motion, origin, sign, -, rfl⟩ := follow_ok hfollow
  exact nofun

lemma holdUntil_laned (h : Laned anchor r) (rate : FrameRate ℝ) (moment : ℝ)
    (clip : Option (Clip ℝ)) : Laned anchor (r.holdUntil rate moment clip) := by
  unfold Run.holdUntil
  split
  · exact h
  · exact h.of_eq (play_actor _ _ _) (play_lane _ _ _)

lemma stay_laned (h : Laned anchor r) (rate : FrameRate ℝ) (index : ℕ) (c : StayCommand ℝ) :
    Laned anchor (r.stay rate index c) := by
  unfold Run.stay
  cases c.length with
  | lasting span => exact h.of_eq (play_actor _ _ _) (play_lane _ _ _)
  | waiting moment => exact holdUntil_laned h rate moment.internal c.animation
  | tillEnd => exact h

lemma obey_laned {index : ℕ} {c : Command ℝ} (h : Laned s.options.anchor r)
    (hobey : obey s index r c = .ok (r', findings)) : Laned s.options.anchor r' := by
  cases c with
  | move c => exact move_laned h hobey
  | face c =>
    obtain ⟨yaw?, -, rfl⟩ := obey_face_ok hobey
    exact h.of_eq (play_actor _ _ _) (play_lane _ _ _)
  | stay c =>
    cases hobey
    exact stay_laned h s.movie.fps index c
  | follow c =>
    obtain ⟨curve, -, hobey⟩ := bind_eq_ok.mp hobey
    exact follow_laned hobey

/-- What a script makes a session do keeps every run on lanes that come about by steps. -/
lemma Performed.laned {st : Stage ℝ} {step : Step ℝ}
    (hst : st.session.options = o ∧ ∀ r ∈ st.session.runs, Laned o.anchor r)
    (h : Performed st step s) : s.options = o ∧ ∀ r ∈ s.runs, Laned o.anchor r := by
  obtain ⟨rfl, hruns⟩ := hst
  cases h with
  | gather => exact ⟨rfl, hruns⟩
  | call actor => exact ⟨rfl, hruns⟩
  | joinCamera hc => exact ⟨rfl, hruns⟩
  | cues hc hname => exact ⟨rfl, hruns⟩
  | joinActor hr =>
    refine ⟨rfl, fun q hq => ?_⟩
    rcases mem_setRun hq with rfl | ⟨hq, -⟩
    · exact holdUntil_laned (hruns _ hr) _ _ _
    · exact hruns q hq
  | @command r r' c findings hr hparked hobey =>
    refine ⟨rfl, fun q hq => ?_⟩
    have hcounted : Laned st.session.options.anchor { r with nextIndex := r.nextIndex + 1 } :=
      (hruns r hr).of_eq rfl rfl
    rcases mem_setRun hq with rfl | ⟨hq, -⟩
    · exact obey_laned hcounted hobey
    · exact hruns q hq

/-- When a script is walked, every actor in a corridor has its offset free there, up to the slack
of the steps that found their bounds unchanged. -/
theorem walk_lane_contained (h : walk o m = .ok s) (hr : r ∈ s.runs)
    (hradius : 0 ≤ r.actor.radius.internal) {l : ℝ × Lane ℝ} (hlane : r.lane = some l) :
    ∃ k : ℕ, l.2.offset ∈ freeOffsets l.2.bounds r.actor.radius.internal (1e-9 * (k + 1 / 2)) := by
  let P : List (Step ℝ) → Session ℝ → Prop := fun _ s =>
    s.options = o ∧ ∀ r ∈ s.runs, Laned o.anchor r
  have hstart : P [] (Session.start m o) := by
    refine ⟨rfl, fun q hq => ?_⟩
    obtain ⟨a, -, rfl⟩ := List.mem_map.mp hq
    exact nofun
  have hwalked : P (scriptSteps m) s :=
    walk_induction hstart (fun _ _ _ _ hst hstep => hstep.laned hst) h
  obtain ⟨steps, hsteps⟩ := hwalked.2 r hr l hlane
  match steps with
  | some c :: earlier =>
    obtain ⟨d, hd⟩ := entered_run hradius o.anchor earlier c
    rw [laneAfter_of_entered hd, Option.some.injEq] at hsteps
    rw [← hsteps]
    exact ⟨_, hd.finish_free⟩

end Walks

end Stagecraft.Proofs
