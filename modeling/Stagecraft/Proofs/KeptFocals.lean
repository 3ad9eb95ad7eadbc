import Stagecraft.Proofs.ReplayedCues

/-!
# Kept focal lengths

A camera shows the focal length that a cue sets until a cue sets another one or begins to zoom.
When tracking stops, it keeps what it showed on the frame before. That is the length in effect,
unless that length was set on the very frame where tracking stops.
-/

namespace Stagecraft.Proofs

section Settings

variable {K : Type} {α : Type} {sets : Cue K → Option α} {a initial : α}
  {earlier later cues : List (Cue K)} {q : Cue K}

/-- What comes before a cue that sets something does not matter for it. -/
lemma lastSetting_split (hq : sets q = some a) :
    lastSetting sets initial (earlier ++ q :: later) = lastSetting sets a later := by
  induction later using List.reverseRecOn with
  | nil =>
    rw [lastSetting_append, hq]
    rfl
  | append_singleton later p ih =>
    rw [← List.cons_append, ← List.append_assoc, lastSetting_append, lastSetting_append, ih]

/-- What some cues set last is set by one of them, if it is not what held before. -/
lemma lastSetting_mem (sets : Cue K → Option α) (initial : α) (cues : List (Cue K)) :
    (lastSetting sets initial cues = initial ∧ ∀ p ∈ cues, sets p = none) ∨
      ∃ p ∈ cues, sets p = some (lastSetting sets initial cues) := by
  induction cues using List.reverseRecOn with
  | nil => exact Or.inl ⟨rfl, fun p hp => absurd hp List.not_mem_nil⟩
  | append_singleton cues p ih =>
    rw [lastSetting_append]
    cases hp : sets p with
    | some b => exact Or.inr ⟨p, by simp, hp⟩
    | none =>
      rcases ih with ⟨hkept, hnone⟩ | ⟨p', hp', hsets⟩
      · refine Or.inl ⟨hkept, fun p' hp' => ?_⟩
        rcases List.mem_append.mp hp' with hp' | hp'
        · exact hnone p' hp'
        · rw [List.mem_singleton.mp hp', hp]
      · exact Or.inr ⟨p', List.mem_append_left _ hp', hsets⟩

end Settings

section Lenses

variable {K : Type}

/-- A cue after which the focal length is another one: it is set, or a zoom begins. -/
def takesLens (q : Cue K) : Bool :=
  match q.command with
  | .setFocalLength _ => true
  | .autoZoom _ _ _ _ => true
  | _ => false

/-- The focal length that a camera shows at a frame. -/
def focalAt (settings : SettingsTrack K) (frame : ℕ) : Option K :=
  settings.keys[frame]?.map SettingsKey.focalLength

lemma focalBefore_succ {c : Camera K} {settings : SettingsTrack K} {f : ℕ} {mm : K}
    (h : focalAt settings f = some mm) : focalBefore c settings (f + 1) = mm := by
  unfold focalAt at h
  rw [focalBefore, h, Option.getD_some]

lemma setsZoom_none {c : Camera K} {o : PlanOptions K} {q : Cue K} (h : takesLens q = false)
    {z : Option (String × ZoomConfig K)} (hz : setsZoom c o q = some z) : z = none := by
  unfold takesLens at h
  unfold setsZoom at hz
  cases hq : q.command with
  | autoZoom => simp [hq] at h
  | setFocalLength => simp [hq] at h
  | stopTracking =>
    simp only [hq, Option.some.injEq] at hz
    exact hz.symm
  | lookAt | autoFocus | hold => simp [hq] at hz

lemma lastSetting_zoom {c : Camera K} {o : PlanOptions K} {cues : List (Cue K)}
    (h : ∀ p ∈ cues, takesLens p = false) : lastSetting (setsZoom c o) none cues = none := by
  rcases lastSetting_mem (setsZoom c o) none cues with ⟨hnone, -⟩ | ⟨p, hp, hz⟩
  · exact hnone
  · exact setsZoom_none (h p hp) hz

variable [Scalar K] {rate : FrameRate K} {o : PlanOptions K} {sheet : CueSheet K}
  {subject? : ℕ → String → Option (Subject K)} {transform : TransformTrack K}
  {settings : SettingsTrack K} {earlier later : List (Cue K)} {q : Cue K} {mm : K} {last f : ℕ}

/-- A cue that stops tracking, at a frame. -/
def stopsAt (rate : FrameRate K) (frame : ℕ) (q : Cue K) : Bool :=
  match q.command with
  | .stopTracking => decide (rate.frameAt q.time = frame)
  | _ => false

lemma stopsAt_eq_true_iff {frame : ℕ} :
    stopsAt rate frame q = true ↔ q.command = .stopTracking ∧ rate.frameAt q.time = frame := by
  unfold stopsAt
  cases hq : q.command with
  | stopTracking => simp
  | lookAt | autoFocus | autoZoom | setFocalLength | hold => simp

lemma setsFocal_stop {before : ℕ → K} (h : q.command = .stopTracking) :
    setsFocal rate before q = some (before (rate.frameAt q.time)) := by
  unfold setsFocal
  rw [h]

/-- A cue that does not take the lens sets a focal length only when it stops tracking. -/
lemma stops_of_setsFocal {before : ℕ → K} (h : takesLens q = false) {x : K}
    (hx : setsFocal rate before q = some x) : q.command = .stopTracking := by
  unfold takesLens at h
  unfold setsFocal at hx
  cases hq : q.command with
  | setFocalLength => simp [hq] at h
  | autoZoom => simp [hq] at h
  | stopTracking => rfl
  | lookAt | autoFocus | hold => simp [hq] at hx

/-- After cues that do not take the lens, the focal length is the one before them, or what the
camera showed when one of them stopped tracking. -/
lemma lastSetting_focal {before : ℕ → K} {cues : List (Cue K)}
    (h : ∀ p ∈ cues, takesLens p = false) :
    (lastSetting (setsFocal rate before) mm cues = mm ∧ ∀ p ∈ cues, p.command ≠ .stopTracking) ∨
      ∃ p ∈ cues, p.command = .stopTracking ∧
        lastSetting (setsFocal rate before) mm cues = before (rate.frameAt p.time) := by
  rcases lastSetting_mem (setsFocal rate before) mm cues with ⟨hkept, hnone⟩ | ⟨p, hp, hsets⟩
  · refine Or.inl ⟨hkept, fun p hp hstop => ?_⟩
    have hsets := hnone p hp
    rw [setsFocal_stop hstop] at hsets
    cases hsets
  · have hstop := stops_of_setsFocal (h p hp) hsets
    rw [setsFocal_stop hstop, Option.some.injEq] at hsets
    exact Or.inr ⟨p, hp, hstop, hsets.symm⟩

/-- Without a zoom the shot has the focal length of the framing. -/
lemma shot?_focalLength {framing : Framing K} {c : Camera K} {lookup : String → Option (Subject K)}
    {shot : Shot K} (hzoom : framing.zoom = none) (h : framing.shot? c lookup = some shot) :
    shot.focalLength = framing.focalLength := by
  unfold Framing.shot? at h
  rw [hzoom] at h
  cases h
  rfl

/-- The focal length that a cue sets, or the one on the frame before where tracking stops by a
later cue of the same frame. -/
def heldFocal (rate : FrameRate K) (sheet : CueSheet K) (settings : SettingsTrack K) (q : Cue K)
    (mm : K) (later : List (Cue K)) : K :=
  if later.any (stopsAt rate (rate.frameAt q.time)) then
    focalBefore sheet.camera settings (rate.frameAt q.time)
  else mm

lemma InFrameOrder.split (h : InFrameOrder rate sheet)
    (hcues : sheet.cues = earlier ++ q :: later) :
    ∀ p ∈ later, rate.frameAt q.time ≤ rate.frameAt p.time := by
  unfold InFrameOrder at h
  rw [hcues] at h
  exact (List.pairwise_cons.mp (List.pairwise_append.mp h).2.1).1

/-- The framing after a length is set, while no cue takes the lens: no zoom is in effect, and the
focal length is the one set or what the camera showed when it stopped tracking. -/
lemma framingAt_held (o : PlanOptions K) (settings : SettingsTrack K)
    (hcues : sheet.cues = earlier ++ q :: later)
    (hq : q.command = .setFocalLength mm) (hdue : rate.frameAt q.time ≤ f)
    (hlens : ∀ p ∈ later, takesLens p = true → f < rate.frameAt p.time) :
    (framingAt rate o sheet settings f).zoom = none ∧
      (((framingAt rate o sheet settings f).focalLength = mm ∧
          ∀ p ∈ later, rate.frameAt p.time ≤ f → p.command ≠ .stopTracking) ∨
        ∃ p ∈ later, rate.frameAt p.time ≤ f ∧ p.command = .stopTracking ∧
          (framingAt rate o sheet settings f).focalLength =
            focalBefore sheet.camera settings (rate.frameAt p.time)) := by
  have hkeeps : ∀ p ∈ later.filter (Shooting.isDue rate f), takesLens p = false := by
    intro p hp
    obtain ⟨hp, hpdue⟩ := List.mem_filter.mp hp
    by_contra htakes
    exact absurd (of_decide_eq_true hpdue) (not_le.mpr (hlens p hp (eq_true_of_ne_false htakes)))
  have hqdue : Shooting.isDue rate f q = true := decide_eq_true hdue
  have hzoom : setsZoom sheet.camera o q = some none := by
    unfold setsZoom
    rw [hq]
  have hfocal : setsFocal rate (focalBefore sheet.camera settings) q = some mm := by
    unfold setsFocal
    rw [hq]
  unfold framingAt replayed
  rw [hcues, List.filter_append, List.filter_cons_of_pos hqdue]
  simp only [lastSetting_split hzoom, lastSetting_split hfocal]
  refine ⟨lastSetting_zoom hkeeps, ?_⟩
  rcases lastSetting_focal hkeeps with ⟨hkept, hnone⟩ | ⟨p, hp, hstop, hbefore⟩
  · refine Or.inl ⟨hkept, fun p hp hpdue => hnone p ?_⟩
    exact List.mem_filter.mpr ⟨hp, decide_eq_true hpdue⟩
  · obtain ⟨hp, hpdue⟩ := List.mem_filter.mp hp
    exact Or.inr ⟨p, hp, of_decide_eq_true hpdue, hstop, hbefore⟩

/-- A focal length is held from the frame where it is set. Where tracking stops on a later frame,
the frame before already shows what is held. -/
theorem focalAt_held (horder : InFrameOrder rate sheet)
    (hreplayed : ∀ f ≤ last, ReplayedAt rate o subject? sheet transform settings f)
    (hcues : sheet.cues = earlier ++ q :: later) (hq : q.command = .setFocalLength mm)
    (hdue : rate.frameAt q.time ≤ f) (hlast : f ≤ last)
    (hlens : ∀ p ∈ later, takesLens p = true → f < rate.frameAt p.time) :
    focalAt settings f = some (heldFocal rate sheet settings q mm later) := by
  induction f using Nat.strong_induction_on with
  | h f ih =>
    obtain ⟨shot, hshot, -, hkey⟩ := (hreplayed f hlast).shown
    obtain ⟨hzoom, hfocal⟩ := framingAt_held o settings hcues hq hdue hlens
    have hshown : focalAt settings f = some (framingAt rate o sheet settings f).focalLength := by
      unfold focalAt
      rw [hkey, Option.map_some, shot?_focalLength hzoom hshot]
    rw [hshown]
    rcases hfocal with ⟨hmm, hnone⟩ | ⟨p, hp, hpdue, hstop, hbefore⟩
    · have hany : ¬later.any (stopsAt rate (rate.frameAt q.time)) = true := by
        rw [List.any_eq_true]
        rintro ⟨p, hp, hstops⟩
        obtain ⟨hstop, hat⟩ := stopsAt_eq_true_iff.mp hstops
        exact hnone p hp (hat ▸ hdue) hstop
      rw [hmm, heldFocal, if_neg hany]
    · rw [hbefore]
      rcases (horder.split hcues p hp).eq_or_lt with heq | hlt
      · have hany : later.any (stopsAt rate (rate.frameAt q.time)) = true :=
          List.any_eq_true.mpr ⟨p, hp, stopsAt_eq_true_iff.mpr ⟨hstop, heq.symm⟩⟩
        rw [heldFocal, if_pos hany, heq]
      · -- The stop is on a later frame, and the frame before it shows what is held.
        obtain ⟨g, hg⟩ := Nat.exists_eq_add_of_lt hlt
        have hheld := ih (rate.frameAt q.time + g) (by omega) (by omega) (by omega)
          fun p hp htakes => lt_of_le_of_lt (by omega) (hlens p hp htakes)
        rw [hg, focalBefore_succ hheld]

end Lenses

section Plans

variable {m : Movie ℝ} {o : PlanOptions ℝ} {reel : Reel ℝ}

/-- While no later cue takes the lens, a camera shows what a cue sets, exactly unless a later cue
of the same frame stops tracking and the frame before has another focal length. -/
structure HoldsFocal (rate : FrameRate ℝ) (sheet : CueSheet ℝ) (settings : SettingsTrack ℝ)
    (q : Cue ℝ) (mm : ℝ) (later : List (Cue ℝ)) (frame : ℕ) : Prop where
  shown : focalAt settings frame = some (heldFocal rate sheet settings q mm later)
  kept_iff : focalAt settings frame = some mm ↔
    (later.any (stopsAt rate (rate.frameAt q.time)) = true →
      focalBefore sheet.camera settings (rate.frameAt q.time) = mm)

lemma holdsFocal_of_shown {rate : FrameRate ℝ} {sheet : CueSheet ℝ} {settings : SettingsTrack ℝ}
    {q : Cue ℝ} {mm : ℝ} {later : List (Cue ℝ)} {frame : ℕ}
    (h : focalAt settings frame = some (heldFocal rate sheet settings q mm later)) :
    HoldsFocal rate sheet settings q mm later frame := by
  refine ⟨h, ?_⟩
  rw [h, Option.some.injEq, heldFocal]
  by_cases hstops : later.any (stopsAt rate (rate.frameAt q.time)) = true
  · rw [if_pos hstops]
    exact ⟨fun hmm _ => hmm, fun hmm => hmm hstops⟩
  · rw [if_neg hstops]
    exact ⟨fun _ h => absurd h hstops, fun _ => rfl⟩

/-- A camera that holds every focal length its cues set. -/
def HoldsFocals (rate : FrameRate ℝ) (last : ℕ) (sheet : CueSheet ℝ) (settings : SettingsTrack ℝ) :
    Prop :=
  ∀ earlier q later mm frame, sheet.cues = earlier ++ q :: later →
    q.command = .setFocalLength mm → rate.frameAt q.time ≤ frame → frame ≤ last →
    (∀ p ∈ later, takesLens p = true → frame < rate.frameAt p.time) →
    HoldsFocal rate sheet settings q mm later frame

lemma holdsFocals_of_shot (hrate : 0 < m.fps.fps) {subject? : ℕ → String → Option (Subject ℝ)}
    {commands : List (CameraCommand ℝ)} {sheet : CueSheet ℝ} {c : CameraReel ℝ} {last : ℕ}
    {findings : List (ℕ × Finding ℝ)} (hcues : CuesInOrder commands sheet)
    (hshoot : sheet.shoot? m.fps o subject? last = some (c, findings)) :
    HoldsFocals m.fps last sheet c.settings := by
  have horder : InFrameOrder m.fps sheet :=
    hcues.ordered.imp fun hpq => frameAt_mono hrate hpq
  intro earlier q later mm frame hsplit hq hdue hlast hlens
  exact holdsFocal_of_shown
    (focalAt_held horder (shoot?_replayed horder hshoot) hsplit hq hdue hlast hlens)

/-- Every camera of a plan holds the focal lengths that its cues set. One is lost exactly where
tracking stops on the frame it was set on. -/
theorem plan_holds_focals (h : m.plan o = .ok reel) :
    ∃ s, played o m = .ok (reel.lastFrame, s) ∧ s.sheets.map CueSheet.camera = m.cameras ∧
      List.Forall₂ (fun sheet c => c.camera = sheet.camera ∧
        CuesInOrder (cueCommands m sheet.camera.name) sheet ∧
        (∀ q ∈ sheet.cues, m.fps.frameAt q.time ≤ reel.lastFrame) ∧
        HoldsFocals m.fps reel.lastFrame sheet c.settings) s.sheets reel.cameras := by
  have hv := valid_of_issues_nil (issues_nil_of_plan h)
  obtain ⟨s, hplayed, hcameras, hshot⟩ := plan_shot h
  refine ⟨s, hplayed, hcameras, hshot.imp ?_⟩
  rintro sheet c ⟨hcamera, hcues, hlast, findings, hshoot⟩
  exact ⟨hcamera, hcues, hlast, holdsFocals_of_shot hv.rate_pos hcues hshoot⟩

end Plans

section Refitting

variable {o : PlanOptions ℝ}

/-- A camera is given another lens and then told to stop tracking, all at once. -/
noncomputable def refit : Movie ℝ :=
  { Movie.empty "refit" 1 with
    cameras := [Camera.named "C"]
    script := [.camera ⟨"C", [.setFocalLength 85, .stopTracking]⟩] }

lemma refit_issues : refit.issues = [] := by
  simp only [Movie.issues, refit, Movie.empty, List.flatMap_cons, List.flatMap_nil]
  simp [FrameRate.isValid, Movie.declared, Movie.nameIssues, Movie.groupIssues,
    Movie.scriptIssues, Movie.sequences, Block.flatten, Movie.sequenceIssues, Movie.nameIssue?,
    Movie.kind?, isBlankText, isBlankChar, List.lookup_cons,
    Movie.cameraIssues, Camera.named, Movie.cameraCommandIssues, Movie.cameraCommandCount,
    CameraCommand.subject?]

/-- The sheet of the camera, with both cues at the start. -/
noncomputable def refitSheet : CueSheet ℝ :=
  ⟨Camera.named "C", 0, 2, [⟨0, 0, .setFocalLength 85⟩, ⟨0, 1, .stopTracking⟩]⟩

lemma refit_played : ∃ s, played o refit = .ok (0, s) ∧ s.sheets = [refitSheet] := by
  let s₀ := Session.start refit o
  let C : CueSheet ℝ :=
    ((CueSheet.blank (Camera.named "C")).add (.setFocalLength 85)).add .stopTracking
  have hv := valid_of_issues_nil refit_issues
  have hC : C = refitSheet := by
    simp [C, refitSheet, CueSheet.blank, CueSheet.add]
  have hwalk : walk o refit = .ok (s₀.setSheet C) := rfl
  have hfollows := walk_follows hv hwalk
  have hruns : (s₀.setSheet C).runs = [] := rfl
  have hsheet : (s₀.setSheet C).sheets = [refitSheet] := by
    rw [← hC]
    rfl
  have hextent : (s₀.setSheet C).extent = 0 := by
    rw [extent_eq hv hfollows, hruns, hsheet]
    simp [refitSheet, frameAt_zero]
  have hfree : ∀ r ∈ (s₀.setSheet C).runs, r.parked = none := by
    rw [hruns]
    exact List.forall_mem_nil _
  obtain ⟨s, hplayed, -, hsheets⟩ := played_of_walk hv hwalk rfl hfree
  rw [hextent] at hplayed
  exact ⟨s, hplayed, hsheets.trans hsheet⟩

lemma refit_plan : ∃ reel, refit.plan o = .ok reel ∧ reel.lastFrame = 0 := by
  obtain ⟨s, hplayed, hsheets⟩ := refit_played (o := o)
  apply exists_plan refit_issues hplayed
  intro c hc hnone
  rw [hsheets, List.mem_singleton] at hc
  obtain ⟨q, hmem, subject, occupancy, minFocal, maxFocal, hzoom⟩ :=
    exists_zoom_of_shoot?_eq_none hnone
  rw [hc, refitSheet] at hmem
  rcases List.mem_pair.mp hmem with rfl | rfl
  · cases hzoom
  · cases hzoom

theorem refit_holds_focals : ∃ reel, refit.plan Settings.standard.options = .ok reel ∧
    ∃ s, played Settings.standard.options refit = .ok (reel.lastFrame, s) ∧
      s.sheets.map CueSheet.camera = refit.cameras ∧
      List.Forall₂ (fun sheet c => c.camera = sheet.camera ∧
        CuesInOrder (cueCommands refit sheet.camera.name) sheet ∧
        (∀ q ∈ sheet.cues, refit.fps.frameAt q.time ≤ reel.lastFrame) ∧
        HoldsFocals refit.fps reel.lastFrame sheet c.settings) s.sheets reel.cameras := by
  obtain ⟨reel, hplan, -⟩ := refit_plan (o := Settings.standard.options)
  exact ⟨reel, hplan, plan_holds_focals hplan⟩

/-- The camera shows its own focal length, and never the one that was set. -/
theorem refit_loses_focal : ∃ reel, refit.plan Settings.standard.options = .ok reel ∧
    reel.lastFrame = 0 ∧ ∃ c ∈ reel.cameras,
      cueCommands refit c.camera.name = [.setFocalLength 85, .stopTracking] ∧
      focalAt c.settings 0 = some 35 := by
  obtain ⟨reel, hplan, hlast⟩ := refit_plan (o := Settings.standard.options)
  obtain ⟨s, hplayed, -, hshot⟩ := plan_shot hplan
  obtain ⟨s', hplayed', hsheets⟩ := refit_played (o := Settings.standard.options)
  rw [hlast, hplayed'] at hplayed
  cases hplayed
  obtain ⟨c, hc, hcamera, hcues, -, findings, hshoot⟩ := mem_of_forall₂_left hshot
    (show refitSheet ∈ s.sheets by rw [hsheets]; exact List.mem_singleton_self _)
  have hrate : 0 < refit.fps.fps := (valid_of_issues_nil refit_issues).rate_pos
  have hstart : refit.fps.frameAt 0 = 0 := frameAt_zero
  have hholds := holdsFocals_of_shot hrate hcues hshoot [] ⟨0, 0, .setFocalLength 85⟩
    [⟨0, 1, .stopTracking⟩] 85 0 rfl rfl hstart.le (Nat.zero_le _) (by simp [takesLens])
  refine ⟨reel, hplan, hlast, c, hc, by rw [hcamera]; rfl, ?_⟩
  rw [hholds.shown, heldFocal, if_pos (by simp [stopsAt]), hstart]
  exact congrArg some (Nat.cast_ofNat : ((35 : ℕ) : ℝ) = 35)

end Refitting

end Stagecraft.Proofs
