import Stagecraft.Proofs.CommandNumbers
import Stagecraft.Proofs.ReplayedCues
import Stagecraft.Proofs.ZoomedFocals

/-!
# Accounts of zooms

A frame on which the ideal focal length of the zoom in effect is not between its bounds is charged
to the command that asked for the zoom. Cues may begin and end any number of zooms on one frame. A
zoom that has ended does not return, so what is reported of its command then is all that is ever
reported of it: the frames charged to it, in one warning, and nothing where there are none.
-/

namespace Stagecraft

/-- Graded numbers of which none equals a greater one. -/
class Scalar.Separated (K : Type) [Scalar K] : Prop extends Scalar.Graded K where
  not_beq_of_lt {x y : K} (h : x < y) : (x == y) = false ∧ (y == x) = false

/-- A focal length is not between the bounds of a zoom. -/
def ZoomConfig.excludes {K : Type} [Scalar K] (z : ZoomConfig K) (x : K) : Bool :=
  !(decide (z.minFocal ≤ x) && decide (x ≤ z.maxFocal))

end Stagecraft

namespace Stagecraft.Proofs

section Numbers

variable {x y : Float}

lemma float_not_beq_of_lt (h : x < y) : (x == y) = false ∧ (y == x) = false := by
  have hlt := float_lt_iff.mp h
  obtain ⟨hx, hy⟩ := lt_defined hlt
  obtain ⟨order, hxy, hyx⟩ := compare_defined hx hy
  have horder : order = .lt := by
    unfold Float.Model.UnpackedFloat.lt at hlt
    rw [hxy] at hlt
    cases order with
    | lt => rfl
    | eq | gt => cases hlt
  have hbeq (u v : Float) :
      (u == v) = (u.toModel.unpack.compare v.toModel.unpack == some .eq) := rfl
  rw [hbeq, hbeq, hxy, hyx, horder]
  exact ⟨rfl, rfl⟩

instance floatSeparated : Scalar.Separated Float where
  not_beq_of_lt := float_not_beq_of_lt

instance realSeparated : Scalar.Separated ℝ where
  not_beq_of_lt h := ⟨decide_eq_false h.ne, decide_eq_false h.ne'⟩

end Numbers

section Clamping

variable {K : Type} [Scalar K] [Scalar.Separated K] {lo hi : K}

/-- Only a number between the bounds is as it was when it is brought between them. -/
lemma clamp_beq (h : lo ≤ hi) (x : K) :
    (Scalar.clamp lo hi x == x) = (decide (lo ≤ x) && decide (x ≤ hi)) := by
  obtain ⟨hlo, hhi⟩ := Scalar.Graded.defined_of_le h
  by_cases hx : Scalar.Defined x
  · unfold Scalar.clamp
    by_cases hbelow : x < lo
    · have hout : ¬lo ≤ x := (Scalar.Ordered.not_le hlo hx).mpr hbelow
      rw [if_pos hbelow, (Scalar.Separated.not_beq_of_lt hbelow).2, decide_eq_false hout,
        Bool.false_and]
    · have hin : lo ≤ x := (Scalar.Ordered.not_lt hx hlo).mp hbelow
      rw [if_neg hbelow, decide_eq_true hin, Bool.true_and]
      by_cases habove : hi < x
      · have hout : ¬x ≤ hi := (Scalar.Ordered.not_le hx hhi).mpr habove
        rw [if_pos habove, (Scalar.Separated.not_beq_of_lt habove).1, decide_eq_false hout]
      · have hin : x ≤ hi := (Scalar.Ordered.not_lt hhi hx).mp habove
        rw [if_neg habove, decide_eq_true hin]
        exact hx
  · have hout : ¬lo ≤ x := fun hle => hx (Scalar.Graded.defined_of_le hle).2
    rw [clamp_undefined hx, decide_eq_false hout, Bool.false_and]
    exact Bool.eq_false_iff.mpr hx

/-- A focal length that is solved for is clamped if the ideal one is outside the bounds. -/
lemma solve?_of_le {z : ZoomConfig K} (h : z.minFocal ≤ z.maxFocal)
    (sensorHeight distance height : K) : z.solve? sensorHeight distance height =
      let ideal := Optics.focalLength sensorHeight distance height z.occupancy
      some ⟨Scalar.clamp z.minFocal z.maxFocal ideal, z.excludes ideal⟩ := by
  unfold ZoomConfig.solve? Scalar.clamp? ZoomConfig.excludes
  dsimp only
  rw [if_pos h, Option.map_some, clamp_beq h]

end Clamping

section Effects

variable {K : Type}

/-- A cue may begin a zoom or end the one in effect. -/
def setsZoomCue (q : Cue K) : Option (Option (Cue K)) :=
  match q.command with
  | .autoZoom _ _ _ _ => some (some q)
  | .setFocalLength _ => some none
  | .stopTracking => some none
  | _ => none

lemma foldl_zoomCue_eq (l : List (Cue K)) :
    l.foldl zoomCue none = lastSetting setsZoomCue none l := by
  induction l using List.reverseRecOn with
  | nil => rfl
  | append_singleton l q ih =>
    rw [List.foldl_append, lastSetting_append, ih, List.foldl_cons, List.foldl_nil]
    unfold zoomCue setsZoomCue
    cases q.command <;> rfl

variable [Scalar K] {rate : FrameRate K} {o : PlanOptions K}
  {subject? : ℕ → String → Option (Subject K)} {sheet : CueSheet K}

/-- The cue whose zoom is in effect at a frame: the last to begin or end a zoom of all that the
camera has taken by then, if it begins one. -/
def zoomInEffect? (rate : FrameRate K) (sheet : CueSheet K) (frame : ℕ) : Option (Cue K) :=
  lastSetting setsZoomCue none (sheet.cues.takeWhile (Shooting.isDue rate frame))

lemma zoomBefore_succ (frame : ℕ) :
    zoomBefore rate sheet.cues (frame + 1) = zoomInEffect? rate sheet frame := by
  unfold zoomBefore zoomInEffect?
  rw [foldl_zoomCue_eq, isDue_eq_isPast]

/-- Where cues come in the order of their frames, a camera has taken all that are due. -/
theorem zoomInEffect?_of_order (h : InFrameOrder rate sheet) (frame : ℕ) :
    zoomInEffect? rate sheet frame =
      lastSetting setsZoomCue none (sheet.cues.filter (Shooting.isDue rate frame)) := by
  unfold zoomInEffect?
  rw [isDue_eq_isPast, (takeWhile_eq_filter (h.pairwise_isPast (frame + 1))).1]

/-- The zoom in effect at a frame is that of the command with an index, and its ideal focal length
lies outside its bounds. -/
def exceedsAt (rate : FrameRate K) (o : PlanOptions K) (subject? : ℕ → String → Option (Subject K))
    (sheet : CueSheet K) (index frame : ℕ) : Bool :=
  (zoomInEffect? rate sheet frame).any fun q => q.index == index &&
    (zoomOf sheet.camera o q).any fun z => (subject? frame z.1).any fun s =>
      z.2.excludes (z.2.ideal sheet.camera (subject? frame) s)

/-- On how many of the first frames the zoom of the command with an index is in effect and its ideal
focal length lies outside its bounds. -/
def exceededFrames (rate : FrameRate K) (o : PlanOptions K)
    (subject? : ℕ → String → Option (Subject K)) (sheet : CueSheet K) (index n : ℕ) : ℕ :=
  (List.range n).countP (exceedsAt rate o subject? sheet index)

variable [Scalar.Separated K]

/-- Between bounds that are in order, only an ideal focal length outside of them is changed. -/
lemma isHeld_eq {c : Camera K} {subject? : String → Option (Subject K)} {z : String × ZoomConfig K}
    (h : ∀ s, subject? z.1 = some s → z.2.minFocal ≤ z.2.maxFocal) :
    isHeld c subject? z =
      (subject? z.1).any fun s => z.2.excludes (z.2.ideal c subject? s) := by
  unfold isHeld
  cases hs : subject? z.1 with
  | none => rfl
  | some s =>
    exact congrArg (Option.any ZoomSolution.clamped) (solve?_of_le (h s hs) _ _ _)

lemma isHeldAt_eq {frame : ℕ} (h : ¬ZoomCrossed rate o subject? sheet frame) (index : ℕ) :
    isHeldAt rate o subject? sheet index frame = exceedsAt rate o subject? sheet index frame := by
  unfold isHeldAt exceedsAt
  rw [← zoomBefore_succ]
  cases hq : zoomBefore rate sheet.cues (frame + 1) with
  | none => rfl
  | some q =>
    cases hz : zoomOf sheet.camera o q with
    | none => simp [hz]
    | some z =>
      have hle (s : Subject K) (hs : subject? frame z.1 = some s) :
          z.2.minFocal ≤ z.2.maxFocal := by
        by_contra hcrossed
        exact h ⟨z, s, by rw [hq, Option.bind_some, hz], hs, hcrossed⟩
      simp only [Option.any_some, hz, isHeld_eq hle]

/-- Where a camera is shot, it counts the frames on which an ideal focal length is exceeded. -/
lemma heldFrames_eq {last : ℕ} (h : sheet.shoot? rate o subject? last ≠ none) (index : ℕ) :
    heldFrames rate o subject? sheet index (last + 1) =
      exceededFrames rate o subject? sheet index (last + 1) := by
  refine List.countP_congr fun frame hframe => ?_
  rw [isHeldAt_eq (fun hcrossed => h ?_)]
  exact shoot?_eq_none_iff.mpr ⟨frame, Nat.le_of_lt_succ (List.mem_range.mp hframe), hcrossed⟩

end Effects

section Accounts

variable {K : Type} {held : ℕ → ℕ} {z : Option (Cue K)} {q : Cue K} {l : List (Cue K)}
  {s : Shooting K}

/-- What is found of a command. -/
def findingsOf (index : ℕ) (findings : List (ℕ × Finding K)) : List (ℕ × Finding K) :=
  findings.filter fun f => f.1 == index

/-- What is to be found of a zoom that was held on a number of frames. -/
def account (index frames : ℕ) : List (ℕ × Finding K) :=
  if 0 < frames then [(index, .zoomClamped frames)] else []

lemma findingsOf_append (index : ℕ) (findings found : List (ℕ × Finding K)) :
    findingsOf index (findings ++ found) = findingsOf index findings ++ findingsOf index found :=
  List.filter_append findings found

lemma findingsOf_account_self (index frames : ℕ) :
    findingsOf index (account index frames : List (ℕ × Finding K)) = account index frames := by
  refine List.filter_eq_self.mpr fun f hf => ?_
  obtain ⟨-, hf⟩ := List.mem_ite_nil_right.mp hf
  rw [List.mem_singleton.mp hf]
  exact beq_self_eq_true index

lemma findingsOf_account_other {index index' : ℕ} (h : index' ≠ index) (frames : ℕ) :
    findingsOf index (account index' frames : List (ℕ × Finding K)) = [] := by
  refine List.filter_eq_nil_iff.mpr fun f hf => ?_
  obtain ⟨-, hf⟩ := List.mem_ite_nil_right.mp hf
  rw [List.mem_singleton.mp hf]
  exact fun heq => h (beq_iff_eq.mp heq)

/-- All commands but that of the zoom in effect are accounted for. -/
def Accounted (held : ℕ → ℕ) (z : Option (Cue K)) (s : Shooting K) : Prop :=
  ∀ index, (∀ q ∈ z, q.index ≠ index) → findingsOf index s.findings = account index (held index)

lemma TalliedBy.endTally_findings (h : TalliedBy held z l s) : s.endTally.findings =
    s.findings ++ (z.map fun q => account q.index (held q.index)).getD [] := by
  unfold Shooting.endTally
  rw [h.tally_eq]
  cases z <;> rfl

/-- The zoom that ends has not been reported before. -/
lemma Accounted.endTally (h : Accounted held z s) (ht : TalliedBy held z l s) :
    Accounted held none s.endTally := by
  intro index _
  rw [ht.endTally_findings, findingsOf_append]
  cases z with
  | none =>
    rw [h index nofun]
    exact List.append_nil _
  | some q =>
    by_cases hindex : q.index = index
    · have hnone : findingsOf index s.findings = [] := by
        refine List.filter_eq_nil_iff.mpr fun f hf heq => ?_
        exact ht.ended f hf q List.mem_cons_self (hindex.trans (beq_iff_eq.mp heq).symm)
      rw [hnone, List.nil_append, ← hindex]
      exact findingsOf_account_self _ _
    · rw [h index fun p hp => Option.mem_some.mp hp ▸ hindex]
      exact (congrArg _ (findingsOf_account_other hindex _)).trans (List.append_nil _)

lemma Accounted.cue (h : Accounted held z s) (ht : TalliedBy held z (q :: l) s) (c : Camera K)
    (o : PlanOptions K) : Accounted held (zoomCue z q) (s.cue c o q) := by
  unfold Shooting.cue zoomCue
  cases q.command with
  | lookAt subject heightPct => exact h
  | autoFocus subject heightPct => exact h
  | autoZoom subject occupancy minFocal maxFocal => exact fun index _ => h.endTally ht index nofun
  | setFocalLength mm => exact h.endTally ht
  | stopTracking => exact h.endTally ht
  | hold duration => exact h

lemma Accounted.cues {due : List (Cue K)} (h : Accounted held z s)
    (ht : TalliedBy held z (due ++ l) s) (c : Camera K) (o : PlanOptions K) :
    Accounted held (due.foldl zoomCue z) (due.foldl (Shooting.cue c o) s) := by
  induction due generalizing z s with
  | nil => exact h
  | cons q due ih => exact ih (h.cue ht c o) (ht.cue c o)

end Accounts

section Frames

variable {K : Type} [Scalar K] {rate : FrameRate K} {o : PlanOptions K}
  {subject? : ℕ → String → Option (Subject K)} {sheet : CueSheet K} {n : ℕ} {s s' : Shooting K}

/-- A camera that is shot up to a frame, with all but the zoom in effect accounted for. -/
structure AccountedUpTo (rate : FrameRate K) (o : PlanOptions K)
    (subject? : ℕ → String → Option (Subject K)) (sheet : CueSheet K) (n : ℕ) (s : Shooting K) :
    Prop where
  tallied : TalliedUpTo rate o subject? sheet n s
  accounted : Accounted (heldFrames rate o subject? sheet · n) (zoomBefore rate sheet.cues n) s

lemma start_accountedUpTo (h : (sheet.cues.map Cue.index).Nodup) :
    AccountedUpTo rate o subject? sheet 0 (Shooting.start sheet) :=
  ⟨start_talliedUpTo h, fun _ _ => rfl⟩

/-- A frame is charged to the zoom in effect only. -/
lemma frame?_accountedUpTo (h : AccountedUpTo rate o subject? sheet n s)
    (hs : s.frame? rate sheet.camera o subject? n = some s') :
    AccountedUpTo rate o subject? sheet (n + 1) s' := by
  refine ⟨frame?_talliedUpTo h.tallied hs, ?_⟩
  obtain ⟨shot, hshot, hdone⟩ := Option.bind_eq_some_iff.mp hs
  cases hdone
  have htallied := h.tallied.tallied
  rw [← List.takeWhile_append_dropWhile (p := Shooting.isDue rate n) (l := s.cues)] at htallied
  have hcues := h.accounted.cues htallied sheet.camera o
  rw [← zoomBefore_advance h.tallied.shot] at hcues
  intro index hindex
  dsimp only
  rw [heldFrames_other hindex]
  exact hcues index hindex

/-- When a camera is shot, each of its zooms is accounted for. -/
theorem shoot?_accounted (hindices : (sheet.cues.map Cue.index).Nodup) {last : ℕ}
    {reel : CameraReel K} {findings : List (ℕ × Finding K)}
    (h : sheet.shoot? rate o subject? last = some (reel, findings)) (index : ℕ) :
    findingsOf index findings =
      account index (heldFrames rate o subject? sheet index (last + 1)) := by
  obtain ⟨done, hdone, hreel⟩ := Option.bind_eq_some_iff.mp h
  cases hreel
  have haccounted := range_foldlM_induction (P := AccountedUpTo rate o subject? sheet)
    (start_accountedUpTo hindices) (fun _ _ _ => frame?_accountedUpTo) hdone
  exact haccounted.accounted.endTally haccounted.tallied.tallied index nofun

end Frames

section Reports

variable {K : Type} [Scalar K] {m : Movie K} {o : PlanOptions K} {s : Session K} {last : ℕ}

/-- The warnings of a command. -/
def reportsOf (entity : String) (index : ℕ) (reports : List (Diagnostic (Finding K))) :
    List (Diagnostic (Finding K)) :=
  reports.filter fun d => d.entity == entity && d.commandIndex == some index

omit [Scalar K] in
lemma reportsOf_append (entity : String) (index : ℕ)
    (reports more : List (Diagnostic (Finding K))) :
    reportsOf entity index (reports ++ more) =
      reportsOf entity index reports ++ reportsOf entity index more :=
  List.filter_append reports more

omit [Scalar K] in
lemma reportsOf_eq_nil {entity : String} {index : ℕ} {reports : List (Diagnostic (Finding K))}
    (h : ∀ d ∈ reports, d.commandIndex = some index → d.entity ≠ entity) :
    reportsOf entity index reports = [] := by
  refine List.filter_eq_nil_iff.mpr fun d hd heq => ?_
  rw [Bool.and_eq_true, beq_iff_eq, beq_iff_eq] at heq
  exact h d hd heq.2 heq.1

omit [Scalar K] in
lemma reportsOf_warnings (entity : String) (index : ℕ) (findings : List (ℕ × Finding K)) :
    reportsOf entity index (findings.map fun f => .warning entity (some f.1) f.2) =
      (findingsOf index findings).map fun f => .warning entity (some f.1) f.2 := by
  unfold reportsOf findingsOf
  rw [List.filter_map]
  refine congrArg _ (List.filter_congr fun f _ => ?_)
  exact (congrArg (· && _) (beq_self_eq_true entity)).trans (Bool.true_and _)

/-- Before the cameras are shot, only actors are warned of. -/
lemma played_warns_actors (hm : Checked m) (h : played o m = .ok (last, s))
    {d : Diagnostic (Finding K)} (hd : d ∈ s.diagnostics) {index : ℕ}
    (hindex : d.commandIndex = some index) : ∃ a ∈ m.actors, a.name = d.entity := by
  obtain ⟨s₀, s₁, hwalk, hlast, rfl⟩ := played_ok h
  have hreached := walk_reached hm hwalk
  obtain ⟨reports, hsame⟩ := (lastFrame_ok hlast).1
  rcases finishRuns_diagnostics rfl hd with hd | ⟨r, hr, p, -, -, rfl⟩
  · obtain ⟨front, c, after, st, r, r', findings, finding, -, hfront, hr, -, -, rfl⟩ :=
      walk_diagnostics hwalk d (mem_of_lastFrame hlast hd hindex)
    exact ⟨r.actor, (steps_reached hm hfront).actors_eq ▸ List.mem_map_of_mem hr, rfl⟩
  · rw [hsame] at hr
    exact ⟨r.actor, hreached.actors_eq ▸ List.mem_map_of_mem hr, rfl⟩

omit [Scalar K] in
/-- Of the sheets of different cameras only one is reported of a camera. -/
lemma reportsOf_flatMap {sheets : List (CueSheet K)} {sheet : CueSheet K} (hsheet : sheet ∈ sheets)
    (hnames : (sheets.map fun c => c.camera.name).Nodup) {index : ℕ}
    {warnings : CueSheet K → List (Diagnostic (Finding K))}
    (hwarnings : ∀ c, ∀ d ∈ warnings c, d.entity = c.camera.name) :
    reportsOf sheet.camera.name index (sheets.flatMap warnings) =
      reportsOf sheet.camera.name index (warnings sheet) := by
  obtain ⟨front, after, rfl⟩ := List.append_of_mem hsheet
  rw [List.map_append, List.map_cons, List.nodup_middle, List.nodup_cons, List.mem_append,
    not_or] at hnames
  have hother (l : List (CueSheet K)) (hl : sheet.camera.name ∉ l.map fun c => c.camera.name) :
      reportsOf sheet.camera.name index (l.flatMap warnings) = [] := by
    refine reportsOf_eq_nil fun d hd _ heq => hl ?_
    obtain ⟨c, hc, hd⟩ := List.mem_flatMap.mp hd
    rw [← heq, hwarnings c d hd]
    exact List.mem_map_of_mem hc
  rw [List.flatMap_append, List.flatMap_cons, reportsOf_append, reportsOf_append,
    hother front hnames.1.1, hother after hnames.1.2, List.nil_append, List.append_nil]

/-- What a plan reports of a camera is what is found when its sheet is shot. -/
lemma plan_reportsOf_camera {reel : Reel K} (h : m.plan o = .ok reel) :
    ∃ s, played o m = .ok (reel.lastFrame, s) ∧ ∀ sheet ∈ s.sheets, ∃ c findings,
      sheet.shoot? m.fps o s.subject? reel.lastFrame = some (c, findings) ∧
      ∀ index, reportsOf sheet.camera.name index reel.diagnostics =
        (findingsOf index findings).map fun f => .warning sheet.camera.name (some f.1) f.2 := by
  have hm := checked_of_issues_nil (issues_nil_of_plan h)
  obtain ⟨s, reports, hplayed, hnone, hdiagnostics⟩ := plan_diagnostics h
  obtain ⟨s', hplayed', hshows⟩ := plan_ok h
  cases hplayed.symm.trans hplayed'
  obtain ⟨s₀, -, hreached, hmovie, hoptions, -, hsheets⟩ := played_reached hm hplayed
  have hcameras : s.sheets.map CueSheet.camera = m.cameras := by rw [hsheets, hreached.cameras_eq]
  have hnames : (s.sheets.map fun c => c.camera.name).Nodup := by
    have hnodup := hm.cameraNames_nodup
    rw [← hcameras, List.map_map] at hnodup
    exact hnodup
  refine ⟨s, hplayed, fun sheet hsheet => ?_⟩
  obtain ⟨c, -, findings, hshoot⟩ := mem_of_forall₂_left hshows.cameras_shot hsheet
  have hwarnings : shotWarnings s reel.lastFrame sheet =
      findings.map fun f => .warning sheet.camera.name (some f.1) f.2 := by
    unfold shotWarnings
    rw [hshoot]
  have hplay : ∀ index, reportsOf sheet.camera.name index s.diagnostics = [] := by
    refine fun index => reportsOf_eq_nil fun d hd hindex hentity => ?_
    obtain ⟨a, ha, hname⟩ := played_warns_actors hm hplayed hd hindex
    exact hm.actor_ne_camera ha (hcameras ▸ List.mem_map_of_mem hsheet) (hname.trans hentity)
  have hevents : ∀ index, reportsOf sheet.camera.name index reports = [] := by
    refine fun index => reportsOf_eq_nil fun d hd hindex => ?_
    cases (hnone d hd).symm.trans hindex
  have hentities (c : CueSheet K) (d : Diagnostic (Finding K))
      (hd : d ∈ shotWarnings s reel.lastFrame c) : d.entity = c.camera.name := by
    obtain ⟨_, _, _, f, _, rfl⟩ := mem_shotWarnings hd
    rfl
  rw [hmovie, hoptions] at hshoot
  refine ⟨c, findings, hshoot, fun index => ?_⟩
  rw [hdiagnostics, reportsOf_append, reportsOf_append, hplay, hevents, List.nil_append,
    List.append_nil, reportsOf_flatMap hsheet hnames hentities, hwarnings, reportsOf_warnings]

variable [Scalar.Separated K]

/-- Of each command to a camera a plan reports in one warning on how many frames the zoom of the
command was in effect and the ideal focal length outside its bounds, and nothing if on none. -/
theorem plan_accounts_zooms {reel : Reel K} (h : m.plan o = .ok reel) {c : Camera K}
    (hc : c ∈ m.cameras) : ∃ s sheet, played o m = .ok (reel.lastFrame, s) ∧ sheet ∈ s.sheets ∧
      sheet.camera = c ∧ CuesNumbered (cueCommands m c.name) sheet ∧ ∀ index,
        reportsOf c.name index reel.diagnostics =
          let n := exceededFrames m.fps o s.subject? sheet index (reel.lastFrame + 1)
          if 0 < n then [.warning c.name (some index) (.zoomClamped n)] else [] := by
  have hm := checked_of_issues_nil (issues_nil_of_plan h)
  obtain ⟨s, hplayed, hreports⟩ := plan_reportsOf_camera h
  obtain ⟨s₀, hwalk, hreached, -, -, -, hsheets⟩ := played_reached hm hplayed
  rw [← hreached.cameras_eq, ← hsheets] at hc
  obtain ⟨sheet, hsheet, rfl⟩ := List.mem_map.mp hc
  have hnumbered := cuesNumbered_invariant.walk_sheets hwalk sheet (hsheets ▸ hsheet)
  have hindices : (sheet.cues.map Cue.index).Nodup := by
    rw [hnumbered.indices_eq]
    exact List.nodup_range
  obtain ⟨a, findings, hshoot, hreported⟩ := hreports sheet hsheet
  have hshot : sheet.shoot? m.fps o s.subject? reel.lastFrame ≠ none := by
    rw [hshoot]
    exact Option.some_ne_none _
  refine ⟨s, sheet, hplayed, hsheet, rfl, hnumbered, fun index => ?_⟩
  rw [hreported, shoot?_accounted hindices hshoot, heldFrames_eq hshot]
  unfold account
  dsimp only
  split <;> rfl

end Reports

section Reals

variable {m : Movie ℝ} {o : PlanOptions ℝ} {reel : Reel ℝ}

/-- On the real line the zoom in effect at a frame is that of the last cue of all those due. -/
theorem real_plan_zooms (h : m.plan o = .ok reel) : ∃ s, played o m = .ok (reel.lastFrame, s) ∧
    ∀ sheet ∈ s.sheets, ∀ frame, zoomInEffect? m.fps sheet frame =
      lastSetting setsZoomCue none (sheet.cues.filter (Shooting.isDue m.fps frame)) := by
  have hv := valid_of_issues_nil (issues_nil_of_plan h)
  obtain ⟨s, hplayed, -⟩ := plan_ok h
  refine ⟨s, hplayed, fun sheet hsheet frame => zoomInEffect?_of_order ?_ frame⟩
  have hcues := (played_cuesInOrder hv hplayed sheet hsheet).1
  exact hcues.ordered.imp fun hpq => frameAt_mono hv.rate_pos hpq

end Reals

section CloseUps

/-- A camera is too near to an actor for its zoom. It asks for the same zoom again, and at once for
one with a lesser bound. -/
def closeUp : Movie Float :=
  { Movie.empty "close-up" 1 with
    actors := [Actor.named "A"]
    cameras := [Camera.named "C"]
    script :=
      [.camera ⟨"C", [.autoZoom "A" none none none, .hold (.seconds 2),
        .autoZoom "A" none none none, .autoZoom "A" none (some 1) none, .hold (.seconds 1),
        .stopTracking]⟩] }

/-- How many frames a finding counts. -/
def countedFrames? {K : Type} : Finding K → Option ℕ
  | .zoomClamped frames => some frames
  | _ => none

/-- What a plan reports, by the commands that it names and the frames that it counts. -/
def countedReports (m : Movie Float) : List (String × Option ℕ × Option ℕ) :=
  match m.plan Settings.standard.options with
  | .ok reel => reel.diagnostics.map fun d => (d.entity, d.commandIndex, countedFrames? d.message)
  | .error _ => []

lemma closeUp_plan : ∃ reel d, closeUp.plan Settings.standard.options = .ok reel ∧
    reel.diagnostics = [d] ∧ d.entity = "C" ∧ d.commandIndex = some 0 ∧
      countedFrames? d.message = some 2 := by
  have hreports : countedReports closeUp = [("C", some 0, some 2)] := by decide +kernel
  unfold countedReports at hreports
  cases h : closeUp.plan Settings.standard.options with
  | error e =>
    rw [h] at hreports
    cases hreports
  | ok reel =>
    rw [h] at hreports
    obtain ⟨d, hd, heq⟩ := List.map_eq_singleton_iff.mp hreports
    obtain ⟨hentity, heq⟩ := Prod.mk.inj heq
    obtain ⟨hindex, hframes⟩ := Prod.mk.inj heq
    exact ⟨reel, d, rfl, hd, hentity, hindex, hframes⟩

/-- The first zoom is reported for two frames, the one that ends on the frame it begins on is not
reported. -/
theorem closeUp_accounts_zooms : Camera.named "C" ∈ closeUp.cameras ∧
    ∃ reel s sheet, closeUp.plan Settings.standard.options = .ok reel ∧
      played Settings.standard.options closeUp = .ok (reel.lastFrame, s) ∧ sheet ∈ s.sheets ∧
      sheet.camera = Camera.named "C" ∧ CuesNumbered (cueCommands closeUp "C") sheet ∧
      exceededFrames closeUp.fps Settings.standard.options s.subject? sheet 0
        (reel.lastFrame + 1) = 2 ∧
      reportsOf "C" 0 reel.diagnostics = [.warning "C" (some 0) (.zoomClamped 2)] ∧
      exceededFrames closeUp.fps Settings.standard.options s.subject? sheet 2
        (reel.lastFrame + 1) = 0 ∧
      reportsOf "C" 2 reel.diagnostics = [] := by
  have hcamera : Camera.named "C" ∈ closeUp.cameras := List.mem_singleton_self _
  obtain ⟨reel, d, hplan, hd, hentity, hindex, hframes⟩ := closeUp_plan
  obtain ⟨s, sheet, hplayed, hsheet, heq, hnumbered, hreports⟩ := plan_accounts_zooms hplan hcamera
  have hfirst : reportsOf "C" 0 reel.diagnostics = [d] := by
    rw [hd]
    exact List.filter_eq_self.mpr (by simp [hentity, hindex])
  have hsecond : reportsOf "C" 2 reel.diagnostics = [] := by
    rw [hd]
    exact reportsOf_eq_nil (by simp [hindex])
  have htwo := hfirst.symm.trans (hreports 0)
  have hnone := hsecond.symm.trans (hreports 2)
  refine ⟨hcamera, reel, s, sheet, hplan, hplayed, hsheet, heq, hnumbered, ?_⟩
  dsimp only at htwo hnone
  rw [hfirst, hsecond]
  split at htwo
  · split at hnone
    · cases hnone
    next hzero =>
      cases htwo
      obtain htwo := Option.some.inj hframes
      rw [htwo]
      exact ⟨rfl, rfl, Nat.eq_zero_of_not_pos hzero, rfl⟩
  · cases htwo

end CloseUps

end Stagecraft.Proofs
