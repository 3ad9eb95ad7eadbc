import Stagecraft.Proofs.KeyedSpans
import Stagecraft.Proofs.RefusedPlans
import Stagecraft.Proofs.ReplayedCues
import Stagecraft.Proofs.WellFormedMovies
import Stagecraft.Settings

/-!
# Focal lengths of zooms

While a zoom is in effect a camera shows the ideal focal length, brought between the bounds of the
zoom, and at other times the length it was declared with or set to, or one it showed before. All of
these are positive, and those of a zoom are within its bounds, as long as the ideal length is a
number at all. On the real line it always is. A machine number may be too great, and a quotient of
two such numbers is undefined: it stays so when it is clamped, and is shown.
-/

namespace Stagecraft

variable {K : Type} [Scalar K]

/-- The focal length at which a subject fills the frame as a zoom asks for. -/
def ZoomConfig.ideal (z : ZoomConfig K) (c : Camera K) (subject? : String → Option (Subject K))
    (s : Subject K) : K :=
  Optics.focalLength c.sensorHeight
    ((Framing.base c subject?).location.distance (Optics.trackedPoint s.location s.height 0.5))
    s.height z.occupancy

end Stagecraft

namespace Stagecraft.Proofs

section Clamping

variable {K : Type} [Scalar K] [Scalar.Graded K] {lo hi x : K}

lemma clamp_undefined (h : ¬Scalar.Defined x) : Scalar.clamp lo hi x = x := by
  unfold Scalar.clamp
  rw [if_neg fun hlt => h (Scalar.Graded.defined_of_lt hlt).1,
    if_neg fun hlt => h (Scalar.Graded.defined_of_lt hlt).2]

/-- What is brought between bounds is between them if it is a number. -/
lemma clamp_bounded_iff (h : lo ≤ hi) :
    lo ≤ Scalar.clamp lo hi x ∧ Scalar.clamp lo hi x ≤ hi ↔ Scalar.Defined x := by
  obtain ⟨hlo, hhi⟩ := Scalar.Graded.defined_of_le h
  by_cases hx : Scalar.Defined x
  · refine iff_of_true ?_ hx
    unfold Scalar.clamp
    by_cases hbelow : x < lo
    · rw [if_pos hbelow]
      exact ⟨Scalar.Graded.le_refl hlo, h⟩
    · rw [if_neg hbelow]
      by_cases habove : hi < x
      · rw [if_pos habove]
        exact ⟨h, Scalar.Graded.le_refl hhi⟩
      · rw [if_neg habove]
        exact ⟨(Scalar.Ordered.not_lt hx hlo).mp hbelow, (Scalar.Ordered.not_lt hhi hx).mp habove⟩
  · refine iff_of_false ?_ hx
    rw [clamp_undefined hx]
    exact fun hbounds => hx (Scalar.Graded.defined_of_le hbounds.1).2

lemma clamp_pos_iff (hpos : 0 < lo) (h : lo ≤ hi) :
    0 < Scalar.clamp lo hi x ↔ Scalar.Defined x := by
  constructor
  · intro hclamp
    by_contra hx
    rw [clamp_undefined hx] at hclamp
    exact hx (Scalar.Graded.defined_of_lt hclamp).2
  · intro hx
    exact Scalar.Graded.pos_of_le hpos ((clamp_bounded_iff h).mpr hx).1

/-- A number that is not found to be negative or zero is positive. -/
lemma pos_iff_defined (h : ¬x ≤ 0) : 0 < x ↔ Scalar.Defined x :=
  ⟨fun hx => (Scalar.Graded.defined_of_lt hx).2, fun hx => (nonpositive_iff hx).mp h⟩

lemma clamp_not_nonpositive (hpos : 0 < lo) (h : lo ≤ hi) : ¬Scalar.clamp lo hi x ≤ 0 := by
  intro hle
  have hclamp := (Scalar.Graded.defined_of_le hle).1
  refine (nonpositive_iff hclamp).mpr ((clamp_pos_iff hpos h).mpr ?_) hle
  by_contra hx
  rw [clamp_undefined hx] at hclamp
  exact hx hclamp

end Clamping

section Shots

variable {K : Type} [Scalar K] {f : Framing K} {c : Camera K}
  {subject? : String → Option (Subject K)} {shot : Shot K}

lemma shot?_zoomed {name : String} {z : ZoomConfig K} {s : Subject K}
    (hz : f.zoom = some (name, z)) (hs : subject? name = some s)
    (h : f.shot? c subject? = some shot) : z.minFocal ≤ z.maxFocal ∧
      shot.focalLength = Scalar.clamp z.minFocal z.maxFocal (z.ideal c subject? s) := by
  unfold Framing.shot? at h
  simp only [hz, hs, Option.bind_some, Option.map_some] at h
  obtain ⟨solution, hsolution, h⟩ := Option.bind_eq_some_iff.mp h
  cases h
  obtain ⟨focal, hfocal, rfl⟩ := Option.map_eq_some_iff.mp hsolution
  unfold Scalar.clamp? at hfocal
  split at hfocal
  next hle =>
    cases hfocal
    exact ⟨hle, rfl⟩
  next => cases hfocal

lemma shot?_unzoomed (hz : ∀ z, f.zoom = some z → subject? z.1 = none)
    (h : f.shot? c subject? = some shot) : shot.focalLength = f.focalLength := by
  have hnone : (f.zoom.bind fun z => (subject? z.1).map fun s => (z.2, s)) = none := by
    cases hzoom : f.zoom with
    | none => rfl
    | some z => simp [hz z hzoom]
  unfold Framing.shot? at h
  rw [hnone] at h
  cases h
  rfl

end Shots

section Frames

variable {K : Type} [Scalar K] {rate : FrameRate K} {o : PlanOptions K}
  {subject? : ℕ → String → Option (Subject K)} {sheet : CueSheet K} {settings : SettingsTrack K}
  {n : ℕ} {s s' : Shooting K} {x : K}

/-- The subject and the bounds of the zoom in effect at a frame. -/
def zoomAt? (rate : FrameRate K) (o : PlanOptions K) (sheet : CueSheet K) (frame : ℕ) :
    Option (String × ZoomConfig K) :=
  (zoomBefore rate sheet.cues (frame + 1)).bind (zoomOf sheet.camera o)

/-- Where a focal length may come from that no zoom solves for: it was declared, or set by a cue,
or shown on a frame before. -/
inductive FocalSource (sheet : CueSheet K) (settings : SettingsTrack K) (n : ℕ) : K → Prop
  | declared : FocalSource sheet settings n sheet.camera.focalLength
  | set {q : Cue K} {mm : K} (hq : q ∈ sheet.cues) (hcommand : q.command = .setFocalLength mm) :
    FocalSource sheet settings n mm
  | shown {frame : ℕ} {key : SettingsKey K} (hframe : frame < n)
    (hkey : settings.keys[frame]? = some key) : FocalSource sheet settings n key.focalLength

omit [Scalar K] in
lemma FocalSource.holds {P : K → Prop} (h : FocalSource sheet settings n x)
    (hdeclared : P sheet.camera.focalLength)
    (hset : ∀ q ∈ sheet.cues, ∀ mm, q.command = .setFocalLength mm → P mm)
    (hshown : ∀ frame < n, ∀ key, settings.keys[frame]? = some key → P key.focalLength) : P x := by
  cases h with
  | declared => exact hdeclared
  | set hq hcommand => exact hset _ hq _ hcommand
  | shown hframe hkey => exact hshown _ hframe _ hkey

/-- A frame is keyed with the shot of a framing in which the zoom in effect is that of the cues. -/
structure KeyedAt (rate : FrameRate K) (o : PlanOptions K)
    (subject? : ℕ → String → Option (Subject K)) (sheet : CueSheet K) (settings : SettingsTrack K)
    (frame : ℕ) : Prop where
  keyed : ∃ (f : Framing K) (shot : Shot K), f.zoom = zoomAt? rate o sheet frame ∧
    FocalSource sheet settings frame f.focalLength ∧
    f.shot? sheet.camera (subject? frame) = some shot ∧
    settings.keys[frame]? = some ⟨frame, shot.focalLength, shot.focusDistance⟩

omit [Scalar K] in
lemma FocalSource.push (h : FocalSource sheet settings n x) {m : ℕ} (hm : n ≤ m)
    (hfilled : Filled settings m) {key : SettingsKey K} (hkey : key.frame = m) {n' : ℕ}
    (hn : n ≤ n') : FocalSource sheet (settings.push key) n' x := by
  cases h with
  | declared => exact .declared
  | set hq hcommand => exact .set hq hcommand
  | shown hframe hshown =>
    refine .shown (hframe.trans_le hn) ?_
    rw [(hfilled.push_next_getElem? hkey).2 _ (hframe.trans_le hm)]
    exact hshown

lemma KeyedAt.push {frame : ℕ} (h : KeyedAt rate o subject? sheet settings frame)
    (hfilled : Filled settings n) {key : SettingsKey K} (hkey : key.frame = n) (hframe : frame < n) :
    KeyedAt rate o subject? sheet (settings.push key) frame := by
  obtain ⟨f, shot, hzoom, hsource, hshot, hshown⟩ := h.keyed
  refine ⟨f, shot, hzoom, hsource.push hframe.le hfilled hkey le_rfl, hshot, ?_⟩
  rw [(hfilled.push_next_getElem? hkey).2 frame hframe]
  exact hshown

omit [Scalar K] in
/-- A cue sets the focal length it says or goes back to the last one shown. -/
lemma cue_focal {c : Camera K} {q : Cue K} (hlast : FocalSource sheet settings n s.lastFocal)
    (hfocal : FocalSource sheet settings n s.framing.focalLength) (hq : q ∈ sheet.cues) :
    FocalSource sheet settings n (s.cue c o q).framing.focalLength := by
  unfold Shooting.cue
  cases hcommand : q.command with
  | lookAt subject heightPct => exact hfocal
  | autoFocus subject heightPct => exact hfocal
  | autoZoom subject occupancy minFocal maxFocal => exact hfocal
  | setFocalLength mm => exact .set hq hcommand
  | stopTracking => exact hlast
  | hold duration => exact hfocal

omit [Scalar K] in
lemma cues_focal {c : Camera K} {due : List (Cue K)}
    (hlast : FocalSource sheet settings n s.lastFocal)
    (hfocal : FocalSource sheet settings n s.framing.focalLength) (hdue : ∀ q ∈ due, q ∈ sheet.cues) :
    FocalSource sheet settings n (due.foldl (Shooting.cue c o) s).framing.focalLength := by
  induction due generalizing s with
  | nil => exact hfocal
  | cons q due ih =>
    rw [List.forall_mem_cons] at hdue
    refine ih ?_ (cue_focal hlast hfocal hdue.1) hdue.2
    rw [cue_lastFocal]
    exact hlast

/-- What holds of a camera that is shot up to a frame. -/
structure KeyedUpTo (rate : FrameRate K) (o : PlanOptions K)
    (subject? : ℕ → String → Option (Subject K)) (sheet : CueSheet K) (n : ℕ) (s : Shooting K) :
    Prop where
  shot : ShotUpTo rate sheet.camera o sheet.cues n s
  lastFocal : FocalSource sheet s.settings n s.lastFocal
  focalLength : FocalSource sheet s.settings n s.framing.focalLength
  keyed_at : ∀ frame < n, KeyedAt rate o subject? sheet s.settings frame

lemma start_keyedUpTo : KeyedUpTo rate o subject? sheet 0 (Shooting.start sheet) :=
  ⟨start_shotUpTo sheet, .declared, .declared, nofun⟩

lemma frame?_keyedUpTo (h : KeyedUpTo rate o subject? sheet n s)
    (hs : s.frame? rate sheet.camera o subject? n = some s') :
    KeyedUpTo rate o subject? sheet (n + 1) s' := by
  have hfilled := h.shot.settings
  obtain ⟨-, hzoom⟩ := advance_zoom h.shot
  obtain ⟨shot, hshot, hframing, hlast, -, hsettings⟩ := frame?_ok hs
  have hdue : ∀ q ∈ s.cues.takeWhile (Shooting.isDue rate n), q ∈ sheet.cues := by
    intro q hq
    have hmem := (List.takeWhile_sublist _).subset hq
    rw [h.shot.cues_eq] at hmem
    exact (List.dropWhile_sublist _).subset hmem
  have hfocal : FocalSource sheet s.settings n
      (s.advance rate sheet.camera o n).framing.focalLength :=
    cues_focal h.lastFocal h.focalLength hdue
  have hkey : s'.settings.keys[n]? = some ⟨n, shot.focalLength, shot.focusDistance⟩ := by
    rw [hsettings]
    exact (hfilled.push_next_getElem? rfl).1
  have hpushed {x : K} (hx : FocalSource sheet s.settings n x) {n' : ℕ} (hn : n ≤ n') :
      FocalSource sheet s'.settings n' x := by
    rw [hsettings]
    exact hx.push le_rfl hfilled rfl hn
  refine ⟨frame?_shotUpTo h.shot hs, ?_, ?_, ?_⟩
  · rw [hlast]
    exact .shown (Nat.lt_succ_self n) hkey
  · rw [hframing]
    exact hpushed hfocal (Nat.le_succ n)
  · intro frame hframe
    rcases Nat.lt_succ_iff_lt_or_eq.mp hframe with hlt | rfl
    · rw [hsettings]
      exact (h.keyed_at frame hlt).push hfilled rfl hlt
    · exact ⟨_, shot, hzoom, hpushed hfocal le_rfl, hshot, hkey⟩

/-- A camera that is shot keys at every frame the shot of the zoom in effect. -/
theorem shoot?_keyed {last : ℕ} {reel : CameraReel K} {findings : List (ℕ × Finding K)}
    (h : sheet.shoot? rate o subject? last = some (reel, findings)) :
    ∀ frame ≤ last, KeyedAt rate o subject? sheet reel.settings frame := by
  obtain ⟨done, hdone, hreel⟩ := Option.bind_eq_some_iff.mp h
  cases hreel
  have hkeyed := range_foldlM_induction (P := KeyedUpTo rate o subject? sheet)
    start_keyedUpTo (fun _ _ _ => frame?_keyedUpTo) hdone
  exact fun frame hframe => hkeyed.keyed_at frame (Nat.lt_succ_of_le hframe)

lemma KeyedAt.zoomed {frame : ℕ} (h : KeyedAt rate o subject? sheet settings frame) {name : String}
    {z : ZoomConfig K} {sub : Subject K} (hz : zoomAt? rate o sheet frame = some (name, z))
    (hsub : subject? frame name = some sub) :
    z.minFocal ≤ z.maxFocal ∧ ∃ key, settings.keys[frame]? = some key ∧
      key.focalLength =
        Scalar.clamp z.minFocal z.maxFocal (z.ideal sheet.camera (subject? frame) sub) := by
  obtain ⟨f, shot, hzoom, -, hshot, hkey⟩ := h.keyed
  obtain ⟨hle, hfocal⟩ := shot?_zoomed (hzoom.trans hz) hsub hshot
  exact ⟨hle, _, hkey, hfocal⟩

/-- What holds of the focal lengths that are declared, set or solved for, holds of all that are
shown. -/
theorem focals_induction {P : K → Prop} {last : ℕ}
    (h : ∀ frame ≤ last, KeyedAt rate o subject? sheet settings frame)
    (hdeclared : P sheet.camera.focalLength)
    (hset : ∀ q ∈ sheet.cues, ∀ mm, q.command = .setFocalLength mm → P mm)
    (hzoom : ∀ frame ≤ last, ∀ name z sub, zoomAt? rate o sheet frame = some (name, z) →
      subject? frame name = some sub → z.minFocal ≤ z.maxFocal →
      P (Scalar.clamp z.minFocal z.maxFocal (z.ideal sheet.camera (subject? frame) sub))) :
    ∀ frame ≤ last, ∀ key, settings.keys[frame]? = some key → P key.focalLength := by
  intro frame
  induction frame using Nat.strong_induction_on with
  | h frame ih =>
    intro hframe key hkey
    obtain ⟨f, shot, hz, hsource, hshot, hshown⟩ := (h frame hframe).keyed
    have hfocal : key.focalLength = shot.focalLength := by
      rw [hkey, Option.some.injEq] at hshown
      rw [hshown]
    have hheld : P f.focalLength := hsource.holds hdeclared hset
      fun earlier hearlier => ih earlier hearlier (hearlier.le.trans hframe)
    rw [hfocal]
    by_cases hzoomed : ∃ z sub, f.zoom = some z ∧ subject? frame z.1 = some sub
    · obtain ⟨⟨name, z⟩, sub, hzoomed, hsub⟩ := hzoomed
      obtain ⟨hle, hclamp⟩ := shot?_zoomed hzoomed hsub hshot
      rw [hclamp]
      exact hzoom frame hframe name z sub (hz.symm.trans hzoomed) hsub hle
    · rw [shot?_unzoomed (fun z hz => ?_) hshot]
      · exact hheld
      · by_contra hsome
        obtain ⟨sub, hsub⟩ := Option.ne_none_iff_exists'.mp hsome
        exact hzoomed ⟨z, sub, hz, hsub⟩

end Frames

section Tracks

variable {κ : Type} [Keyed κ]

/-- A track to which a key was pushed holds a key. -/
lemma push_size_pos (t : Track κ) (key : κ) : 0 < (t.push key).keys.size := by
  unfold Track.push
  cases hlast : t.keys.back? with
  | none => simp
  | some last =>
    have hpos : 0 < t.keys.size := by
      rw [Array.size_pos_iff]
      rintro hempty
      simp [hempty] at hlast
    dsimp only
    split
    · simp
    · split
      · simpa using hpos
      · unfold Array.insertIdxIfInBounds
        split
        · simp
        · exact hpos

variable {K : Type} [Scalar K]

lemma keyAll_size_pos {g : ℕ → Pose K} {frames : List ℕ} {r : Run K}
    (h : 0 < r.transform.keys.size) : 0 < (keyAll g frames r).transform.keys.size := by
  induction frames generalizing r with
  | nil => exact h
  | cons f frames ih => exact ih (push_size_pos _ _)

lemma play_size_pos {rate : FrameRate K} {s : Span K} {r : Run K}
    (h : 0 < r.transform.keys.size) : 0 < (r.play rate s).transform.keys.size := by
  rw [play_transform, sample_eq_keyAll]
  exact keyAll_size_pos h

/-- Every run holds a key, from its start on. -/
lemma keyed_invariant : RunInvariant fun (_ : List (Step K)) r => 0 < r.transform.keys.size where
  start a := push_size_pos _ _
  other h _ := h
  join {front r} h rate moment := by
    unfold Run.holdUntil
    split
    · exact h
    · exact play_size_pos h
  command {front r r' s c findings} h _ hobey := by
    cases obey_obeyed hobey with
    | plays hnext hs lane => exact play_size_pos h
    | passes hpast => exact h
    | parks clip => exact h

/-- A track that holds a key can be sampled at any frame. -/
lemma exists_sample {t : TransformTrack K} (h : 0 < t.keys.size) (frame : ℕ) :
    ∃ x, t.sample frame = some x := by
  have hlast : t.last? = some t.keys[t.keys.size - 1] := by
    unfold Track.last?
    rw [Array.back?_eq_getElem?]
    exact Array.getElem?_eq_getElem _
  have hfirst : t.first? = some t.keys[0] := Array.getElem?_eq_getElem h
  unfold Track.sample
  rw [hfirst]
  simp only [Option.bind_eq_bind, Option.bind_some]
  split
  · exact ⟨_, rfl⟩
  · split
    · split
      · exact ⟨_, rfl⟩
      · exact ⟨_, rfl⟩
    · rw [hlast]
      exact ⟨_, rfl⟩

end Tracks

section Sessions

variable {K : Type} [Scalar K] {m : Movie K} {o : PlanOptions K} {s : Session K} {last : ℕ}

/-- A declared actor is there at every frame. -/
lemma exists_subject (hm : Checked m) (h : played o m = .ok (last, s)) {name : String}
    (hname : ∃ a ∈ m.actors, a.name = name) (frame : ℕ) :
    ∃ sub, s.subject? frame name = some sub := by
  obtain ⟨s₀, hwalk, hreached, -, -, hruns, -⟩ := played_reached hm h
  obtain ⟨r, hr, rfl, -⟩ := hreached.exists_run hm hname
  have hkeyed := keyed_invariant.walk_runs hwalk r hr
  have hfind := find_run (hreached.runNames_nodup hm) hr
  have hfinished : 0 < (r.finish m.fps last).1.transform.keys.size := by
    unfold Run.finish
    cases r.parked with
    | none => exact hkeyed
    | some p => exact play_size_pos hkeyed
  obtain ⟨x, hx⟩ := exists_sample hfinished frame
  have hname (q : Run K) : (q.finish m.fps last).1.actor.name = q.actor.name := by
    rw [finish_actor]
  unfold Session.subject? Run.subjectAt
  rw [hruns, find?_map_of_key (fun q : Run K => q.actor.name) hname, hfind, Option.map_some,
    Option.bind_some, hx]
  exact ⟨_, rfl⟩

/-- The zoom in effect at a frame was asked for by a command of the script to the camera. -/
lemma zoomAt?_command (hm : Checked m) (h : played o m = .ok (last, s)) {sheet : CueSheet K}
    (hsheet : sheet ∈ s.sheets) {frame : ℕ} {name : String} {z : ZoomConfig K}
    (hz : zoomAt? m.fps o sheet frame = some (name, z)) :
    ∃ occupancy minFocal maxFocal,
      .autoZoom name occupancy minFocal maxFocal ∈ cueCommands m sheet.camera.name ∧
        z = zoomConfig sheet.camera o occupancy minFocal maxFocal := by
  obtain ⟨s₀, hwalk, -, -, -, -, hsheets⟩ := played_reached hm h
  have hcues := cuesNumbered_invariant.walk_sheets hwalk sheet (hsheets ▸ hsheet)
  obtain ⟨q, hq, hzoom⟩ := Option.bind_eq_some_iff.mp hz
  obtain ⟨hmem, subject, occupancy, minFocal, maxFocal, hcommand⟩ := zoomBefore_eq_some hq
  simp only [zoomOf, hcommand, Option.some.injEq, Prod.mk.injEq] at hzoom
  obtain ⟨rfl, rfl⟩ := hzoom
  refine ⟨occupancy, minFocal, maxFocal, ?_, rfl⟩
  rw [← hcues.commands_eq, ← hcommand]
  exact List.mem_map_of_mem hmem

omit [Scalar K] in
lemma mem_cueCommands {camera : String} {c : CameraCommand K} (hc : c ∈ cueCommands m camera) :
    ∃ q, Block.camera q ∈ m.sequences ∧ q.camera = camera ∧ c ∈ q.commands := by
  obtain ⟨b, hb, hc⟩ := List.mem_flatMap.mp hc
  cases b with
  | actor q => cases hc
  | camera q =>
    obtain ⟨hname, hc⟩ := List.mem_ite_nil_right.mp hc
    exact ⟨q, hb, hname, hc⟩
  | simultaneous members => cases hc

end Sessions

section Plans

variable {K : Type} [Scalar K] [Scalar.Graded K] {m : Movie K} {reel : Reel K}

omit [Scalar.Graded K] in
lemma camera_passes (h : m.issues = []) {c : Camera K} (hc : c ∈ m.cameras) :
    m.cameraIssues c = [] := by
  simp only [Movie.issues, List.append_eq_nil_iff, List.flatMap_eq_nil_iff] at h
  exact h.1.1.1.1.1.2 c hc

omit [Scalar.Graded K] in
lemma zoomIssues_least {camera : String} {occupancy : Option K} {least greatest : K}
    (h : Movie.zoomIssues camera occupancy least greatest = []) : ¬least ≤ 0 := by
  obtain ⟨-, hbounds⟩ := List.append_eq_nil_iff.mp h
  exact fun hle => ite_nil_iff.mp hbounds (Or.inl hle)

omit [Scalar.Graded K] in
/-- The focal lengths that are declared and set are not found to be negative or zero. -/
lemma fixed_focals (h : m.issues = []) {c : Camera K} (hc : c ∈ m.cameras) :
    ¬c.focalLength ≤ 0 ∧ ∀ mm, .setFocalLength mm ∈ cueCommands m c.name → ¬mm ≤ 0 := by
  constructor
  · have hcamera := (List.append_eq_nil_iff.mp (camera_passes h hc)).1
    have hoptics := ite_nil_iff.mp (List.append_eq_nil_iff.mp hcamera).1
    exact fun hle => hoptics (Or.inr hle)
  · intro mm hmm
    obtain ⟨q, hq, -, hmem⟩ := mem_cueCommands hmm
    have hpass := ((checked_of_issues_nil h).camera_sequence hq).2 _ hmem
    exact ite_nil_iff.mp (List.append_eq_nil_iff.mp hpass).2

/-- The lesser bound of a zoom is positive, if the two are in order. -/
lemma zoomConfig_least_pos (h : m.issues = []) {c : Camera K} (hc : c ∈ m.cameras)
    {name : String} {occupancy minFocal maxFocal : Option K}
    (hcommand : .autoZoom name occupancy minFocal maxFocal ∈ cueCommands m c.name)
    (hle : (zoomConfig c Settings.standard.options occupancy minFocal maxFocal).minFocal ≤
      (zoomConfig c Settings.standard.options occupancy minFocal maxFocal).maxFocal) :
    0 < (zoomConfig c Settings.standard.options occupancy minFocal maxFocal).minFocal := by
  rw [pos_iff_defined]
  · exact (Scalar.Graded.defined_of_le hle).1
  · obtain ⟨q, hq, -, hmem⟩ := mem_cueCommands hcommand
    have hpass := ((checked_of_issues_nil h).camera_sequence hq).2 _ hmem
    have hleast := zoomIssues_least (List.append_eq_nil_iff.mp hpass).2
    unfold zoomConfig
    cases minFocal with
    | some lo => exact hleast
    | none =>
      cases hz : c.autoZoom with
      | some z =>
        have hcamera := (List.append_eq_nil_iff.mp (camera_passes h hc)).2
        rw [hz] at hcamera
        exact zoomIssues_least hcamera
      | none =>
        have htwelve := Scalar.Graded.twelve (K := K)
        have hdefined := Scalar.Graded.defined_of_lt htwelve
        exact (nonpositive_iff hdefined.2).mpr htwelve

/-- The focal lengths of a camera that is shot with default options. Those shown are positive if
they are numbers. Where a zoom is in effect its subject is there, and what is shown is within the
bounds of the zoom if the ideal length is a number. -/
structure HoldsBounds (m : Movie K) (o : PlanOptions K) (last : ℕ)
    (subject? : ℕ → String → Option (Subject K)) (sheet : CueSheet K) (settings : SettingsTrack K) :
    Prop where
  filled : Filled settings (last + 1)
  positive_iff : ∀ key ∈ settings.keys, 0 < key.focalLength ↔ Scalar.Defined key.focalLength
  bounded_iff : ∀ frame ≤ last, ∀ name z, zoomAt? m.fps o sheet frame = some (name, z) →
    ∃ sub key, subject? frame name = some sub ∧ settings.keys[frame]? = some key ∧
      (z.minFocal ≤ key.focalLength ∧ key.focalLength ≤ z.maxFocal ↔
        Scalar.Defined (z.ideal sheet.camera (subject? frame) sub))
  all_positive_iff : (∀ n ∈ m.numbers, Scalar.Defined n.value) →
    ((∀ key ∈ settings.keys, 0 < key.focalLength) ↔
      ∀ frame ≤ last, ∀ name z sub, zoomAt? m.fps o sheet frame = some (name, z) →
        subject? frame name = some sub →
        Scalar.Defined (z.ideal sheet.camera (subject? frame) sub))

section Shooting

variable {last : ℕ} {s : Session K} {sheet : CueSheet K} {settings : SettingsTrack K}

omit [Scalar.Graded K] in
/-- The zooms of a movie that is played find their subjects. -/
lemma zoomAt?_subject (hm : Checked m) {o : PlanOptions K} (h : played o m = .ok (last, s))
    (hsheet : sheet ∈ s.sheets) {frame : ℕ} {name : String} {z : ZoomConfig K}
    (hz : zoomAt? m.fps o sheet frame = some (name, z)) :
    ∃ sub, s.subject? frame name = some sub := by
  obtain ⟨occupancy, minFocal, maxFocal, hcommand, -⟩ := zoomAt?_command hm h hsheet hz
  obtain ⟨q, hq, -, hmem⟩ := mem_cueCommands hcommand
  exact exists_subject hm h (hm.subject_declared hq hmem rfl) frame

omit [Scalar.Graded K] in
/-- A sheet of a movie that is played has the cues of one of its cameras. -/
lemma sheet_cues (hm : Checked m) {o : PlanOptions K} (h : played o m = .ok (last, s))
    (hsheet : sheet ∈ s.sheets) : sheet.camera ∈ m.cameras ∧
      sheet.cues.map Cue.command = cueCommands m sheet.camera.name := by
  obtain ⟨s₀, hwalk, hreached, -, -, -, hsheets⟩ := played_reached hm h
  rw [hsheets] at hsheet
  rw [← hreached.cameras_eq]
  exact ⟨List.mem_map_of_mem hsheet,
    (cuesNumbered_invariant.walk_sheets hwalk sheet hsheet).commands_eq⟩

/-- The zoom in effect at a frame, with its subject and what is shown. -/
lemma zoomed_key (h : m.issues = []) (hplayed : played Settings.standard.options m = .ok (last, s))
    (hsheet : sheet ∈ s.sheets) {frame : ℕ}
    (hkeyed : KeyedAt m.fps Settings.standard.options s.subject? sheet settings frame)
    {name : String} {z : ZoomConfig K}
    (hz : zoomAt? m.fps Settings.standard.options sheet frame = some (name, z)) :
    0 < z.minFocal ∧ z.minFocal ≤ z.maxFocal ∧
      ∃ sub key, s.subject? frame name = some sub ∧ settings.keys[frame]? = some key ∧
        key.focalLength =
          Scalar.clamp z.minFocal z.maxFocal (z.ideal sheet.camera (s.subject? frame) sub) := by
  have hm := checked_of_issues_nil h
  obtain ⟨hcamera, -⟩ := sheet_cues hm hplayed hsheet
  obtain ⟨sub, hsub⟩ := zoomAt?_subject hm hplayed hsheet hz
  obtain ⟨hle, key, hkey, hfocal⟩ := hkeyed.zoomed hz hsub
  obtain ⟨occupancy, minFocal, maxFocal, hcommand, rfl⟩ := zoomAt?_command hm hplayed hsheet hz
  exact ⟨zoomConfig_least_pos h hcamera hcommand hle, hle, sub, key, hsub, hkey, hfocal⟩

lemma holdsBounds_of_keyed (h : m.issues = [])
    (hplayed : played Settings.standard.options m = .ok (last, s)) (hsheet : sheet ∈ s.sheets)
    (hkeyed : ∀ frame ≤ last,
      KeyedAt m.fps Settings.standard.options s.subject? sheet settings frame)
    (hfilled : Filled settings (last + 1)) :
    HoldsBounds m Settings.standard.options last s.subject? sheet settings := by
  obtain ⟨hcamera, hcues⟩ := sheet_cues (checked_of_issues_nil h) hplayed hsheet
  have hcommand {q : Cue K} (hq : q ∈ sheet.cues) :
      q.command ∈ cueCommands m sheet.camera.name := by
    rw [← hcues]
    exact List.mem_map_of_mem hq
  obtain ⟨hdeclared, hset⟩ := fixed_focals h hcamera
  have hframe {key : SettingsKey K} (hkey : key ∈ settings.keys) :
      ∃ frame ≤ last, settings.keys[frame]? = some key := by
    obtain ⟨frame, hlt, hget⟩ := Array.mem_iff_getElem.mp hkey
    rw [hfilled.size_eq] at hlt
    exact ⟨frame, Nat.le_of_lt_succ hlt, hget ▸ Array.getElem?_eq_getElem _⟩
  have hzoomed {frame : ℕ} (hle : frame ≤ last) {name : String} {z : ZoomConfig K}
      (hz : zoomAt? m.fps Settings.standard.options sheet frame = some (name, z)) :=
    zoomed_key h hplayed hsheet (hkeyed frame hle) hz
  refine ⟨hfilled, ?_, ?_, ?_⟩
  · intro key hkey
    obtain ⟨frame, hle, hget⟩ := hframe hkey
    apply pos_iff_defined
    refine focals_induction (P := fun x => ¬x ≤ 0) hkeyed hdeclared ?_ ?_ frame hle key hget
    · intro q hq mm hmm
      exact hset mm (hmm ▸ hcommand hq)
    · intro frame hle name z sub hz _ hbounds
      exact clamp_not_nonpositive (hzoomed hle hz).1 hbounds
  · intro frame hle name z hz
    obtain ⟨-, hbounds, sub, key, hsub, hkey, hfocal⟩ := hzoomed hle hz
    refine ⟨sub, key, hsub, hkey, ?_⟩
    rw [hfocal]
    exact clamp_bounded_iff hbounds
  · intro hnumbers
    have hw := (issues_nil_iff_of_named (named_of_issues_nil h) hnumbers).mp h
    constructor
    · intro hpositive frame hle name z sub hz hsub
      obtain ⟨hleast, hbounds, sub', key, hsub', hkey, hfocal⟩ := hzoomed hle hz
      rw [hsub, Option.some.injEq] at hsub'
      subst hsub'
      rw [← clamp_pos_iff hleast hbounds, ← hfocal]
      exact hpositive key (Array.mem_of_getElem? hkey)
    · intro hdefined key hkey
      obtain ⟨frame, hle, hget⟩ := hframe hkey
      refine focals_induction (P := fun x => 0 < x) hkeyed ?_ ?_ ?_ frame hle key hget
      · exact (hw.cameras _ hcamera).focalLength_pos
      · intro q hq mm hmm
        obtain ⟨seq, hseq, -, hmem⟩ := mem_cueCommands (hmm ▸ hcommand hq)
        exact ((hw.cameraSequences seq hseq).2 _ hmem).shot
      · intro frame hle name z sub hz hsub hbounds
        exact (clamp_pos_iff (hzoomed hle hz).1 hbounds).mpr (hdefined frame hle name z sub hz hsub)

end Shooting

omit [Scalar.Graded K] in
/-- Every camera of a plan is keyed at each frame with the shot of the zoom in effect. -/
lemma plan_keyed {o : PlanOptions K} (h : m.plan o = .ok reel) :
    ∃ s, played o m = .ok (reel.lastFrame, s) ∧ s.sheets.map CueSheet.camera = m.cameras ∧
      List.Forall₂ (fun sheet c => sheet ∈ s.sheets ∧ c.camera = sheet.camera ∧
        sheet.cues.map Cue.command = cueCommands m sheet.camera.name ∧
        Filled c.settings (reel.lastFrame + 1) ∧
        ∀ frame ≤ reel.lastFrame, KeyedAt m.fps o s.subject? sheet c.settings frame)
        s.sheets reel.cameras := by
  have hm := checked_of_issues_nil (issues_nil_of_plan h)
  obtain ⟨s, hplayed, hshows⟩ := plan_ok h
  obtain ⟨s₀, -, hreached, hmovie, hoptions, -, hsheets⟩ := played_reached hm hplayed
  refine ⟨s, hplayed, by rw [hsheets, hreached.cameras_eq], ?_⟩
  refine ((List.forall₂_and_left _ _).mpr ⟨fun sheet hsheet => hsheet, hshows.cameras_shot⟩).imp ?_
  rintro sheet c ⟨hsheet, findings, hshoot⟩
  rw [hmovie, hoptions] at hshoot
  obtain ⟨hcamera, -, hfilled⟩ := shoot?_filled hshoot
  exact ⟨hsheet, hcamera, (sheet_cues hm hplayed hsheet).2, hfilled, shoot?_keyed hshoot⟩

/-- With the default options every focal length that a plan shows is positive, and within the bounds
of the zoom in effect, exactly if the ideal lengths of its zooms are numbers. -/
theorem plan_holds_bounds (h : m.plan Settings.standard.options = .ok reel) :
    ∃ s, played Settings.standard.options m = .ok (reel.lastFrame, s) ∧
      s.sheets.map CueSheet.camera = m.cameras ∧
      List.Forall₂ (fun sheet c => c.camera = sheet.camera ∧
        sheet.cues.map Cue.command = cueCommands m sheet.camera.name ∧
        HoldsBounds m Settings.standard.options reel.lastFrame s.subject? sheet c.settings)
        s.sheets reel.cameras := by
  obtain ⟨s, hplayed, hcameras, hkeyed⟩ := plan_keyed h
  refine ⟨s, hplayed, hcameras, hkeyed.imp ?_⟩
  rintro sheet c ⟨hsheet, hcamera, hcues, hfilled, hkeyed⟩
  exact ⟨hcamera, hcues,
    holdsBounds_of_keyed (issues_nil_of_plan h) hplayed hsheet hkeyed hfilled⟩

end Plans

section Reals

lemma defined_real (x : ℝ) : Scalar.Defined x := by
  unfold Scalar.Defined
  exact beq_self_eq_true x

instance realGraded : Scalar.Graded ℝ where
  not_lt _ _ := not_lt
  not_le _ _ := not_le
  zero := defined_real _
  leastNormal := defined_real _
  greatest := defined_real _
  distance _ _ := defined_real _
  timeSpan _ _ := defined_real _
  le_refl _ := le_refl _
  defined_of_lt _ := ⟨defined_real _, defined_real _⟩
  defined_of_le _ := ⟨defined_real _, defined_real _⟩
  pos_of_le := lt_of_lt_of_le
  twelve := by
    change ((0 : ℕ) : ℝ) < ((12 : ℕ) : ℝ)
    norm_num

/-- On the real line every focal length is positive, and within the bounds of the zoom in effect. -/
theorem real_plan_bounds {m : Movie ℝ} {reel : Reel ℝ}
    (h : m.plan Settings.standard.options = .ok reel) :
    ∃ s, played Settings.standard.options m = .ok (reel.lastFrame, s) ∧
      List.Forall₂ (fun sheet c => (∀ key ∈ c.settings.keys, 0 < key.focalLength) ∧
        ∀ frame ≤ reel.lastFrame, ∀ name z,
          zoomAt? m.fps Settings.standard.options sheet frame = some (name, z) →
          ∃ key, c.settings.keys[frame]? = some key ∧
            z.minFocal ≤ key.focalLength ∧ key.focalLength ≤ z.maxFocal)
        s.sheets reel.cameras := by
  obtain ⟨s, hplayed, -, hkeyed⟩ := plan_keyed h
  refine ⟨s, hplayed, hkeyed.imp ?_⟩
  rintro sheet c ⟨hsheet, -, -, hfilled, hkeyed⟩
  have hbounds := holdsBounds_of_keyed (issues_nil_of_plan h) hplayed hsheet hkeyed hfilled
  constructor
  · intro key hkey
    rw [← zero_real]
    exact (hbounds.positive_iff key hkey).mpr (defined_real _)
  intro frame hframe name z hz
  obtain ⟨sub, key, -, hkey, hiff⟩ := hbounds.bounded_iff frame hframe name z hz
  exact ⟨key, hkey, hiff.mpr (defined_real _)⟩

end Reals

section Colossus

/-- A camera zooms in on an actor who is nearly as tall as machine numbers go. -/
def colossus : Movie Float :=
  { Movie.empty "colossus" 1 with
    actors := [{ Actor.named "A" with height := ⟨1e308, .centimeters⟩ }]
    cameras := [Camera.named "C"]
    script := [.camera ⟨"C", [.autoZoom "A" (some 0.1) none none]⟩] }

/-- The names of the subjects that the cameras of a movie zoom in on at the first frame. -/
def firstSubjects (m : Movie Float) : List (Option String) :=
  match played Settings.standard.options m with
  | .ok (_, s) => s.sheets.map fun sheet =>
    (zoomAt? m.fps Settings.standard.options sheet 0).map Prod.fst
  | .error _ => []

/-- Whether the focal lengths that the cameras of a movie show are undefined. -/
def undefinedFocals (m : Movie Float) : List (List Bool) :=
  match m.plan Settings.standard.options with
  | .ok reel => reel.cameras.map fun c => c.settings.keys.toList.map fun k => k.focalLength.isNaN
  | .error _ => []

lemma colossus_plan : ∃ reel s sheet c z key,
    colossus.plan Settings.standard.options = .ok reel ∧
    played Settings.standard.options colossus = .ok (reel.lastFrame, s) ∧
    s.sheets = [sheet] ∧ reel.cameras = [c] ∧
    zoomAt? colossus.fps Settings.standard.options sheet 0 = some ("A", z) ∧
    c.settings.keys[0]? = some key ∧ ¬Scalar.Defined key.focalLength := by
  have hfocals : undefinedFocals colossus = [[true]] := by decide +kernel
  have hsubjects : firstSubjects colossus = [some "A"] := by decide +kernel
  unfold undefinedFocals at hfocals
  cases h : colossus.plan Settings.standard.options with
  | error e =>
    rw [h] at hfocals
    cases hfocals
  | ok reel =>
    rw [h] at hfocals
    obtain ⟨s, hplayed, -, -⟩ := plan_keyed h
    unfold firstSubjects at hsubjects
    rw [hplayed] at hsubjects
    obtain ⟨sheet, hsheet, hname⟩ := List.map_eq_singleton_iff.mp hsubjects
    obtain ⟨⟨name, z⟩, hz, rfl⟩ := Option.map_eq_some_iff.mp hname
    obtain ⟨c, hc, hkeys⟩ := List.map_eq_singleton_iff.mp hfocals
    obtain ⟨key, hkey, hnan⟩ := List.map_eq_singleton_iff.mp hkeys
    refine ⟨reel, s, sheet, c, z, key, rfl, hplayed, hsheet, hc, hz, ?_, ?_⟩
    · rw [← Array.getElem?_toList, hkey]
      rfl
    · rw [defined_iff, hnan]
      nofun

/-- The movie is planned, and its camera keyed, all the same. -/
theorem colossus_holds_bounds : ∃ reel, colossus.plan Settings.standard.options = .ok reel ∧
    ∃ s, played Settings.standard.options colossus = .ok (reel.lastFrame, s) ∧
      s.sheets.map CueSheet.camera = colossus.cameras ∧
      List.Forall₂ (fun sheet c => c.camera = sheet.camera ∧
        sheet.cues.map Cue.command = cueCommands colossus sheet.camera.name ∧
        HoldsBounds colossus Settings.standard.options reel.lastFrame s.subject? sheet c.settings)
        s.sheets reel.cameras := by
  obtain ⟨reel, -, -, -, -, -, hplan, -⟩ := colossus_plan
  exact ⟨reel, hplan, plan_holds_bounds hplan⟩

/-- What the camera shows while it zooms is neither positive nor within the bounds. -/
theorem colossus_out_of_bounds : (∀ n ∈ colossus.numbers, Scalar.Defined n.value) ∧
    ∃ reel s sheet c z key, colossus.plan Settings.standard.options = .ok reel ∧
      played Settings.standard.options colossus = .ok (reel.lastFrame, s) ∧
      s.sheets = [sheet] ∧ reel.cameras = [c] ∧
      zoomAt? colossus.fps Settings.standard.options sheet 0 = some ("A", z) ∧
      c.settings.keys[0]? = some key ∧ ¬0 < key.focalLength ∧
      ¬(z.minFocal ≤ key.focalLength ∧ key.focalLength ≤ z.maxFocal) := by
  obtain ⟨reel, s, sheet, c, z, key, hplan, hplayed, hsheet, hc, hz, hkey, hundefined⟩ :=
    colossus_plan
  refine ⟨by decide +kernel, reel, s, sheet, c, z, key, hplan, hplayed, hsheet, hc, hz, hkey,
    ?_, ?_⟩
  · exact fun hpos => hundefined (Scalar.Graded.defined_of_lt hpos).2
  · exact fun hbounds => hundefined (Scalar.Graded.defined_of_le hbounds.1).2

end Colossus

end Stagecraft.Proofs
