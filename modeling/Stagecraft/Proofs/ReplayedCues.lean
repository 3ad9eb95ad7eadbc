import Stagecraft.Proofs.CameraShots
import Stagecraft.Proofs.CueSheets
import Stagecraft.Proofs.TillEndStays

/-!
# Replayed cues

A camera takes its cues from the front of its sheet while it is shot. Since the cues stand in the
order of time, the framing at a frame is that of all cues due by then, replayed from the start:
each of its parts is what the last cue on that part set.
-/

namespace Stagecraft.Proofs

section Replays

variable {K : Type}

/-- What the last of the cues that set something sets, and what holds when there is none. -/
def lastSetting {α : Type} (sets : Cue K → Option α) (initial : α) (cues : List (Cue K)) : α :=
  (cues.filterMap sets).getLast?.getD initial

def setsLookAt (o : PlanOptions K) (q : Cue K) : Option (Option (Aim K)) :=
  match q.command with
  | .lookAt subject heightPct => some (some ⟨subject, heightPct.getD o.heightPct⟩)
  | .stopTracking => some none
  | _ => none

def setsFocus (o : PlanOptions K) (q : Cue K) : Option (Option (Aim K)) :=
  match q.command with
  | .autoFocus subject heightPct => some (some ⟨subject, heightPct.getD o.heightPct⟩)
  | .stopTracking => some none
  | _ => none

def setsZoom (c : Camera K) (o : PlanOptions K) (q : Cue K) :
    Option (Option (String × ZoomConfig K)) :=
  match q.command with
  | .autoZoom subject occupancy minFocal maxFocal =>
    some (some (subject, zoomConfig c o occupancy minFocal maxFocal))
  | .setFocalLength _ => some none
  | .stopTracking => some none
  | _ => none

/-- The focal length of a camera that does not zoom; when tracking stops, it stays at what it was
on the frame before. -/
def setsFocal [Scalar K] (rate : FrameRate K) (before : ℕ → K) (q : Cue K) : Option K :=
  match q.command with
  | .setFocalLength mm => some mm
  | .stopTracking => some (before (rate.frameAt q.time))
  | _ => none

/-- The framing after some cues, where `before` gives the focal length before each frame. -/
def replayed [Scalar K] (rate : FrameRate K) (c : Camera K) (o : PlanOptions K) (before : ℕ → K)
    (cues : List (Cue K)) : Framing K where
  lookAt := lastSetting (setsLookAt o) none cues
  focus := lastSetting (setsFocus o) none cues
  zoom := lastSetting (setsZoom c o) none cues
  focalLength := lastSetting (setsFocal rate before) c.focalLength cues

/-- The focal length that a camera had on the frame before. -/
def focalBefore (c : Camera K) (settings : SettingsTrack K) : ℕ → K
  | 0 => c.focalLength
  | f + 1 => (settings.keys[f]?.map SettingsKey.focalLength).getD c.focalLength

lemma lastSetting_append {α : Type} (sets : Cue K → Option α) (initial : α) (cues : List (Cue K))
    (q : Cue K) :
    lastSetting sets initial (cues ++ [q]) = (sets q).getD (lastSetting sets initial cues) := by
  unfold lastSetting
  rw [List.filterMap_append]
  cases h : sets q with
  | none => simp [h]
  | some a => simp [h]

lemma lastSetting_congr {α : Type} {sets sets' : Cue K → Option α} {initial : α}
    {cues : List (Cue K)} (h : ∀ q ∈ cues, sets q = sets' q) :
    lastSetting sets initial cues = lastSetting sets' initial cues := by
  unfold lastSetting
  rw [List.filterMap_congr h]

variable [Scalar K] {rate : FrameRate K} {c : Camera K} {o : PlanOptions K} {before : ℕ → K}
  {cues : List (Cue K)}

lemma replayed_congr {before' : ℕ → K}
    (h : ∀ q ∈ cues, before (rate.frameAt q.time) = before' (rate.frameAt q.time)) :
    replayed rate c o before cues = replayed rate c o before' cues := by
  have hfocal : lastSetting (setsFocal rate before) c.focalLength cues =
      lastSetting (setsFocal rate before') c.focalLength cues := by
    apply lastSetting_congr
    intro q hq
    unfold setsFocal
    rw [h q hq]
  unfold replayed
  rw [hfocal]

/-- One more cue changes the framing as it changes what was replayed. -/
lemma cue_replayed {s : Shooting K} {q : Cue K} (h : s.framing = replayed rate c o before cues)
    (hfocal : s.lastFocal = before (rate.frameAt q.time)) :
    (s.cue c o q).framing = replayed rate c o before (cues ++ [q]) := by
  unfold replayed at h ⊢
  simp only [lastSetting_append, setsLookAt, setsFocus, setsZoom, setsFocal, Shooting.cue]
  cases hq : q.command with
  | lookAt subject heightPct => simp [h]
  | autoFocus subject heightPct => simp [h]
  | autoZoom subject occupancy minFocal maxFocal => simp [h]
  | setFocalLength mm => simp [h]
  | stopTracking => simp [Framing.stopTracking, hfocal]
  | hold duration => simp [h]

omit [Scalar K] in
lemma cue_lastFocal (s : Shooting K) (q : Cue K) : (s.cue c o q).lastFocal = s.lastFocal := by
  unfold Shooting.cue
  cases q.command <;> rfl

lemma cues_replayed {s : Shooting K} {due : List (Cue K)}
    (h : s.framing = replayed rate c o before cues)
    (hfocal : ∀ q ∈ due, s.lastFocal = before (rate.frameAt q.time)) :
    (due.foldl (Shooting.cue c o) s).framing = replayed rate c o before (cues ++ due) := by
  induction due generalizing s cues with
  | nil =>
    rw [List.append_nil]
    exact h
  | cons q due ih =>
    rw [List.append_cons]
    apply ih (cue_replayed h (hfocal q List.mem_cons_self))
    intro p hp
    rw [cue_lastFocal]
    exact hfocal p (List.mem_cons_of_mem q hp)

end Replays

section Orders

variable {α : Type} {p : α → Bool}

/-- A property that holds in front of a list only is that of a front of it. -/
lemma takeWhile_eq_filter {l : List α} (h : l.Pairwise fun a b => p b = true → p a = true) :
    l.takeWhile p = l.filter p ∧ l.dropWhile p = l.filter fun a => !p a := by
  induction l with
  | nil => exact ⟨rfl, rfl⟩
  | cons a l ih =>
    obtain ⟨hfront, hrest⟩ := List.pairwise_cons.mp h
    by_cases hp : p a = true
    · simp [hp, ih hrest]
    · have hnone : ∀ b ∈ l, ¬p b = true := fun b hb hpb => hp (hfront b hb hpb)
      have hfilter : l.filter (fun a => !p a) = l :=
        List.filter_eq_self.mpr fun b hb => by simp [hnone b hb]
      simp [hp, hfilter, List.filter_eq_nil_iff.mpr hnone]

end Orders

section Frames

variable {K : Type} [Scalar K]

/-- The cues of the frame of their moment. -/
def cuesAt (rate : FrameRate K) (sheet : CueSheet K) (frame : ℕ) : List (Cue K) :=
  sheet.cues.filter fun q => rate.frameAt q.time = frame

/-- The framing that all cues due by a frame make. -/
def framingAt (rate : FrameRate K) (o : PlanOptions K) (sheet : CueSheet K)
    (settings : SettingsTrack K) (frame : ℕ) : Framing K :=
  replayed rate sheet.camera o (focalBefore sheet.camera settings)
    (sheet.cues.filter (Shooting.isDue rate frame))

/-- The camera of a sheet when the frames before one are shot. -/
def shotTo? (rate : FrameRate K) (o : PlanOptions K)
    (subject? : ℕ → String → Option (Subject K)) (sheet : CueSheet K) (frame : ℕ) :
    Option (Shooting K) :=
  (List.range frame).foldlM (Shooting.frame? rate sheet.camera o subject?) (Shooting.start sheet)

/-- At a frame the camera takes the cues of that frame, is framed as by all cues due, and keys the
shot of that framing. -/
structure ReplayedAt (rate : FrameRate K) (o : PlanOptions K)
    (subject? : ℕ → String → Option (Subject K)) (sheet : CueSheet K) (transform : TransformTrack K)
    (settings : SettingsTrack K) (frame : ℕ) : Prop where
  taken : ∃ s, shotTo? rate o subject? sheet frame = some s ∧
    s.cues.takeWhile (Shooting.isDue rate frame) = cuesAt rate sheet frame ∧
    (s.advance rate sheet.camera o frame).framing = framingAt rate o sheet settings frame
  shown : ∃ shot, (framingAt rate o sheet settings frame).shot? sheet.camera (subject? frame) =
      some shot ∧ transform.keys[frame]? = some ⟨frame, shot.transform⟩ ∧
    settings.keys[frame]? = some ⟨frame, shot.focalLength, shot.focusDistance⟩

/-- A camera is shot up to a frame, and every frame before replays the cues due. -/
structure ReplayedUpTo (rate : FrameRate K) (o : PlanOptions K)
    (subject? : ℕ → String → Option (Subject K)) (sheet : CueSheet K) (n : ℕ) (s : Shooting K) :
    Prop where
  reached : shotTo? rate o subject? sheet n = some s
  shot : ShotUpTo rate sheet.camera o sheet.cues n s
  lastFocal_eq : s.lastFocal = focalBefore sheet.camera s.settings n
  framing_eq : s.framing = replayed rate sheet.camera o (focalBefore sheet.camera s.settings)
    (sheet.cues.filter (isPast rate n))
  replayed_at : ∀ f < n, ReplayedAt rate o subject? sheet s.transform s.settings f

variable {rate : FrameRate K} {o : PlanOptions K} {subject? : ℕ → String → Option (Subject K)}
  {sheet : CueSheet K} {n : ℕ} {s s' : Shooting K}

/-- The cues of a sheet come in the order of their frames. -/
def InFrameOrder (rate : FrameRate K) (sheet : CueSheet K) : Prop :=
  sheet.cues.Pairwise fun p q => rate.frameAt p.time ≤ rate.frameAt q.time

lemma InFrameOrder.pairwise_isPast (h : InFrameOrder rate sheet) (n : ℕ) :
    sheet.cues.Pairwise fun p q => isPast rate n q = true → isPast rate n p = true := by
  refine List.Pairwise.imp ?_ h
  intro p q hpq hq
  unfold isPast at hq ⊢
  simp only [decide_eq_true_eq] at hq ⊢
  exact hpq.trans_lt hq

/-- The cues still to come whose frame is reached are those of the frame. -/
lemma InFrameOrder.due_eq (h : InFrameOrder rate sheet) (n : ℕ) :
    (sheet.cues.dropWhile (isPast rate n)).takeWhile (isPast rate (n + 1)) =
      cuesAt rate sheet n := by
  have hrest := (h.pairwise_isPast (n + 1)).sublist (List.dropWhile_sublist (isPast rate n))
  rw [(takeWhile_eq_filter hrest).1, (takeWhile_eq_filter (h.pairwise_isPast n)).2,
    List.filter_filter]
  unfold cuesAt
  apply List.filter_congr
  intro q _
  unfold isPast
  rw [Bool.eq_iff_iff]
  simp only [Bool.and_eq_true, Bool.not_eq_true', decide_eq_true_eq, decide_eq_false_iff_not]
  omega

lemma InFrameOrder.past_append (h : InFrameOrder rate sheet) (n : ℕ) :
    sheet.cues.filter (isPast rate n) ++ cuesAt rate sheet n =
      sheet.cues.filter (isPast rate (n + 1)) := by
  have hmono : ∀ q : Cue K, isPast rate n q = true → isPast rate (n + 1) q = true := isPast_mono
  rw [← h.due_eq, ← (takeWhile_eq_filter (h.pairwise_isPast n)).1,
    ← (takeWhile_eq_filter (h.pairwise_isPast (n + 1))).1]
  exact (takeWhile_append_takeWhile hmono sheet.cues).1

/-- Taking the cues of each frame up to the last takes every cue once, in the order of the
sheet. -/
lemma InFrameOrder.flatMap_cuesAt (h : InFrameOrder rate sheet) {last : ℕ}
    (hlast : ∀ q ∈ sheet.cues, rate.frameAt q.time ≤ last) :
    (List.range (last + 1)).flatMap (cuesAt rate sheet) = sheet.cues := by
  have hpast : ∀ n, (List.range n).flatMap (cuesAt rate sheet) =
      sheet.cues.filter (isPast rate n) := by
    intro n
    induction n with
    | zero => simp [isPast]
    | succ n ih =>
      rw [List.range_succ, List.flatMap_append, List.flatMap_singleton, ih, h.past_append]
  rw [hpast, List.filter_eq_self]
  intro q hq
  exact decide_eq_true (Nat.lt_succ_of_le (hlast q hq))

lemma start_replayedUpTo : ReplayedUpTo rate o subject? sheet 0 (Shooting.start sheet) where
  reached := rfl
  shot := start_shotUpTo sheet
  lastFocal_eq := rfl
  framing_eq := by
    have hnone : sheet.cues.filter (isPast rate 0) = [] := by simp [isPast]
    rw [hnone]
    rfl
  replayed_at := nofun

omit [Scalar K] in
lemma focalBefore_push {c : Camera K} {t : SettingsTrack K} (h : Filled t n) {key : SettingsKey K}
    (hkey : key.frame = n) {f : ℕ} (hf : f ≤ n) :
    focalBefore c (t.push key) f = focalBefore c t f := by
  cases f with
  | zero => rfl
  | succ f =>
    rw [focalBefore, focalBefore, (h.push_next_getElem? hkey).2 f hf]

/-- Before a frame is shot, the cues due by then are replayed. -/
lemma advance_replayed (horder : InFrameOrder rate sheet)
    (h : ReplayedUpTo rate o subject? sheet n s) :
    s.cues.takeWhile (Shooting.isDue rate n) = cuesAt rate sheet n ∧
      (s.advance rate sheet.camera o n).framing = framingAt rate o sheet s.settings n := by
  have hdue : s.cues.takeWhile (Shooting.isDue rate n) = cuesAt rate sheet n := by
    rw [h.shot.cues_eq, isDue_eq_isPast]
    exact horder.due_eq n
  refine ⟨hdue, ?_⟩
  have hfocal : ∀ q ∈ cuesAt rate sheet n,
      s.lastFocal = focalBefore sheet.camera s.settings (rate.frameAt q.time) := by
    intro q hq
    have hframe : rate.frameAt q.time = n := of_decide_eq_true (List.mem_filter.mp hq).2
    rw [hframe]
    exact h.lastFocal_eq
  have hcues := cues_replayed h.framing_eq hfocal
  rw [horder.past_append, ← isDue_eq_isPast] at hcues
  unfold Shooting.advance
  rw [hdue]
  exact hcues

lemma framingAt_push {t : SettingsTrack K} (h : Filled t n) {key : SettingsKey K}
    (hkey : key.frame = n) {f : ℕ} (hf : f ≤ n) :
    framingAt rate o sheet (t.push key) f = framingAt rate o sheet t f := by
  apply replayed_congr
  intro q hq
  have hdue : rate.frameAt q.time ≤ f := of_decide_eq_true (List.mem_filter.mp hq).2
  exact focalBefore_push h hkey (hdue.trans hf)

/-- A shot frame keys the shot of the framing in effect. -/
lemma frame?_ok (hs : s.frame? rate sheet.camera o subject? n = some s') :
    ∃ shot, (s.advance rate sheet.camera o n).framing.shot? sheet.camera (subject? n) = some shot ∧
      s'.framing = (s.advance rate sheet.camera o n).framing ∧
      s'.lastFocal = shot.focalLength ∧
      s'.transform = s.transform.push ⟨n, shot.transform⟩ ∧
      s'.settings = s.settings.push ⟨n, shot.focalLength, shot.focusDistance⟩ := by
  obtain ⟨htransform, hsettings⟩ :=
    cues_keep_tracks sheet.camera o (s.cues.takeWhile (Shooting.isDue rate n)) s
  obtain ⟨shot, hshot, hs'⟩ := Option.bind_eq_some_iff.mp hs
  cases hs'
  exact ⟨shot, hshot, rfl, rfl, congrArg (Track.push · _) htransform,
    congrArg (Track.push · _) hsettings⟩

/-- What was replayed at a frame stays so when later frames are keyed. -/
lemma ReplayedAt.push {t : TransformTrack K} {t' : SettingsTrack K} {f : ℕ}
    (h : ReplayedAt rate o subject? sheet t t' f) (ht : Filled t n) (ht' : Filled t' n)
    {key : TransformKey K} {key' : SettingsKey K} (hkey : key.frame = n) (hkey' : key'.frame = n)
    (hf : f < n) : ReplayedAt rate o subject? sheet (t.push key) (t'.push key') f := by
  obtain ⟨htaken, hshown⟩ := h
  rw [← framingAt_push ht' hkey' hf.le] at htaken hshown
  rw [← (ht.push_next_getElem? hkey).2 f hf, ← (ht'.push_next_getElem? hkey').2 f hf] at hshown
  exact ⟨htaken, hshown⟩

lemma frame?_replayedUpTo (horder : InFrameOrder rate sheet)
    (h : ReplayedUpTo rate o subject? sheet n s)
    (hs : s.frame? rate sheet.camera o subject? n = some s') :
    ReplayedUpTo rate o subject? sheet (n + 1) s' := by
  have htransform := h.shot.transform
  have hsettings := h.shot.settings
  obtain ⟨hdue, hframing⟩ := advance_replayed horder h
  obtain ⟨shot, hshot, hframing', hfocal, ht, ht'⟩ := frame?_ok hs
  have hkept : framingAt rate o sheet s'.settings n = framingAt rate o sheet s.settings n := by
    rw [ht']
    exact framingAt_push hsettings rfl le_rfl
  have hkey : s'.settings.keys[n]? = some ⟨n, shot.focalLength, shot.focusDistance⟩ := by
    rw [ht']
    exact (hsettings.push_next_getElem? rfl).1
  refine ⟨?_, frame?_shotUpTo h.shot hs, ?_, ?_, ?_⟩
  · unfold shotTo?
    rw [List.range_succ, List.foldlM_append]
    refine Option.bind_eq_some_iff.mpr ⟨s, h.reached, ?_⟩
    rw [List.foldlM_cons, hs]
    rfl
  · rw [focalBefore, hkey, hfocal]
    rfl
  · rw [hframing', hframing, ← hkept, ← isDue_eq_isPast]
    rfl
  · intro f hf
    rcases Nat.lt_succ_iff_lt_or_eq.mp hf with hlt | rfl
    · rw [ht, ht']
      exact (h.replayed_at f hlt).push htransform hsettings rfl rfl hlt
    · refine ⟨⟨s, h.reached, hdue, ?_⟩, shot, ?_, ?_, hkey⟩
      · rw [hkept]
        exact hframing
      · rw [hkept, ← hframing]
        exact hshot
      · rw [ht]
        exact (htransform.push_next_getElem? rfl).1

/-- A camera that is shot replays at every frame the cues due by then. -/
theorem shoot?_replayed (horder : InFrameOrder rate sheet) {last : ℕ} {reel : CameraReel K}
    {findings : List (ℕ × Finding K)}
    (h : sheet.shoot? rate o subject? last = some (reel, findings)) :
    ∀ f ≤ last, ReplayedAt rate o subject? sheet reel.transform reel.settings f := by
  obtain ⟨done, hdone, hreel⟩ := Option.bind_eq_some_iff.mp h
  cases hreel
  have hreplayed := range_foldlM_induction (P := ReplayedUpTo rate o subject? sheet)
    start_replayedUpTo (fun _ _ _ => frame?_replayedUpTo horder) hdone
  exact fun f hf => hreplayed.replayed_at f (Nat.lt_succ_of_le hf)

end Frames

section Plans

variable {m : Movie ℝ} {o : PlanOptions ℝ} {reel : Reel ℝ}

/-- A camera of a plan is cued by the commands that the script gives it, takes each of its cues at
one frame of the movie, that of the cue's moment, and replays at every frame all cues due. -/
structure Replays (m : Movie ℝ) (o : PlanOptions ℝ) (last : ℕ)
    (subject? : ℕ → String → Option (Subject ℝ)) (sheet : CueSheet ℝ) (c : CameraReel ℝ) :
    Prop where
  camera_eq : c.camera = sheet.camera
  in_order : CuesInOrder (cueCommands m c.camera.name) sheet
  by_last : ∀ q ∈ sheet.cues, m.fps.frameAt q.time ≤ last
  taken_once : (List.range (last + 1)).flatMap (cuesAt m.fps sheet) = sheet.cues
  replayed_at : ∀ f ≤ last, ReplayedAt m.fps o subject? sheet c.transform c.settings f

/-- Every camera of a plan replays at each frame the cues that are due, in the order of the
script, and no cue is lost, delayed or taken twice. -/
theorem plan_replays_cues (h : m.plan o = .ok reel) :
    ∃ s, played o m = .ok (reel.lastFrame, s) ∧
      reel.cameras.map CameraReel.camera = m.cameras ∧
      List.Forall₂ (Replays m o reel.lastFrame s.subject?) s.sheets reel.cameras := by
  have hv := valid_of_issues_nil (issues_nil_of_plan h)
  obtain ⟨s, hplayed, hshows⟩ := plan_ok h
  have hfollows := played_follows hv hplayed
  have hcued : List.Forall₂ (Replays m o reel.lastFrame s.subject?) s.sheets reel.cameras := by
    refine ((List.forall₂_and_left _ _).mpr
      ⟨played_cuesInOrder hv hplayed, hshows.cameras_shot⟩).imp ?_
    rintro sheet c ⟨⟨hcues, hlast⟩, findings, hshoot⟩
    rw [hfollows.movie_eq, hfollows.options_eq] at hshoot
    have horder : InFrameOrder m.fps sheet :=
      hcues.ordered.imp fun hpq => frameAt_mono hv.rate_pos hpq
    have hcamera := (shoot?_filled hshoot).1
    refine ⟨hcamera, ?_, hlast, horder.flatMap_cuesAt hlast, shoot?_replayed horder hshoot⟩
    rw [hcamera]
    exact hcues
  refine ⟨s, hplayed, ?_, hcued⟩
  rw [← start_cameras m o, ← hfollows.cameras_eq]
  exact (map_eq_of_forall₂ (hcued.imp fun _ _ hc => hc.camera_eq.symm)).symm

theorem overstay_replays_cues :
    ∃ reel, overstay.plan Settings.standard.options = .ok reel ∧
      ∃ s, played Settings.standard.options overstay = .ok (reel.lastFrame, s) ∧
        reel.cameras.map CameraReel.camera = overstay.cameras ∧
        List.Forall₂ (Replays overstay Settings.standard.options reel.lastFrame s.subject?)
          s.sheets reel.cameras := by
  obtain ⟨reel, hplan, -⟩ := overstay_plan (o := Settings.standard.options)
  exact ⟨reel, hplan, plan_replays_cues hplan⟩

end Plans

end Stagecraft.Proofs
