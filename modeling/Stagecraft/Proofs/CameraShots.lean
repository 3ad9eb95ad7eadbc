import Stagecraft.Plan.Shooting
import Stagecraft.Proofs.FilledTracks

/-!
# Shots of a camera

A camera is shot frame by frame. `ShotUpTo` is what holds after so many frames: the tracks have a
key at each of them, and the zoom in effect is the one of the last cue on a zoom that was due. So
shooting fails exactly at a frame where that zoom has its bounds crossed.
-/

namespace Stagecraft.Proofs

section Loops

lemma bind_some_eq_none_iff {α β : Type} {x : Option α} {g : α → β} :
    (x >>= fun a => some (g a)) = none ↔ x = none := by
  cases x with
  | none => simp
  | some a => simp

variable {σ : Type} {f : σ → ℕ → Option σ} {P : ℕ → σ → Prop} {s : σ}

/-- What each round of a loop over frames keeps holds after the last. -/
lemma range_foldlM_induction (hstart : P 0 s)
    (hround : ∀ n s s', P n s → f s n = some s' → P (n + 1) s') {n : ℕ} {t : σ}
    (h : (List.range n).foldlM f s = some t) : P n t := by
  induction n generalizing t with
  | zero =>
    cases h
    exact hstart
  | succ n ih =>
    rw [List.range_succ, List.foldlM_append] at h
    obtain ⟨q, hq, hlast⟩ := Option.bind_eq_some_iff.mp h
    rw [List.foldlM_cons] at hlast
    obtain ⟨t', ht', hdone⟩ := Option.bind_eq_some_iff.mp hlast
    cases hdone
    exact hround n q t (ih hq) ht'

/-- Loops over frames whose rounds agree at the states they reach agree. -/
lemma range_foldlM_congr {g : σ → ℕ → Option σ} (hstart : P 0 s)
    (hround : ∀ n s s', P n s → g s n = some s' → P (n + 1) s')
    (hsame : ∀ n s, P n s → f s n = g s n) (n : ℕ) :
    (List.range n).foldlM f s = (List.range n).foldlM g s := by
  induction n with
  | zero => rfl
  | succ n ih =>
    rw [List.range_succ, List.foldlM_append, List.foldlM_append, ih]
    refine Option.bind_congr fun q hq => ?_
    rw [List.foldlM_cons, List.foldlM_cons, hsame n q (range_foldlM_induction hstart hround hq)]
    rfl

/-- A loop over frames fails exactly when one of its rounds does. -/
lemma range_foldlM_eq_none_iff (hstart : P 0 s)
    (hround : ∀ n s s', P n s → f s n = some s' → P (n + 1) s') {Q : ℕ → Prop}
    (hfails : ∀ n s, P n s → (f s n = none ↔ Q n)) (n : ℕ) :
    (List.range n).foldlM f s = none ↔ ∃ k < n, Q k := by
  induction n with
  | zero => simp
  | succ n ih =>
    rw [List.range_succ, List.foldlM_append]
    cases hfront : (List.range n).foldlM f s with
    | none =>
      obtain ⟨k, hk, hQ⟩ := ih.mp hfront
      exact iff_of_true rfl ⟨k, Nat.lt_succ_of_lt hk, hQ⟩
    | some q =>
      have hlast := hfails n q (range_foldlM_induction hstart hround hfront)
      have hfront' : ¬∃ k < n, Q k := by
        rw [← ih, hfront]
        exact Option.some_ne_none q
      have hround' : [n].foldlM f q = none ↔ f q n = none := by
        simp
      refine (hround'.trans hlast).trans ⟨fun hQ => ⟨n, Nat.lt_succ_self n, hQ⟩, ?_⟩
      rintro ⟨k, hk, hQ⟩
      rcases Nat.lt_succ_iff_lt_or_eq.mp hk with hk | rfl
      · exact absurd ⟨k, hk, hQ⟩ hfront'
      · exact hQ

end Loops

section Cues

variable {K : Type}

/-- The cue whose automatic zoom is in effect after another cue. -/
def zoomCue (z : Option (Cue K)) (q : Cue K) : Option (Cue K) :=
  match q.command with
  | .autoZoom _ _ _ _ => some q
  | .setFocalLength _ => none
  | .stopTracking => none
  | _ => z

/-- The zoom a cue asks for. -/
def zoomOf (c : Camera K) (o : PlanOptions K) (q : Cue K) : Option (String × ZoomConfig K) :=
  match q.command with
  | .autoZoom subject occupancy minFocal maxFocal =>
    some (subject, zoomConfig c o occupancy minFocal maxFocal)
  | _ => none

lemma cue_zoom {c : Camera K} {o : PlanOptions K} {s : Shooting K} {z : Option (Cue K)}
    (h : s.framing.zoom = z.bind (zoomOf c o)) (q : Cue K) :
    (s.cue c o q).framing.zoom = (zoomCue z q).bind (zoomOf c o) := by
  unfold Shooting.cue zoomCue
  cases hq : q.command with
  | lookAt subject heightPct => exact h
  | autoFocus subject heightPct => exact h
  | autoZoom subject occupancy minFocal maxFocal => simp [zoomOf, hq]
  | setFocalLength mm => rfl
  | stopTracking => rfl
  | hold duration => exact h

lemma cues_zoom {c : Camera K} {o : PlanOptions K} {s : Shooting K} {z : Option (Cue K)}
    (h : s.framing.zoom = z.bind (zoomOf c o)) (l : List (Cue K)) :
    (l.foldl (Shooting.cue c o) s).framing.zoom = (l.foldl zoomCue z).bind (zoomOf c o) := by
  induction l generalizing s z with
  | nil => exact h
  | cons q l ih => exact ih (cue_zoom h q)

lemma cues_keep_tracks (c : Camera K) (o : PlanOptions K) (l : List (Cue K)) (s : Shooting K) :
    (l.foldl (Shooting.cue c o) s).transform = s.transform ∧
      (l.foldl (Shooting.cue c o) s).settings = s.settings := by
  induction l generalizing s with
  | nil => exact ⟨rfl, rfl⟩
  | cons q l ih =>
    obtain ⟨ht, hs⟩ := ih (s.cue c o q)
    have hcue : (s.cue c o q).transform = s.transform ∧ (s.cue c o q).settings = s.settings := by
      unfold Shooting.cue
      cases q.command <;> exact ⟨rfl, rfl⟩
    exact ⟨ht.trans hcue.1, hs.trans hcue.2⟩

lemma foldl_zoomCue_eq_some {l : List (Cue K)} {z : Option (Cue K)} {q : Cue K}
    (h : l.foldl zoomCue z = some q) : z = some q ∨ q ∈ l ∧
      ∃ subject occupancy minFocal maxFocal,
        q.command = .autoZoom subject occupancy minFocal maxFocal := by
  induction l generalizing z with
  | nil => exact Or.inl h
  | cons a l ih =>
    rcases ih h with hz | ⟨hq, hzoom⟩
    · unfold zoomCue at hz
      cases ha : a.command with
      | autoZoom subject occupancy minFocal maxFocal =>
        simp only [ha, Option.some.injEq] at hz
        subst hz
        exact Or.inr ⟨List.mem_cons_self, subject, occupancy, minFocal, maxFocal, ha⟩
      | setFocalLength mm => simp [ha] at hz
      | stopTracking => simp [ha] at hz
      | lookAt | autoFocus | hold =>
        simp only [ha] at hz
        exact Or.inl hz
    · exact Or.inr ⟨List.mem_cons_of_mem a hq, hzoom⟩

lemma takeWhile_append_takeWhile {α : Type} {p q : α → Bool} (h : ∀ a, p a = true → q a = true)
    (l : List α) :
    l.takeWhile p ++ (l.dropWhile p).takeWhile q = l.takeWhile q ∧
      (l.dropWhile p).dropWhile q = l.dropWhile q := by
  induction l with
  | nil => exact ⟨rfl, rfl⟩
  | cons a l ih =>
    by_cases hp : p a = true
    · simp [hp, h a hp, ih.1, ih.2]
    · simp [hp]

end Cues

section Shooting

variable {K : Type} [Scalar K] {rate : FrameRate K} {c : Camera K} {o : PlanOptions K}
  {subject? : ℕ → String → Option (Subject K)} {n : ℕ} {s s' : Shooting K} {cues : List (Cue K)}

/-- A cue that comes before a frame. -/
def isPast (rate : FrameRate K) (frame : ℕ) (q : Cue K) : Bool :=
  decide (rate.frameAt q.time < frame)

/-- The cue whose automatic zoom is in effect before a frame. -/
def zoomBefore (rate : FrameRate K) (cues : List (Cue K)) (frame : ℕ) : Option (Cue K) :=
  (cues.takeWhile (isPast rate frame)).foldl zoomCue none

/-- A zoom in effect was asked for. -/
lemma zoomBefore_eq_some {cues : List (Cue K)} {frame : ℕ} {q : Cue K}
    (h : zoomBefore rate cues frame = some q) : q ∈ cues ∧
      ∃ subject occupancy minFocal maxFocal,
        q.command = .autoZoom subject occupancy minFocal maxFocal := by
  rcases foldl_zoomCue_eq_some h with hnone | ⟨hq, hzoom⟩
  · cases hnone
  · exact ⟨(List.takeWhile_sublist _).subset hq, hzoom⟩

/-- A camera that is shot up to a frame. -/
structure ShotUpTo (rate : FrameRate K) (c : Camera K) (o : PlanOptions K) (cues : List (Cue K))
    (n : ℕ) (s : Shooting K) : Prop where
  transform : Filled s.transform n
  settings : Filled s.settings n
  cues_eq : s.cues = cues.dropWhile (isPast rate n)
  zoom_eq : s.framing.zoom = (zoomBefore rate cues n).bind (zoomOf c o)

lemma isDue_eq_isPast (n : ℕ) : Shooting.isDue rate n = isPast rate (n + 1) := by
  funext q
  unfold Shooting.isDue isPast
  exact decide_eq_decide.mpr Nat.lt_add_one_iff.symm

lemma isPast_mono (q : Cue K) (h : isPast rate n q = true) : isPast rate (n + 1) q = true := by
  unfold isPast at h ⊢
  exact decide_eq_true (Nat.lt_succ_of_lt (of_decide_eq_true h))

lemma start_shotUpTo (sheet : CueSheet K) :
    ShotUpTo rate sheet.camera o sheet.cues 0 (Shooting.start sheet) := by
  have hnone : ∀ q : Cue K, isPast rate 0 q = false := fun q => decide_eq_false (Nat.not_lt_zero _)
  refine ⟨Filled.empty, Filled.empty, ?_, ?_⟩
  · cases h : sheet.cues with
    | nil => simp [Shooting.start, h]
    | cons q l => simp [Shooting.start, h, hnone]
  · unfold zoomBefore
    cases h : sheet.cues with
    | nil => rfl
    | cons q l => simp [Shooting.start, Framing.initial, hnone]

/-- Before a frame is shot, the cues that are due take effect. -/
lemma advance_zoom (h : ShotUpTo rate c o cues n s) :
    (s.advance rate c o n).cues = cues.dropWhile (isPast rate (n + 1)) ∧
      (s.advance rate c o n).framing.zoom =
        (zoomBefore rate cues (n + 1)).bind (zoomOf c o) := by
  have hmono : ∀ q : Cue K, isPast rate n q = true → isPast rate (n + 1) q = true := isPast_mono
  obtain ⟨htake, hdrop⟩ := takeWhile_append_takeWhile hmono cues
  unfold Shooting.advance
  rw [isDue_eq_isPast, h.cues_eq]
  refine ⟨hdrop, ?_⟩
  unfold zoomBefore
  rw [← htake, List.foldl_append]
  exact cues_zoom h.zoom_eq _

lemma frame?_shotUpTo (h : ShotUpTo rate c o cues n s)
    (hs : s.frame? rate c o subject? n = some s') : ShotUpTo rate c o cues (n + 1) s' := by
  obtain ⟨hcues, hzoom⟩ := advance_zoom h
  obtain ⟨htransform, hsettings⟩ :=
    cues_keep_tracks c o (s.cues.takeWhile (Shooting.isDue rate n)) s
  obtain ⟨shot, -, hshot⟩ := Option.bind_eq_some_iff.mp hs
  cases hshot
  refine ⟨?_, ?_, hcues, hzoom⟩
  · apply Filled.push_next_filled _ rfl
    unfold Shooting.advance
    rw [htransform]
    exact h.transform
  · apply Filled.push_next_filled _ rfl
    unfold Shooting.advance
    rw [hsettings]
    exact h.settings

/-- A camera that is shot at all is shot at every frame, and nowhere else. -/
theorem shoot?_filled {last : ℕ} {sheet : CueSheet K} {reel : CameraReel K}
    {findings : List (ℕ × Finding K)}
    (h : sheet.shoot? rate o subject? last = some (reel, findings)) :
    reel.camera = sheet.camera ∧ Filled reel.transform (last + 1) ∧
      Filled reel.settings (last + 1) := by
  obtain ⟨done, hdone, hreel⟩ := Option.bind_eq_some_iff.mp h
  cases hreel
  have hshot := range_foldlM_induction (P := ShotUpTo rate sheet.camera o sheet.cues)
    (start_shotUpTo sheet) (fun _ _ _ => frame?_shotUpTo) hdone
  exact ⟨rfl, hshot.transform, hshot.settings⟩

/-- A shot is refused when its zoom is to be solved between bounds that are out of order. -/
lemma shot?_eq_none_iff {f : Framing K} {subject? : String → Option (Subject K)} :
    f.shot? c subject? = none ↔ ∃ z sub, f.zoom = some z ∧ subject? z.1 = some sub ∧
      ¬z.2.minFocal ≤ z.2.maxFocal := by
  unfold Framing.shot?
  cases hz : f.zoom with
  | none => simp
  | some z =>
    cases hsub : subject? z.1 with
    | none => simp [hsub]
    | some sub =>
      by_cases hle : z.2.minFocal ≤ z.2.maxFocal
      · simp [hsub, hle, ZoomConfig.solve?, Scalar.clamp?]
      · simp [hsub, hle, ZoomConfig.solve?, Scalar.clamp?]

/-- The zoom in effect at a frame has its bounds out of order. -/
def ZoomCrossed (rate : FrameRate K) (o : PlanOptions K)
    (subject? : ℕ → String → Option (Subject K)) (sheet : CueSheet K) (frame : ℕ) : Prop :=
  ∃ z sub, (zoomBefore rate sheet.cues (frame + 1)).bind (zoomOf sheet.camera o) = some z ∧
    subject? frame z.1 = some sub ∧ ¬z.2.minFocal ≤ z.2.maxFocal

/-- A camera cannot be shot exactly when its zoom is crossed at some frame. -/
theorem shoot?_eq_none_iff {last : ℕ} {sheet : CueSheet K} :
    sheet.shoot? rate o subject? last = none ↔
      ∃ frame ≤ last, ZoomCrossed rate o subject? sheet frame := by
  have hfails : ∀ n s, ShotUpTo rate sheet.camera o sheet.cues n s →
      (s.frame? rate sheet.camera o subject? n = none ↔ ZoomCrossed rate o subject? sheet n) := by
    intro n s h
    unfold ZoomCrossed
    rw [← (advance_zoom h).2, ← shot?_eq_none_iff (c := sheet.camera)]
    exact bind_some_eq_none_iff
  have hround : ∀ n s s', ShotUpTo rate sheet.camera o sheet.cues n s →
      s.frame? rate sheet.camera o subject? n = some s' →
      ShotUpTo rate sheet.camera o sheet.cues (n + 1) s' := fun _ _ _ => frame?_shotUpTo
  have hloop := range_foldlM_eq_none_iff (start_shotUpTo sheet) hround hfails (last + 1)
  simp only [Nat.lt_add_one_iff] at hloop
  rw [← hloop]
  exact bind_some_eq_none_iff

/-- A camera that cannot be shot is told to zoom. -/
lemma exists_zoom_of_shoot?_eq_none {last : ℕ} {sheet : CueSheet K}
    (h : sheet.shoot? rate o subject? last = none) : ∃ q ∈ sheet.cues,
      ∃ subject occupancy minFocal maxFocal,
        q.command = .autoZoom subject occupancy minFocal maxFocal := by
  obtain ⟨frame, -, z, sub, hz, -⟩ := shoot?_eq_none_iff.mp h
  obtain ⟨q, hq, -⟩ := Option.bind_eq_some_iff.mp hz
  exact ⟨q, zoomBefore_eq_some hq⟩

end Shooting

end Stagecraft.Proofs
