import Stagecraft.Proofs.CameraShots

/-!
# Tallies of zooms

A camera counts the frames on which the zoom in effect is held at its bounds, and reports the count
when that zoom ends, which may be long after its command was met. A report carries the index of
the command that asked for the zoom, and counts the frames of that zoom and of no other.
-/

namespace Stagecraft.Proofs

section Holds

variable {K : Type} [Scalar K]

/-- A zoom on a subject is held at one of its bounds. -/
def isHeld (c : Camera K) (subject? : String → Option (Subject K))
    (zoom : String × ZoomConfig K) : Bool :=
  match subject? zoom.1 with
  | none => false
  | some s =>
    let distance := (Framing.base c subject?).location.distance
      (Optics.trackedPoint s.location s.height 0.5)
    (zoom.2.solve? c.sensorHeight distance s.height).any ZoomSolution.clamped

lemma shot?_zoomClamped {f : Framing K} {c : Camera K} {subject? : String → Option (Subject K)}
    {shot : Shot K} (h : f.shot? c subject? = some shot) :
    shot.zoomClamped = f.zoom.any (isHeld c subject?) := by
  unfold Framing.shot? at h
  cases hz : f.zoom with
  | none =>
    simp only [hz, Option.bind_none] at h
    cases h
    rfl
  | some z =>
    cases hsub : subject? z.1 with
    | none =>
      simp only [hz, hsub, Option.bind_some, Option.map_none] at h
      cases h
      simp [isHeld, hsub]
    | some sub =>
      simp only [hz, hsub, Option.bind_some, Option.map_some] at h
      obtain ⟨zoom, hzoom, h⟩ := Option.bind_eq_some_iff.mp h
      cases h
      simp [isHeld, hsub, hzoom]

/-- The zoom in effect at a frame is that of the command with an index, and is held at one of its
bounds. -/
def isHeldAt (rate : FrameRate K) (o : PlanOptions K) (subject? : ℕ → String → Option (Subject K))
    (sheet : CueSheet K) (index frame : ℕ) : Bool :=
  (zoomBefore rate sheet.cues (frame + 1)).any fun q =>
    q.index == index && (zoomOf sheet.camera o q).any (isHeld sheet.camera (subject? frame))

/-- On how many of the first frames the zoom of the command with an index is held at a bound. -/
def heldFrames (rate : FrameRate K) (o : PlanOptions K)
    (subject? : ℕ → String → Option (Subject K)) (sheet : CueSheet K) (index n : ℕ) : ℕ :=
  (List.range n).countP (isHeldAt rate o subject? sheet index)

end Holds

section Cues

variable {K : Type} {held : ℕ → ℕ} {z : Option (Cue K)} {q : Cue K} {l : List (Cue K)}
  {s : Shooting K}

/-- The tally and the reports of a camera agree with the number of frames that each zoom was held,
where a cue for the zoom in effect and cues still to come are given. -/
structure TalliedBy (held : ℕ → ℕ) (z : Option (Cue K)) (l : List (Cue K)) (s : Shooting K) :
    Prop where
  tally_eq : s.tally = z.map fun q => ⟨q.index, held q.index⟩
  reported : ∀ f ∈ s.findings, 0 < held f.1 ∧ f.2 = .zoomClamped (held f.1)
  ended : ∀ f ∈ s.findings, ∀ q ∈ z.toList ++ l, q.index ≠ f.1
  ahead : ∀ q ∈ l, held q.index = 0
  distinct : ((z.toList ++ l).map Cue.index).Nodup

namespace TalliedBy

/-- A zoom that ends is reported, if it was held at all. -/
lemma endTally (h : TalliedBy held z l s) : TalliedBy held none l s.endTally := by
  have hrest : ∀ q ∈ l, q ∈ z.toList ++ l := fun q hq => List.mem_append_right _ hq
  have hdistinct : (l.map Cue.index).Nodup := by
    have hnodup := h.distinct
    rw [List.map_append] at hnodup
    exact (List.nodup_append.mp hnodup).2.1
  have hfindings : ∀ f ∈ s.endTally.findings, f ∈ s.findings ∨ ∃ q, z = some q ∧
      0 < held q.index ∧ f = (q.index, .zoomClamped (held q.index)) := by
    intro f hf
    rcases List.mem_append.mp hf with hf | hf
    · exact Or.inl hf
    · right
      rw [h.tally_eq] at hf
      cases z with
      | none => cases hf
      | some q =>
        obtain ⟨hpos, hf⟩ := List.mem_ite_nil_right.mp hf
        exact ⟨q, rfl, hpos, List.mem_singleton.mp hf⟩
  refine ⟨rfl, ?_, ?_, h.ahead, hdistinct⟩
  · intro f hf
    rcases hfindings f hf with hf | ⟨q, -, hpos, rfl⟩
    · exact h.reported f hf
    · exact ⟨hpos, rfl⟩
  · intro f hf q hq
    rcases hfindings f hf with hf | ⟨q', rfl, -, rfl⟩
    · exact h.ended f hf q (hrest q hq)
    · intro heq
      have hnodup := h.distinct
      rw [Option.toList_some, List.singleton_append, List.map_cons, List.nodup_cons] at hnodup
      exact hnodup.1 (List.mem_map.mpr ⟨q, hq, heq⟩)

/-- A cue that leaves the zoom as it is. -/
lemma skip (h : TalliedBy held z (q :: l) s) : TalliedBy held z l s where
  tally_eq := h.tally_eq
  reported := h.reported
  ended f hf p hp := by
    apply h.ended f hf p
    rw [List.mem_append] at hp ⊢
    exact hp.imp_right (List.mem_cons_of_mem q)
  ahead p hp := h.ahead p (List.mem_cons_of_mem q hp)
  distinct := by
    have hsublist : (z.toList ++ l).Sublist (z.toList ++ q :: l) :=
      (List.sublist_cons_self q l).append_left z.toList
    exact h.distinct.sublist (hsublist.map Cue.index)

/-- A cue begins a zoom where none is in effect. -/
lemma starts (h : TalliedBy held none (q :: l) s) :
    TalliedBy held (some q) l { s with tally := some ⟨q.index, 0⟩ } where
  tally_eq := by rw [Option.map_some, h.ahead q List.mem_cons_self]
  reported := h.reported
  ended := h.ended
  ahead p hp := h.ahead p (List.mem_cons_of_mem q hp)
  distinct := h.distinct

lemma reframed (h : TalliedBy held z l s) (framing : Framing K) :
    TalliedBy held z l { s with framing := framing } :=
  ⟨h.tally_eq, h.reported, h.ended, h.ahead, h.distinct⟩

/-- Each cue ends and begins zooms as it is counted. -/
lemma cue (h : TalliedBy held z (q :: l) s) (c : Camera K) (o : PlanOptions K) :
    TalliedBy held (zoomCue z q) l (s.cue c o q) := by
  unfold Shooting.cue zoomCue
  cases q.command with
  | lookAt subject heightPct => exact h.skip.reframed _
  | autoFocus subject heightPct => exact h.skip.reframed _
  | autoZoom subject occupancy minFocal maxFocal => exact h.endTally.starts.reframed _
  | setFocalLength mm => exact h.endTally.skip.reframed _
  | stopTracking => exact h.endTally.skip.reframed _
  | hold duration => exact h.skip

lemma cues {due : List (Cue K)} (h : TalliedBy held z (due ++ l) s) (c : Camera K)
    (o : PlanOptions K) :
    TalliedBy held (due.foldl zoomCue z) l (due.foldl (Shooting.cue c o) s) := by
  induction due generalizing z s with
  | nil => exact h
  | cons q due ih => exact ih (h.cue c o)

end TalliedBy

end Cues

section Frames

variable {K : Type} [Scalar K] {rate : FrameRate K} {o : PlanOptions K}
  {subject? : ℕ → String → Option (Subject K)} {sheet : CueSheet K} {n : ℕ} {s s' : Shooting K}

/-- A camera that is shot up to a frame, with its zooms tallied up to there. -/
structure TalliedUpTo (rate : FrameRate K) (o : PlanOptions K)
    (subject? : ℕ → String → Option (Subject K)) (sheet : CueSheet K) (n : ℕ) (s : Shooting K) :
    Prop where
  shot : ShotUpTo rate sheet.camera o sheet.cues n s
  tallied : TalliedBy (heldFrames rate o subject? sheet · n) (zoomBefore rate sheet.cues n) s.cues s

lemma start_talliedUpTo (h : (sheet.cues.map Cue.index).Nodup) :
    TalliedUpTo rate o subject? sheet 0 (Shooting.start sheet) := by
  have hnone : zoomBefore rate sheet.cues 0 = none := by
    unfold zoomBefore isPast
    cases sheet.cues <;> simp
  refine ⟨start_shotUpTo sheet, ?_⟩
  rw [hnone]
  exact ⟨rfl, nofun, nofun, fun _ _ => rfl, h⟩

lemma heldFrames_succ (index : ℕ) : heldFrames rate o subject? sheet index (n + 1) =
    heldFrames rate o subject? sheet index n +
      if isHeldAt rate o subject? sheet index n then 1 else 0 := by
  unfold heldFrames
  rw [List.range_succ, List.countP_append, List.countP_singleton]

/-- The cues that are due at a frame decide on the zoom in effect. -/
lemma zoomBefore_advance (h : ShotUpTo rate sheet.camera o sheet.cues n s) :
    zoomBefore rate sheet.cues (n + 1) =
      (s.cues.takeWhile (Shooting.isDue rate n)).foldl zoomCue (zoomBefore rate sheet.cues n) := by
  have hmono : ∀ q : Cue K, isPast rate n q = true → isPast rate (n + 1) q = true := isPast_mono
  obtain ⟨htake, -⟩ := takeWhile_append_takeWhile hmono sheet.cues
  unfold zoomBefore
  rw [← htake, List.foldl_append, ← h.cues_eq, ← isDue_eq_isPast]

/-- Only the zoom in effect is held at a frame. -/
lemma heldFrames_other {index : ℕ}
    (h : ∀ q ∈ zoomBefore rate sheet.cues (n + 1), q.index ≠ index) :
    heldFrames rate o subject? sheet index (n + 1) =
      heldFrames rate o subject? sheet index n := by
  have hfree : isHeldAt rate o subject? sheet index n = false := by
    unfold isHeldAt
    cases hz : zoomBefore rate sheet.cues (n + 1) with
    | none => rfl
    | some q =>
      have hindex : (q.index == index) = false := beq_false_of_ne (h q hz)
      simp [hindex]
  rw [heldFrames_succ, hfree]
  rfl

/-- Before a frame is shot, the cues that are due end and begin their zooms. -/
lemma advance_tallied (h : TalliedUpTo rate o subject? sheet n s) :
    TalliedBy (heldFrames rate o subject? sheet · n) (zoomBefore rate sheet.cues (n + 1))
      (s.advance rate sheet.camera o n).cues (s.advance rate sheet.camera o n) := by
  have htallied := h.tallied
  rw [← List.takeWhile_append_dropWhile (p := Shooting.isDue rate n) (l := s.cues)] at htallied
  rw [zoomBefore_advance h.shot]
  have hcues := htallied.cues sheet.camera o
  exact ⟨hcues.tally_eq, hcues.reported, hcues.ended, hcues.ahead, hcues.distinct⟩

lemma frame?_talliedUpTo (h : TalliedUpTo rate o subject? sheet n s)
    (hs : s.frame? rate sheet.camera o subject? n = some s') :
    TalliedUpTo rate o subject? sheet (n + 1) s' := by
  have hadvance := advance_tallied h
  refine ⟨frame?_shotUpTo h.shot hs, ?_⟩
  obtain ⟨shot, hshot, hdone⟩ := Option.bind_eq_some_iff.mp hs
  cases hdone
  have hclamped := shot?_zoomClamped hshot
  rw [(advance_zoom h.shot).2] at hclamped
  refine ⟨?_, ?_, hadvance.ended, ?_, hadvance.distinct⟩
  · rw [hadvance.tally_eq, hclamped]
    cases hz : zoomBefore rate sheet.cues (n + 1) with
    | none => simp
    | some q =>
      have hheld : isHeldAt rate o subject? sheet q.index n =
          (zoomOf sheet.camera o q).any (isHeld sheet.camera (subject? n)) := by
        simp [isHeldAt, hz]
      simp only [Option.bind_some, ← hheld, Option.map_some, heldFrames_succ]
      cases isHeldAt rate o subject? sheet q.index n <;> rfl
  · intro f hf
    rw [heldFrames_other fun q hq =>
      hadvance.ended f hf q (List.mem_append_left _ (by simpa using hq))]
    exact hadvance.reported f hf
  · intro q hq
    rw [heldFrames_other]
    · exact hadvance.ahead q hq
    · rintro p hp heq
      have hnodup := hadvance.distinct
      rw [Option.mem_def.mp hp, Option.toList_some, List.singleton_append, List.map_cons,
        List.nodup_cons] at hnodup
      exact hnodup.1 (List.mem_map.mpr ⟨q, hq, heq.symm⟩)

/-- What is reported of a camera's zooms is the number of frames on which the zoom of the command
with the index was held at a bound, of all the frames that were shot. -/
theorem shoot?_tallied (hindices : (sheet.cues.map Cue.index).Nodup) {last : ℕ}
    {reel : CameraReel K} {findings : List (ℕ × Finding K)}
    (h : sheet.shoot? rate o subject? last = some (reel, findings)) :
    ∀ f ∈ findings, 0 < heldFrames rate o subject? sheet f.1 (last + 1) ∧
      f.2 = .zoomClamped (heldFrames rate o subject? sheet f.1 (last + 1)) := by
  obtain ⟨done, hdone, hreel⟩ := Option.bind_eq_some_iff.mp h
  cases hreel
  have htallied := range_foldlM_induction (P := TalliedUpTo rate o subject? sheet)
    (start_talliedUpTo hindices) (fun _ _ _ => frame?_talliedUpTo) hdone
  exact htallied.tallied.endTally.reported

/-- A zoom that was held at all was asked for by a command. -/
lemma exists_zoom_of_held {index : ℕ} (h : 0 < heldFrames rate o subject? sheet index n) :
    ∃ q ∈ sheet.cues, q.index = index ∧ ∃ subject occupancy minFocal maxFocal,
      q.command = .autoZoom subject occupancy minFocal maxFocal := by
  obtain ⟨frame, -, hheld⟩ := List.countP_pos_iff.mp h
  obtain ⟨q, hq, hindex⟩ := (Option.any_eq_true _ _).mp hheld
  obtain ⟨hmem, hzoom⟩ := zoomBefore_eq_some hq
  rw [Bool.and_eq_true, beq_iff_eq] at hindex
  exact ⟨q, hmem, hindex.1, hzoom⟩

end Frames

end Stagecraft.Proofs
