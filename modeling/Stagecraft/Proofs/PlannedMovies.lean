import Stagecraft.Proofs.CameraShots
import Stagecraft.Proofs.SessionRuns

/-!
# Planned movies

A movie is planned in two passes. `played` is the session behind the second: the script is
walked, the last frame is fixed and the stays that waited for it are played. A plan shows the runs
of that session, and its cameras are shot against them.
-/

namespace Stagecraft.Proofs

section Passes

variable {K : Type} [Scalar K] {m : Movie K} {o : PlanOptions K} {s s' : Session K} {last : ℕ}

/-- The last frame, and the session in which every actor is planned up to its end. -/
def played (o : PlanOptions K) (m : Movie K) : Except (PlanError K) (ℕ × Session K) := do
  let s ← walk o m
  let (last, s) ← s.lastFrame
  return (last, s.finishRuns last)

lemma plan_eq (h : m.issues = []) :
    m.plan o = do
      let (last, s) ← played o m
      let (cameras, s) ← s.sheets.foldlM (Session.shoot last) ([], s)
      return (s.checkEvents last).reel last cameras := by
  unfold Movie.plan played walk
  rw [h, List.isEmpty_nil, if_pos rfl]
  simp only [bind_assoc, pure_bind]

lemma plan_invalid (h : m.issues ≠ []) : m.plan o = .error (.invalid m.issues) := by
  unfold Movie.plan
  rw [if_neg (by simpa using h)]
  rfl

lemma issues_nil_of_plan {reel : Reel K} (h : m.plan o = .ok reel) : m.issues = [] := by
  by_contra hne
  rw [plan_invalid hne] at h
  cases h

lemma played_ok (h : played o m = .ok (last, s')) :
    ∃ s s₁, walk o m = .ok s ∧ s.lastFrame = .ok (last, s₁) ∧ s' = s₁.finishRuns last := by
  obtain ⟨s, hwalk, h⟩ := bind_eq_ok.mp h
  obtain ⟨⟨n, s₁⟩, hlast, h⟩ := bind_eq_ok.mp h
  cases h
  exact ⟨s, s₁, hwalk, hlast, rfl⟩

end Passes

section Reports

variable {K : Type} {s s' : Session K}

/-- The same session but for what it reported. -/
def SameButReports (s s' : Session K) : Prop :=
  ∃ reports, s' = { s with diagnostics := reports }

namespace SameButReports

lemma refl (s : Session K) : SameButReports s s := ⟨s.diagnostics, rfl⟩

lemma trans {s'' : Session K} (h : SameButReports s s') (h' : SameButReports s' s'') :
    SameButReports s s'' := by
  obtain ⟨_, rfl⟩ := h
  obtain ⟨reports, rfl⟩ := h'
  exact ⟨reports, rfl⟩

lemma runs_eq (h : SameButReports s s') : s'.runs = s.runs := by
  obtain ⟨_, rfl⟩ := h
  rfl

lemma foldl {α : Type} {f : Session K → α → Session K} (hf : ∀ s a, SameButReports s (f s a))
    (l : List α) (s : Session K) : SameButReports s (l.foldl f s) := by
  induction l generalizing s with
  | nil => exact .refl s
  | cons a l ih => exact (hf s a).trans (ih (f s a))

end SameButReports

variable [Scalar K]

lemma lastFrame_ok {last : ℕ} (h : s.lastFrame = .ok (last, s')) :
    SameButReports s s' ∧ s.extent ≤ last := by
  unfold Session.lastFrame at h
  cases hd : s.movie.duration with
  | some duration =>
    simp only [hd, Except.ok.injEq, Prod.mk.injEq] at h
    obtain ⟨rfl, rfl⟩ := h
    refine ⟨?_, le_max_right _ _⟩
    split
    · exact ⟨_, rfl⟩
    · exact .refl s
  | none =>
    simp only [hd] at h
    split at h
    · cases h
    · simp only [Except.ok.injEq, Prod.mk.injEq] at h
      obtain ⟨rfl, rfl⟩ := h
      exact ⟨.refl s, le_refl _⟩

lemma checkEvents_same (last : ℕ) (s : Session K) : SameButReports s (s.checkEvents last) := by
  unfold Session.checkEvents
  apply SameButReports.foldl
  intro s e
  split
  · exact ⟨_, rfl⟩
  · exact .refl s

end Reports

section Finishing

variable {K : Type} [Scalar K] {s : Session K} {last : ℕ}

lemma finish_actor (rate : FrameRate K) (r : Run K) : (r.finish rate last).1.actor = r.actor := by
  unfold Run.finish
  cases r.parked with
  | none => rfl
  | some p => exact play_actor _ _ _

lemma finish_pose (rate : FrameRate K) (r : Run K) : (r.finish rate last).1.pose = r.pose := by
  unfold Run.finish
  cases r.parked with
  | none => rfl
  | some p => exact play_pose _ _ _

lemma finish_none {rate : FrameRate K} {r : Run K} (h : r.parked = none) :
    (r.finish rate last).1 = r := by
  unfold Run.finish
  rw [h]

lemma finish_some {rate : FrameRate K} {r : Run K} {p : Parked K} (h : r.parked = some p) :
    (r.finish rate last).1 = { r with parked := none }.hold rate
      (Scalar.larger (rate.secondsAt last - p.start) 0) p.clip := by
  unfold Run.finish
  rw [h]

lemma finishRun_eq (s : Session K) (last : ℕ) (r : Run K) :
    SameButReports (s.setRun (r.finish s.movie.fps last).1) (Session.finishRun last s r) := by
  unfold Session.finishRun
  exact SameButReports.foldl (fun s f => ⟨_, rfl⟩) _ _

lemma finishRuns_from {front rest : List (Run K)}
    (hruns : s.runs = front.map (fun r => (r.finish s.movie.fps last).1) ++ rest)
    (hnames : (runNames s).Nodup) :
    ∃ reports, rest.foldl (Session.finishRun last) s =
      { s with
        runs := (front ++ rest).map fun r => (r.finish s.movie.fps last).1
        diagnostics := reports } := by
  induction rest generalizing front s with
  | nil =>
    refine ⟨s.diagnostics, ?_⟩
    rw [List.append_nil] at hruns ⊢
    rw [← hruns]
    rfl
  | cons r rest ih =>
    have hname : (r.finish s.movie.fps last).1.actor.name = r.actor.name := by rw [finish_actor]
    have hset := setRun_at hruns hnames hname
    obtain ⟨reports, hstep⟩ := finishRun_eq s last r
    have hnames' : (runNames (Session.finishRun last s r)).Nodup := by
      have heq : runNames (Session.finishRun last s r) = runNames s := by
        unfold runNames
        rw [hstep, hruns]
        simp only [hset, List.map_append, List.map_cons, hname]
      rw [heq]
      exact hnames
    have hmovie : (Session.finishRun last s r).movie = s.movie := by rw [hstep]; rfl
    have hruns' : (Session.finishRun last s r).runs =
        (front ++ [r]).map (fun r => (r.finish s.movie.fps last).1) ++ rest := by
      rw [hstep]
      simp only [hset, List.map_append, List.map_cons, List.map_nil, List.append_assoc,
        List.cons_append, List.nil_append]
    obtain ⟨reports', hrest⟩ := ih (by rw [hmovie]; exact hruns') hnames'
    refine ⟨reports', ?_⟩
    rw [List.foldl_cons, hrest, hmovie, hstep, List.append_assoc]
    rfl

/-- Every parked stay is played, and nothing else happens. -/
theorem finishRuns_eq (hnames : (runNames s).Nodup) (last : ℕ) :
    ∃ reports, s.finishRuns last =
      { s with
        runs := s.runs.map fun r => (r.finish s.movie.fps last).1
        diagnostics := reports } := by
  have hruns : s.runs = [].map (fun r : Run K => (r.finish s.movie.fps last).1) ++ s.runs := rfl
  exact finishRuns_from hruns hnames

end Finishing

section Shooting

variable {K : Type} [Scalar K] {last : ℕ}

lemma shoot_ok {reels reels' : List (CameraReel K)} {s s' : Session K} {c : CueSheet K}
    (h : Session.shoot last (reels, s) c = .ok (reels', s')) : ∃ a findings,
      c.shoot? s.movie.fps s.options s.subject? last = some (a, findings) ∧ reels' = reels ++ [a] ∧
        s' = findings.foldl (fun s f => s.warn c.camera.name f.1 [f.2]) s := by
  unfold Session.shoot at h
  dsimp only at h
  split at h
  next a findings hshot =>
    cases h
    exact ⟨a, findings, hshot, rfl, rfl⟩
  next => cases h

lemma shoot_sameButReports {reels reels' : List (CameraReel K)} {s s' : Session K} {c : CueSheet K}
    (h : Session.shoot last (reels, s) c = .ok (reels', s')) : SameButReports s s' := by
  obtain ⟨a, findings, -, -, rfl⟩ := shoot_ok h
  exact SameButReports.foldl (fun s f => ⟨_, rfl⟩) _ _

/-- Shooting the cameras one after another shoots each against the same runs. -/
lemma shoots_ok {l : List (CueSheet K)} {reels cameras : List (CameraReel K)} {s s' : Session K}
    (h : l.foldlM (Session.shoot last) (reels, s) = .ok (cameras, s')) :
    SameButReports s s' ∧ ∃ shot, cameras = reels ++ shot ∧ List.Forall₂
      (fun c a => ∃ findings, c.shoot? s.movie.fps s.options s.subject? last = some (a, findings))
      l shot := by
  induction l generalizing reels s with
  | nil =>
    cases h
    exact ⟨.refl _, [], (List.append_nil _).symm, .nil⟩
  | cons c l ih =>
    obtain ⟨⟨reels₁, s₁⟩, hshoot, h⟩ := bind_eq_ok.mp h
    obtain ⟨a, findings, hc, rfl, -⟩ := shoot_ok hshoot
    obtain ⟨hrest, shots, rfl, hshots⟩ := ih h
    obtain ⟨_, rfl⟩ := shoot_sameButReports hshoot
    refine ⟨.trans ⟨_, rfl⟩ hrest, a :: shots, List.append_assoc _ _ _, ?_⟩
    exact .cons ⟨findings, hc⟩ hshots

lemma shoots_error_iff {l : List (CueSheet K)} {reels : List (CameraReel K)} {s : Session K}
    {e : PlanError K} :
    l.foldlM (Session.shoot last) (reels, s) = .error e ↔ e = .boundsUndefined ∧
      ∃ c ∈ l, c.shoot? s.movie.fps s.options s.subject? last = none := by
  induction l generalizing reels s with
  | nil => simp [pure, Except.pure]
  | cons c l ih =>
    rw [List.foldlM_cons]
    cases hc : c.shoot? s.movie.fps s.options s.subject? last with
    | none =>
      have hshoot : Session.shoot last (reels, s) c = .error .boundsUndefined := by
        unfold Session.shoot
        simp only [hc]
      rw [hshoot]
      constructor
      · intro h
        cases h
        exact ⟨rfl, c, List.mem_cons_self, hc⟩
      · rintro ⟨rfl, -⟩
        rfl
    | some shot =>
      obtain ⟨reports, hs₁⟩ : SameButReports s
          (shot.2.foldl (fun s f => s.warn c.camera.name f.1 [f.2]) s) :=
        SameButReports.foldl (fun s f => ⟨_, rfl⟩) shot.2 s
      have hshoot : Session.shoot last (reels, s) c =
          .ok (reels ++ [shot.1], { s with diagnostics := reports }) := by
        unfold Session.shoot
        simp only [hc, ← hs₁]
      rw [hshoot]
      refine Iff.trans ih ?_
      simp only [List.exists_mem_cons_iff, hc, reduceCtorEq, false_or]
      exact Iff.rfl

/-- What a plan shows. -/
structure Shows (s : Session K) (reel : Reel K) : Prop where
  actors_eq : reel.actors = s.runs.map fun r => ⟨r.actor, r.transform, r.animation⟩
  cameras_shot : List.Forall₂ (fun c a => ∃ findings,
    c.shoot? s.movie.fps s.options s.subject? reel.lastFrame = some (a, findings))
    s.sheets reel.cameras

theorem plan_ok {m : Movie K} {o : PlanOptions K} {reel : Reel K} (h : m.plan o = .ok reel) :
    ∃ s, played o m = .ok (reel.lastFrame, s) ∧ Shows s reel := by
  rw [plan_eq (issues_nil_of_plan h)] at h
  obtain ⟨⟨last, s⟩, hplayed, h⟩ := bind_eq_ok.mp h
  obtain ⟨⟨cameras, s'⟩, hshoots, h⟩ := bind_eq_ok.mp h
  obtain ⟨hsame, shot, rfl, hshot⟩ := shoots_ok hshoots
  cases h
  refine ⟨s, hplayed, ?_, hshot⟩
  unfold Session.reel
  rw [(hsame.trans (checkEvents_same last s')).runs_eq]

/-- Planning fails where playing does, and where a camera cannot be shot. -/
theorem plan_error_iff {m : Movie K} {o : PlanOptions K} (h : m.issues = []) {e : PlanError K} :
    m.plan o = .error e ↔ played o m = .error e ∨ ∃ last s, played o m = .ok (last, s) ∧
      e = .boundsUndefined ∧
      ∃ c ∈ s.sheets, c.shoot? s.movie.fps s.options s.subject? last = none := by
  rw [plan_eq h]
  cases hplayed : played o m with
  | error e' => simp [bind, Except.bind]
  | ok result =>
    obtain ⟨last, s⟩ := result
    have hshoots : s.sheets.foldlM (Session.shoot last) ([], s) = .error e ↔ _ := shoots_error_iff
    cases hcameras : s.sheets.foldlM (Session.shoot last) ([], s) with
    | error e' =>
      rw [hcameras] at hshoots
      simpa [bind, Except.bind, hcameras] using hshoots
    | ok shot =>
      rw [hcameras] at hshoots
      simpa [bind, Except.bind, hcameras, pure, Except.pure] using hshoots

/-- A movie that is played has a plan when its cameras can be shot. -/
lemma exists_plan {m : Movie K} {o : PlanOptions K} {s : Session K} (h : m.issues = [])
    (hplayed : played o m = .ok (last, s))
    (hshoot : ∀ c ∈ s.sheets, c.shoot? s.movie.fps s.options s.subject? last ≠ none) :
    ∃ reel, m.plan o = .ok reel ∧ reel.lastFrame = last := by
  cases hplan : m.plan o with
  | ok reel =>
    obtain ⟨s', hplayed', -⟩ := plan_ok hplan
    rw [hplayed] at hplayed'
    cases hplayed'
    exact ⟨reel, rfl, rfl⟩
  | error e =>
    rcases (plan_error_iff h).mp hplan with hfail | ⟨last', s', hplayed', -, c, hc, hnone⟩
    · rw [hplayed] at hfail
      cases hfail
    · rw [hplayed] at hplayed'
      cases hplayed'
      exact absurd hnone (hshoot c hc)

end Shooting

section Clock

variable {m : Movie ℝ} {o : PlanOptions ℝ} {s : Session ℝ} {last : ℕ}

/-- Playing the stays to the end is the last advance of every run. -/
theorem finishRuns_follows (hv : Valid m) (h : Follows (Session.start m o) s) :
    Follows s (s.finishRuns last) := by
  obtain ⟨reports, heq⟩ := finishRuns_eq (h.runNames_nodup hv) last
  rw [heq]
  refine ⟨rfl, rfl, rfl, rfl, ?_⟩
  rw [List.forall₂_map_right_iff, List.forall₂_same]
  intro r _
  exact finish_advances last

lemma SameButReports.follows {s' : Session ℝ} (h : SameButReports s s') : Follows s s' := by
  obtain ⟨_, rfl⟩ := h
  exact ⟨rfl, rfl, rfl, rfl, List.forall₂_same.mpr fun _ _ => .refl⟩

theorem played_follows (hv : Valid m) (h : played o m = .ok (last, s)) :
    Follows (Session.start m o) s := by
  obtain ⟨s₀, s₁, hwalk, hlast, rfl⟩ := played_ok h
  have hsame := (lastFrame_ok hlast).1.follows
  have hstart := (walk_follows hv hwalk).trans hsame
  exact hstart.trans (finishRuns_follows hv hstart)

/-- The actors of a plan show the runs that are played. -/
lemma plan_actors {reel : Reel ℝ} (h : m.plan o = .ok reel) :
    ∃ s, played o m = .ok (reel.lastFrame, s) ∧ s.runs.map Run.actor = m.actors ∧
      Follows (Session.start m o) s ∧
      List.Forall₂ (fun r (a : ActorReel ℝ) => r ∈ s.runs ∧
        a = ⟨r.actor, r.transform, r.animation⟩) s.runs reel.actors := by
  obtain ⟨s, hplayed, hshows⟩ := plan_ok h
  have hfollows := played_follows (valid_of_issues_nil (issues_nil_of_plan h)) hplayed
  refine ⟨s, hplayed, hfollows.actors_eq.trans (start_actors m o), hfollows, ?_⟩
  rw [hshows.actors_eq, List.forall₂_map_right_iff, List.forall₂_same]
  exact fun r hr => ⟨hr, rfl⟩

/-- The runs that are played are those of the walk, with their stays to the end. -/
lemma played_runs (hv : Valid m) (h : played o m = .ok (last, s)) : ∃ s₀, walk o m = .ok s₀ ∧
    s.runs = s₀.runs.map (fun r => (r.finish m.fps last).1) ∧ s.sheets = s₀.sheets := by
  obtain ⟨s₀, s₁, hwalk, hlast, rfl⟩ := played_ok h
  have hsame := (lastFrame_ok hlast).1
  have hfollows := (walk_follows hv hwalk).trans hsame.follows
  have hrate : s₁.movie.fps = m.fps := congrArg Movie.fps hfollows.movie_eq
  obtain ⟨reports, hfinished⟩ := finishRuns_eq (hfollows.runNames_nodup hv) last
  refine ⟨s₀, hwalk, ?_, ?_⟩
  · rw [hfinished, ← hrate, hsame.runs_eq]
  · obtain ⟨_, rfl⟩ := hsame
    rw [hfinished]

/-- The stages on both sides of a step of a planned movie, and the session at the end. -/
lemma plan_split {reel : Reel ℝ} (h : m.plan o = .ok reel) {before after : List (Step ℝ)}
    {step : Step ℝ} (hsteps : scriptSteps m = before ++ step :: after) :
    ∃ st st' s, before.foldlM perform ⟨Session.start m o, 0⟩ = .ok st ∧
      perform st step = .ok st' ∧ played o m = .ok (reel.lastFrame, s) ∧ Shows s reel ∧
      Follows (Session.start m o) st.session ∧ Follows st.session st'.session ∧
      Follows st'.session s := by
  have hv := valid_of_issues_nil (issues_nil_of_plan h)
  obtain ⟨s, hplayed, hshows⟩ := plan_ok h
  obtain ⟨s₀, s₁, hwalk, hlast, hs⟩ := played_ok hplayed
  obtain ⟨t, hwalked⟩ := walk_ok 0 hwalk
  rw [hsteps] at hwalked
  obtain ⟨st, st', hbefore, hstep, hafter⟩ := foldlM_split_ok.mp hwalked
  have hst := steps_follow hv (.refl (Session.start m o)) hbefore
  have hst' := (perform_ok hstep).follows hv hst
  have hrest := steps_follow hv (hst.trans hst') hafter
  have hsame := hrest.trans (lastFrame_ok hlast).1.follows
  have hend : Follows st'.session s := by
    rw [hs]
    exact hsame.trans (finishRuns_follows hv ((hst.trans hst').trans hsame))
  exact ⟨st, st', s, hbefore, hstep, hplayed, hshows, hst, hst', hend⟩

/-- The scripts reach as far as the cursors. -/
lemma extent_eq (hv : Valid m) (h : Follows (Session.start m o) s) :
    s.extent = (s.runs.map (fun r => m.fps.frameAt r.cursor) ++
      s.sheets.map fun c => m.fps.frameAt c.cursor).foldl max 0 := by
  have hruns : s.runs.filterMap (·.transform.lastFrame?) =
      s.runs.map fun r => m.fps.frameAt r.cursor := by
    rw [← List.filterMap_eq_map]
    apply List.filterMap_congr
    intro r hr
    exact (h.onTime hv hr).filled.lastFrame?_eq
  unfold Session.extent
  rw [hruns, h.movie_eq]
  rfl

/-- No actor is past the last frame when it is fixed. -/
lemma frameAt_cursor_le_extent (hv : Valid m) (h : Follows (Session.start m o) s) {r : Run ℝ}
    (hr : r ∈ s.runs) : m.fps.frameAt r.cursor ≤ s.extent := by
  rw [extent_eq hv h, List.foldl_max]
  apply le_max_of_le_right
  exact List.le_max?_getD_of_mem (List.mem_append_left _ (List.mem_map_of_mem hr))

/-- Without a declared duration the movie ends with its scripts, unless it never ends. -/
lemma lastFrame_eq_extent (h : s.movie.duration = none)
    (hends : s.runs.any (·.parked.isSome) = false ∨ s.extent ≠ 0) :
    s.lastFrame = .ok (s.extent, s) := by
  have hstop : ¬(s.runs.any (·.parked.isSome) && s.extent == 0) = true := by
    rcases hends with hfree | hextent
    · simp [hfree]
    · simp [hextent]
  unfold Session.lastFrame
  rw [h]
  exact if_neg hstop

/-- A walk that parks nobody is the movie as it is played, up to where it has come. -/
lemma played_of_walk (hv : Valid m) (h : walk o m = .ok s) (hduration : m.duration = none)
    (hfree : ∀ r ∈ s.runs, r.parked = none) :
    ∃ s', played o m = .ok (s.extent, s') ∧ s'.runs = s.runs ∧ s'.sheets = s.sheets := by
  have hfollows := walk_follows hv h
  have hlast : s.lastFrame = .ok (s.extent, s) := by
    refine lastFrame_eq_extent (by rw [hfollows.movie_eq]; exact hduration) (Or.inl ?_)
    rw [List.any_eq_false]
    intro r hr
    rw [hfree r hr]
    exact Bool.false_ne_true
  obtain ⟨reports, hfinished⟩ := finishRuns_eq (hfollows.runNames_nodup hv) s.extent
  refine ⟨s.finishRuns s.extent,
    bind_eq_ok.mpr ⟨s, h, bind_eq_ok.mpr ⟨(s.extent, s), hlast, rfl⟩⟩, ?_, ?_⟩
  · rw [hfinished]
    have hid : ∀ r ∈ s.runs, (r.finish s.movie.fps s.extent).1 = id r :=
      fun r hr => finish_none (hfree r hr)
    exact (List.map_congr_left hid).trans (List.map_id s.runs)
  · rw [hfinished]

/-- Without a camera such a movie has a plan. -/
lemma plan_of_walk (h : m.issues = []) (hwalk : walk o m = .ok s) (hduration : m.duration = none)
    (hfree : ∀ r ∈ s.runs, r.parked = none) (hsheets : s.sheets = []) :
    ∃ reel s', m.plan o = .ok reel ∧ played o m = .ok (reel.lastFrame, s') ∧
      reel.lastFrame = s.extent ∧ s'.runs = s.runs := by
  obtain ⟨s', hplayed, hruns, hsame⟩ :=
    played_of_walk (valid_of_issues_nil h) hwalk hduration hfree
  obtain ⟨reel, hplan, hlast⟩ := exists_plan h hplayed (by simp [hsame, hsheets])
  exact ⟨reel, s', hplan, hlast ▸ hplayed, hlast, hruns⟩

/-- With a declared duration there is an end in any case. -/
lemma exists_lastFrame {d : TimeSpan ℝ} (h : s.movie.duration = some d) :
    ∃ last s', s.lastFrame = .ok (last, s') := by
  unfold Session.lastFrame
  rw [h]
  exact ⟨_, _, rfl⟩

end Clock

end Stagecraft.Proofs
