import Stagecraft.Digest.Content
import Stagecraft.Proofs.IndependentSteps
import Stagecraft.Proofs.TillEndStays

/-!
# Swapped blocks

Neighbours in a script that drive different entities, and do not turn to each other's, may change
places: two sequences at the top, or two members of a group. The movie passes the same checks, and
its plan is the same but for the order of what is reported.
-/

namespace Stagecraft.Proofs

section Blocks

variable {K : Type} {X Y : Block K} {step : Step K}

/-- Two sequences drive different entities, and no command of one turns to the actor of the
other. -/
inductive Apart : Block K → Block K → Prop
  | actors {p q : ActorSequence K} (hne : p.actor ≠ q.actor)
    (hp : ∀ c ∈ p.commands, faced? c ≠ some q.actor)
    (hq : ∀ c ∈ q.commands, faced? c ≠ some p.actor) : Apart (.actor p) (.actor q)
  | cameras {p q : CameraSequence K} (hne : p.camera ≠ q.camera) : Apart (.camera p) (.camera q)
  | actorCamera (p : ActorSequence K) (q : CameraSequence K) : Apart (.actor p) (.camera q)
  | cameraActor (p : CameraSequence K) (q : ActorSequence K) : Apart (.camera p) (.actor q)

/-- Two scripts differ in the order of two neighbours, at the top or within one group. -/
inductive Swapped : List (Block K) → List (Block K) → Prop
  | blocks (front rest : List (Block K)) {X Y : Block K} (h : Apart X Y) :
    Swapped (front ++ X :: Y :: rest) (front ++ Y :: X :: rest)
  | members (front rest before after : List (Block K)) {X Y : Block K} (h : Apart X Y) :
    Swapped (front ++ .simultaneous (before ++ X :: Y :: after) :: rest)
      (front ++ .simultaneous (before ++ Y :: X :: after) :: rest)

/-- What a sequence of an actor makes a session do. -/
lemma actorStep_of_mem {p : ActorSequence K} (h : step ∈ memberSteps (.actor p)) :
    step ≠ .gather ∧ step.actor? = some p.actor ∧ step.camera? = none ∧
      ∀ name, step.faced? = some name → ∃ c ∈ p.commands, faced? c = some name := by
  rcases List.mem_cons.mp h with rfl | h
  · exact ⟨nofun, rfl, rfl, nofun⟩
  · rcases List.mem_cons.mp h with rfl | h
    · exact ⟨nofun, rfl, rfl, nofun⟩
    · obtain ⟨c, hc, rfl⟩ := List.mem_map.mp h
      exact ⟨nofun, rfl, rfl, fun name hname => ⟨c, hc, hname⟩⟩

/-- What a sequence of a camera makes a session do. -/
lemma cameraStep_of_mem {q : CameraSequence K} (h : step ∈ memberSteps (.camera q)) :
    step ≠ .gather ∧ step.actor? = none ∧ step.camera? = some q.camera ∧ step.faced? = none := by
  rcases List.mem_cons.mp h with rfl | h
  · exact ⟨nofun, rfl, rfl, rfl⟩
  · rw [List.mem_singleton.mp h]
    exact ⟨nofun, rfl, rfl, rfl⟩

/-- Sequences that are apart have independent steps. -/
lemma Apart.independent (h : Apart X Y) :
    ∀ a ∈ memberSteps X, ∀ b ∈ memberSteps Y, Independent a b := by
  intro a ha b hb
  cases h with
  | @actors p q hne hp hq =>
    obtain ⟨hga, haa, hca, hfa⟩ := actorStep_of_mem ha
    obtain ⟨hgb, hab, hcb, hfb⟩ := actorStep_of_mem hb
    refine ⟨hga, hgb, ?_, ?_, ?_, ?_⟩
    · rw [haa, hab]
      rintro name ⟨⟩ heq
      exact hne (Option.some.inj heq).symm
    · rw [hca]
      rintro name ⟨⟩
    · rw [haa]
      rintro name ⟨⟩ hfaced
      obtain ⟨c, hc, hname⟩ := hfb _ hfaced
      exact hq c hc hname
    · rw [hab]
      rintro name ⟨⟩ hfaced
      obtain ⟨c, hc, hname⟩ := hfa _ hfaced
      exact hp c hc hname
  | @cameras p q hne =>
    obtain ⟨hga, haa, hca, hfa⟩ := cameraStep_of_mem ha
    obtain ⟨hgb, hab, hcb, hfb⟩ := cameraStep_of_mem hb
    refine ⟨hga, hgb, by simp [haa], ?_, by simp [haa], by simp [hab]⟩
    rw [hca, hcb]
    rintro name ⟨⟩ heq
    exact hne (Option.some.inj heq).symm
  | actorCamera p q =>
    obtain ⟨hga, haa, hca, hfa⟩ := actorStep_of_mem ha
    obtain ⟨hgb, hab, hcb, hfb⟩ := cameraStep_of_mem hb
    exact ⟨hga, hgb, by simp [hab], by simp [hca], by simp [hfb], by simp [hab]⟩
  | cameraActor p q =>
    obtain ⟨hga, haa, hca, hfa⟩ := cameraStep_of_mem ha
    obtain ⟨hgb, hab, hcb, hfb⟩ := actorStep_of_mem hb
    exact ⟨hga, hgb, by simp [haa], by simp [hcb], by simp [haa], by simp [hfa]⟩

/-- Outside a group the steps of a sequence are among those within one. -/
lemma Apart.blockSteps_subset (h : Apart X Y) :
    blockSteps X ⊆ memberSteps X ∧ blockSteps Y ⊆ memberSteps Y := by
  have hactor : ∀ p : ActorSequence K, blockSteps (.actor p) ⊆ memberSteps (.actor p) :=
    fun p => List.subset_cons_self _ _
  have hcamera : ∀ q : CameraSequence K, blockSteps (.camera q) ⊆ memberSteps (.camera q) :=
    fun q => List.subset_cons_self _ _
  cases h with
  | actors => exact ⟨hactor _, hactor _⟩
  | cameras => exact ⟨hcamera _, hcamera _⟩
  | actorCamera => exact ⟨hactor _, hcamera _⟩
  | cameraActor => exact ⟨hcamera _, hactor _⟩

variable {m : Movie K} {script : List (Block K)}

/-- The steps of scripts that differ in the order of two neighbours. -/
lemma Swapped.steps (h : Swapped m.script script) : ∃ front l l' rest,
    scriptSteps m = front ++ (l ++ l') ++ rest ∧
    scriptSteps { m with script := script } = front ++ (l' ++ l) ++ rest ∧
    ∀ a ∈ l, ∀ b ∈ l', Independent a b := by
  unfold scriptSteps
  generalize m.script = original at h
  cases h with
  | @blocks front rest X Y h =>
    obtain ⟨hX, hY⟩ := h.blockSteps_subset
    refine ⟨front.flatMap blockSteps, blockSteps X, blockSteps Y, rest.flatMap blockSteps, ?_, ?_,
      fun a ha b hb => h.independent a (hX ha) b (hY hb)⟩
    · simp
    · simp
  | @members front rest before after X Y h =>
    refine ⟨front.flatMap blockSteps ++ .gather :: before.flatMap memberSteps, memberSteps X,
      memberSteps Y, after.flatMap memberSteps ++ rest.flatMap blockSteps, ?_, ?_, h.independent⟩
    · simp [blockSteps]
    · simp [blockSteps]

end Blocks

section Checks

variable {K : Type} {m : Movie K} {script : List (Block K)}

/-- A sequence is a unit of the script by itself. -/
lemma Apart.flatten_eq {X Y : Block K} (h : Apart X Y) : X.flatten = [X] ∧ Y.flatten = [Y] := by
  cases h with
  | actors | cameras | actorCamera | cameraActor => exact ⟨rfl, rfl⟩

/-- The sequences of scripts that differ in the order of two neighbours. -/
lemma Swapped.sequences (h : Swapped m.script script) : ∃ front X Y rest, Apart X Y ∧
    m.sequences = front ++ X :: Y :: rest ∧
    ({ m with script := script } : Movie K).sequences = front ++ Y :: X :: rest := by
  unfold Movie.sequences
  generalize m.script = original at h
  cases h with
  | @blocks front rest X Y h =>
    obtain ⟨hX, hY⟩ := h.flatten_eq
    exact ⟨front.flatMap Block.flatten, X, Y, rest.flatMap Block.flatten, h, by simp [hX, hY],
      by simp [hX, hY]⟩
  | @members front rest before after X Y h =>
    exact ⟨front.flatMap Block.flatten ++ before, X, Y, after ++ rest.flatMap Block.flatten, h,
      by simp [Block.flatten], by simp [Block.flatten]⟩

lemma Swapped.sequences_perm (h : Swapped m.script script) :
    m.sequences.Perm ({ m with script := script } : Movie K).sequences := by
  obtain ⟨front, X, Y, rest, -, hm, hm'⟩ := h.sequences
  rw [hm, hm']
  exact (List.Perm.swap Y X rest).append_left front

/-- Every actor is commanded alike. -/
lemma Swapped.commandsFor_eq (h : Swapped m.script script) (name : String) :
    ({ m with script := script } : Movie K).commandsFor name = m.commandsFor name := by
  obtain ⟨front, X, Y, rest, hXY, hm, hm'⟩ := h.sequences
  unfold Movie.commandsFor
  rw [hm, hm']
  simp only [List.flatMap_append, List.flatMap_cons]
  cases hXY with
  | @actors p q hne =>
    by_cases hp : p.actor = name
    · have hq : ¬q.actor = name := fun hq => hne (hp.trans hq.symm)
      simp [hp, hq]
    · simp [hp]
  | cameras | actorCamera | cameraActor => simp

lemma Apart.symm {X Y : Block K} (h : Apart X Y) : Apart Y X := by
  cases h with
  | actors hne hp hq => exact .actors hne.symm hq hp
  | cameras hne => exact .cameras hne.symm
  | actorCamera p q => exact .cameraActor q p
  | cameraActor p q => exact .actorCamera q p

lemma Swapped.symm {original : List (Block K)} (h : Swapped original script) :
    Swapped script original := by
  cases h with
  | blocks front rest h => exact .blocks front rest h.symm
  | members front rest before after h => exact .members front rest before after h.symm

lemma Swapped.groups_pass (h : Swapped m.script script) (hpass : m.groupIssues = []) :
    ({ m with script := script } : Movie K).groupIssues = [] := by
  rw [groupIssues_nil_iff] at hpass ⊢
  dsimp only
  generalize m.script = original at h hpass
  cases h with
  | @blocks front rest X Y h =>
    have hperm : (front ++ Y :: X :: rest).Perm (front ++ X :: Y :: rest) :=
      (List.Perm.swap X Y rest).append_left front
    exact fun b hb => hpass b (hperm.mem_iff.mp hb)
  | @members front rest before after X Y h =>
    rw [List.forall_mem_append, List.forall_mem_cons] at hpass ⊢
    obtain ⟨hfront, hgroup, hrest⟩ := hpass
    refine ⟨hfront, ?_, hrest⟩
    rintro _ ⟨⟩
    exact memberIssues_nil_of_perm
      (((List.Perm.swap Y X after).append_left before).map Block.entity?) (hgroup _ rfl)

variable [Scalar K]

/-- The checks do not look at the order of neighbours that are apart. -/
theorem Swapped.issues_nil (h : Swapped m.script script) (hpass : m.issues = []) :
    ({ m with script := script } : Movie K).issues = [] := by
  have hends : ({ m with script := script } : Movie K).tillEndIssues = m.tillEndIssues := by
    funext a
    unfold Movie.tillEndIssues
    rw [h.commandsFor_eq]
  have hscript : m.scriptIssues [] m.sequences = [] →
      ({ m with script := script } : Movie K).scriptIssues []
        ({ m with script := script } : Movie K).sequences = [] := by
    intro hpass
    rw [scriptIssues_nil_iff] at hpass ⊢
    exact fun b hb => hpass b (h.sequences_perm.mem_iff.mpr hb)
  simp only [Movie.issues, List.append_eq_nil_iff, hends] at hpass ⊢
  obtain ⟨⟨⟨⟨hparts, hgroups⟩, hsequences⟩, hstays⟩, hevents⟩ := hpass
  exact ⟨⟨⟨⟨hparts, h.groups_pass hgroups⟩, hscript hsequences⟩, hstays⟩, hevents⟩

end Checks

section Passes

variable {K : Type} {s s' : Session K} {last : ℕ}

/-- The same result, and sessions that are alike. -/
structure AlikeWith {α : Type} (p q : α × Session K) : Prop where
  result_eq : q.1 = p.1
  alike : Alike p.2 q.2

namespace Alike

lemma warn (h : Alike s s') (entity : String) (index : ℕ) (findings : List (Finding K)) :
    Alike (s.warn entity index findings) (s'.warn entity index findings) := by
  obtain ⟨script, reports, hreports, rfl⟩ := h
  exact ⟨script, _, hreports.append_right _, rfl⟩

lemma warnMovie (h : Alike s s') (finding : Finding K) :
    Alike (s.warnMovie finding) (s'.warnMovie finding) := by
  obtain ⟨script, reports, hreports, rfl⟩ := h
  exact ⟨script, _, hreports.append_right _, rfl⟩

lemma setRun (h : Alike s s') (r : Run K) : Alike (s.setRun r) (s'.setRun r) := by
  obtain ⟨script, reports, hreports, rfl⟩ := h
  exact ⟨script, reports, hreports, rfl⟩

lemma foldl {α : Type} {f : Session K → α → Session K}
    (hf : ∀ s s' a, Alike s s' → Alike (f s a) (f s' a)) (l : List α) (h : Alike s s') :
    Alike (l.foldl f s) (l.foldl f s') := by
  induction l generalizing s s' with
  | nil => exact h
  | cons a l ih => exact ih (hf s s' a h)

lemma runs_eq (h : Alike s s') : s'.runs = s.runs := by
  obtain ⟨script, reports, -, rfl⟩ := h
  rfl

lemma sheets_eq (h : Alike s s') : s'.sheets = s.sheets := by
  obtain ⟨script, reports, -, rfl⟩ := h
  rfl

variable [Scalar K]

lemma finishRun (h : Alike s s') (r : Run K) :
    Alike (Session.finishRun last s r) (Session.finishRun last s' r) := by
  have hset := h.setRun (r.finish s.movie.fps last).1
  obtain ⟨script, reports, -, rfl⟩ := h
  exact foldl (fun _ _ f h => h.warn _ f.1 [f.2]) _ hset

/-- The second pass plays the same stays. -/
lemma finishRuns (h : Alike s s') : Alike (s.finishRuns last) (s'.finishRuns last) := by
  unfold Session.finishRuns
  rw [h.runs_eq]
  exact foldl (fun _ _ r h => h.finishRun r) s.runs h

/-- The movie ends with the same frame. -/
lemma lastFrame (h : Alike s s') : Matches AlikeWith s.lastFrame s'.lastFrame := by
  have hextent : s'.extent = s.extent := by
    obtain ⟨script, reports, -, rfl⟩ := h
    rfl
  have hduration : s'.movie.duration = s.movie.duration := by
    obtain ⟨script, reports, -, rfl⟩ := h
    rfl
  have hrate : s'.movie.fps = s.movie.fps := by
    obtain ⟨script, reports, -, rfl⟩ := h
    rfl
  unfold Session.lastFrame
  simp only [hextent, hduration, hrate, h.runs_eq]
  cases s.movie.duration with
  | none =>
    dsimp only
    split
    · exact .error _ _
    · exact .ok ⟨rfl, h⟩
  | some duration =>
    dsimp only
    split
    · exact .ok ⟨rfl, h.warnMovie _⟩
    · exact .ok ⟨rfl, h⟩

/-- A camera is shot the same. -/
lemma shoot (h : Alike s s') (reels : List (CameraReel K)) (c : CueSheet K) :
    Matches AlikeWith (Session.shoot last (reels, s) c) (Session.shoot last (reels, s') c) := by
  have hwarn : ∀ findings : List (ℕ × Finding K),
      Alike (findings.foldl (fun s f => s.warn c.camera.name f.1 [f.2]) s)
        (findings.foldl (fun s f => s.warn c.camera.name f.1 [f.2]) s') :=
    fun findings => foldl (fun _ _ f h => h.warn _ f.1 [f.2]) findings h
  have hshot : c.shoot? s'.movie.fps s'.options s'.subject? last =
      c.shoot? s.movie.fps s.options s.subject? last := by
    obtain ⟨script, reports, -, rfl⟩ := h
    rfl
  unfold Session.shoot
  simp only [hshot]
  cases c.shoot? s.movie.fps s.options s.subject? last with
  | none => exact .error _ _
  | some shot => exact .ok ⟨rfl, hwarn shot.2⟩

lemma checkEvents (h : Alike s s') : Alike (s.checkEvents last) (s'.checkEvents last) := by
  have hevents : s'.movie.timeline.map (Session.placeEvent s'.movie.fps) =
      s.movie.timeline.map (Session.placeEvent s.movie.fps) := by
    obtain ⟨script, reports, -, rfl⟩ := h
    rfl
  unfold Session.checkEvents
  rw [hevents]
  refine foldl ?_ _ h
  intro s s' e h
  by_cases hlate : last < e.frame
  · rw [if_pos hlate, if_pos hlate]
    exact h.warnMovie _
  · rw [if_neg hlate, if_neg hlate]
    exact h

end Alike

end Passes

section Plans

variable {K : Type} [Scalar K] {m : Movie K} {script : List (Block K)} {o : PlanOptions K}

/-- Reels that play back the same and report the same in some order. -/
structure PlaysAlike (reel reel' : Reel K) : Prop where
  actors_eq : reel'.actors = reel.actors
  cameras_eq : reel'.cameras = reel.cameras
  lastFrame_eq : reel'.lastFrame = reel.lastFrame
  timeline_eq : reel'.timeline = reel.timeline
  contentHash_eq : ∀ [Numeral K], reel'.contentHash = reel.contentHash
  diagnostics_perm : reel.diagnostics.Perm reel'.diagnostics

lemma Alike.reel {s s' : Session K} (h : Alike s s') (last : ℕ) (cameras : List (CameraReel K)) :
    PlaysAlike (s.reel last cameras) (s'.reel last cameras) := by
  obtain ⟨script, reports, hreports, rfl⟩ := h
  exact ⟨rfl, rfl, rfl, rfl, rfl, hreports⟩

/-- The walks of both scripts. -/
theorem Swapped.walk (h : Swapped m.script script) (o : PlanOptions K) :
    Matches Alike (walk o m) (walk o { m with script := script }) := by
  obtain ⟨front, l, l', rest, hsteps, hsteps', hindependent⟩ := h.steps
  have hstart : AlikeStage ⟨Session.start m o, 0⟩
      ⟨Session.start { m with script := script } o, 0⟩ := ⟨⟨script, [], .refl _, rfl⟩, rfl⟩
  rw [walk_eq_steps o m 0, walk_eq_steps o { m with script := script } 0, hsteps, hsteps']
  exact (steps_swap hindependent front rest hstart).map fun _ _ hst => hst.alike

/-- Both scripts end with the same frame, and the actors are played the same up to it. -/
theorem Swapped.played (h : Swapped m.script script) (o : PlanOptions K) :
    Matches AlikeWith (played o m) (played o { m with script := script }) := by
  refine (h.walk o).bind fun s s' hs => hs.lastFrame.bind ?_
  rintro ⟨_, t⟩ ⟨last, t'⟩ ⟨rfl, ht⟩
  exact .ok ⟨rfl, ht.finishRuns⟩

/-- Movies without issues are planned the same. -/
theorem Swapped.plan (h : Swapped m.script script) (hpass : m.issues = []) :
    Matches PlaysAlike (m.plan o) (({ m with script := script } : Movie K).plan o) := by
  rw [plan_eq hpass, plan_eq (h.issues_nil hpass)]
  refine (h.played o).bind ?_
  rintro ⟨_, s⟩ ⟨last, s'⟩ ⟨rfl, hs⟩
  dsimp only at hs ⊢
  rw [hs.sheets_eq]
  have hround : ∀ (p q : List (CameraReel K) × Session K) c, AlikeWith p q →
      Matches AlikeWith (Session.shoot last p c) (Session.shoot last q c) := by
    rintro ⟨_, t⟩ ⟨reels, t'⟩ c ⟨rfl, ht⟩
    exact ht.shoot reels c
  have hstart : AlikeWith (([] : List (CameraReel K)), s) ([], s') := ⟨rfl, hs⟩
  refine (Matches.foldlM hround s.sheets hstart).bind ?_
  rintro ⟨_, t⟩ ⟨cameras, t'⟩ ⟨rfl, ht⟩
  exact .ok (ht.checkEvents.reel last cameras)

/-- Neighbours that are apart may change places. -/
theorem plan_swapped (h : Swapped m.script script) (o : PlanOptions K) :
    ((∃ reel, m.plan o = .ok reel) ↔
      ∃ reel', ({ m with script := script } : Movie K).plan o = .ok reel') ∧
    ∀ reel reel', m.plan o = .ok reel →
      ({ m with script := script } : Movie K).plan o = .ok reel' → PlaysAlike reel reel' := by
  by_cases hpass : m.issues = []
  · have hplans := h.plan (o := o) hpass
    refine ⟨hplans.exists_ok_iff, ?_⟩
    intro reel reel' hreel hreel'
    rw [hreel, hreel'] at hplans
    exact hplans.rel
  · have hfail : ∀ reel, m.plan o ≠ .ok reel := fun _ hreel => hpass (issues_nil_of_plan hreel)
    have hfail' : ∀ reel', ({ m with script := script } : Movie K).plan o ≠ .ok reel' := by
      intro reel' hreel'
      have hback : Swapped ({ m with script := script } : Movie K).script m.script := h.symm
      exact hpass (hback.issues_nil (issues_nil_of_plan hreel'))
    exact ⟨iff_of_false (fun ⟨reel, hreel⟩ => hfail reel hreel)
      fun ⟨reel', hreel'⟩ => hfail' reel' hreel', fun reel _ hreel _ => absurd hreel (hfail reel)⟩

end Plans

section Overstaying

/-- The script of `overstay` with its camera before its actor. -/
noncomputable def overstayTurned : List (Block ℝ) :=
  [.camera ⟨"C", [.hold (.seconds 2)]⟩, .actor ⟨"A", [.stay ⟨.tillEnd, none⟩]⟩,
    .simultaneous [.actor ⟨"A", []⟩]]

theorem overstay_plays_alike : Swapped overstay.script overstayTurned ∧ ∃ reel reel',
    overstay.plan Settings.standard.options = .ok reel ∧
    { overstay with script := overstayTurned }.plan Settings.standard.options = .ok reel' ∧
    PlaysAlike reel reel' := by
  have hswapped : Swapped overstay.script overstayTurned := .blocks [] _ (.actorCamera _ _)
  obtain ⟨hplans, halike⟩ := plan_swapped hswapped Settings.standard.options
  obtain ⟨reel, hreel, -⟩ := overstay_plan (o := Settings.standard.options)
  obtain ⟨reel', hreel'⟩ := hplans.mp ⟨reel, hreel⟩
  exact ⟨hswapped, reel, reel', hreel, hreel', halike reel reel' hreel hreel'⟩

end Overstaying

end Stagecraft.Proofs
