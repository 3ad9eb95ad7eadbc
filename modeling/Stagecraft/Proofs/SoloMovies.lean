import Stagecraft.Proofs.PlannedMovies

/-!
# Solo movies

In a movie of one actor and no camera, all that happens is what the run of the actor makes of one
command after another, and the plan shows that run.
-/

namespace Stagecraft.Proofs

section Issues

variable {name : String} {commands : List (Command ℝ)}

/-- A movie of an actor with a sequence for each of some commands. -/
noncomputable def solo (name : String) (commands : List (Command ℝ)) : Movie ℝ :=
  { Movie.empty name 1 with
    actors := [Actor.named "A"]
    script := commands.map fun c => .actor ⟨"A", [c]⟩ }

/-- A command that raises no issue in any movie and lets others follow. -/
def Harmless (c : Command ℝ) : Prop :=
  (∀ (m : Movie ℝ) index, m.commandIssues "A" index c = []) ∧ c.isTillEnd = false

lemma solo_scriptIssues (h : ∀ c ∈ commands, Harmless c) {m : Movie ℝ}
    (hname : m.nameIssue? .actor "A" .actorSequence = none) (earlier : List (Block ℝ)) :
    m.scriptIssues earlier (commands.map fun c => .actor ⟨"A", [c]⟩) = [] := by
  induction commands generalizing earlier with
  | nil => rfl
  | cons c commands ih =>
    rw [List.forall_mem_cons] at h
    rw [List.map_cons, Movie.scriptIssues, ih h.2, List.append_nil, Movie.sequenceIssues, hname]
    simp [h.1.1]

lemma solo_sequences : (solo name commands).sequences =
    commands.map fun c => .actor ⟨"A", [c]⟩ := by
  have hflat : ∀ c : Command ℝ, Block.flatten (.actor ⟨"A", [c]⟩) = [.actor ⟨"A", [c]⟩] :=
    fun _ => rfl
  simp only [Movie.sequences, solo, List.flatMap_map, hflat]
  exact List.flatMap_pure_eq_map _ commands

lemma solo_commandsFor : (solo name commands).commandsFor "A" = commands := by
  simp [Movie.commandsFor, solo_sequences, List.flatMap_map]

lemma solo_issues (h : ∀ c ∈ commands, Harmless c) : (solo name commands).issues = [] := by
  have hactor : Movie.actorIssues (Actor.named "A" : Actor ℝ) = [] := actorIssues_named "A"
  have hname : (solo name commands).nameIssue? .actor "A" .actorSequence = none := by
    simp [Movie.nameIssue?, Movie.kind?, Movie.declared, solo, Movie.empty, Actor.named,
      isBlankText, isBlankChar]
  have hscript := solo_scriptIssues h hname []
  have hend : (solo name commands).tillEndIssues (Actor.named "A") = [] := by
    have hnone : commands.findIdx? Command.isTillEnd = none :=
      List.findIdx?_eq_none_iff.mpr fun c hc => (h c hc).2
    have hcommands : (solo name commands).commandsFor (Actor.named "A" : Actor ℝ).name = commands :=
      solo_commandsFor
    unfold Movie.tillEndIssues
    dsimp only
    rw [hcommands, hnone]
  have hgroups : (solo name commands).groupIssues = [] := by
    simp [Movie.groupIssues, solo, List.zipIdx_map, List.flatMap_map]
  have hrate : (solo name commands).fps.isValid = true := isValid_real.mpr one_pos
  have hnames : Movie.nameIssues (K := ℝ) [] (solo name commands).declared = [] := by
    simp [Movie.nameIssues, Movie.declared, solo, Movie.empty, Actor.named, isBlankText,
      isBlankChar]
  have hactors : (solo name commands).actors = [Actor.named "A"] := rfl
  have hduration : (solo name commands).duration = none := rfl
  have hcameras : (solo name commands).cameras = [] := rfl
  have hsplines : (solo name commands).splines = [] := rfl
  have htimeline : (solo name commands).timeline = [] := rfl
  simp [Movie.issues, hrate, hnames, hactors, hduration, hcameras, hsplines, htimeline, hactor,
    hgroups, solo_sequences, hscript, hend]

end Issues

section Staging

variable {m : Movie ℝ} {o : PlanOptions ℝ} {s : Session ℝ} {a a' : Run ℝ}

/-- A session that has one run, of an actor that may be commanded. -/
structure Alone (m : Movie ℝ) (o : PlanOptions ℝ) (s : Session ℝ) (a : Run ℝ) : Prop where
  follows : Follows (Session.start m o) s
  runs_eq : s.runs = [a]
  sheets_eq : s.sheets = []
  actor_eq : a.actor = Actor.named "A"
  parked_eq : a.parked = none

namespace Alone

lemma run_eq (h : Alone m o s a) : s.run "A" = .ok a := by
  unfold Session.run
  simp [h.runs_eq, h.actor_eq, Actor.named]

lemma obey (hv : Valid m) (h : Alone m o s a) {c : Command ℝ} {findings : List (Finding ℝ)}
    (hobey : Proofs.obey s a.nextIndex { a with nextIndex := a.nextIndex + 1 } c =
      .ok (a', findings)) (hparked : a'.parked = none) :
    ∃ s', s.block (.actor ⟨"A", [c]⟩) = .ok s' ∧ Alone m o s' a' := by
  have hname : a.actor.name = "A" := congrArg Actor.name h.actor_eq
  obtain ⟨s', hblock, hs', hruns, hsheets⟩ := block_command (h.follows.runNames_nodup hv)
    (show s.runs = [] ++ a :: [] from h.runs_eq) h.parked_eq hobey
  rw [hname] at hblock
  exact ⟨s', hblock, h.follows.trans hs', hruns, hsheets.trans h.sheets_eq,
    (obey_kept hobey).1.trans h.actor_eq, hparked⟩

/-- The plan shows the run that stands alone at the end. -/
lemma plan (hissues : m.issues = []) (hduration : m.duration = none) (h : Alone m o s a)
    (hwalk : walk o m = .ok s) :
    ∃ reel s', m.plan o = .ok reel ∧ played o m = .ok (reel.lastFrame, s') ∧ s'.runs = [a] ∧
      ⟨a.actor, a.transform, a.animation⟩ ∈ reel.actors := by
  obtain ⟨reel, s', hplan, hplayed, -, hsame⟩ :=
    plan_of_walk hissues hwalk hduration (by simp [h.runs_eq, h.parked_eq]) h.sheets_eq
  obtain ⟨s'', hplayed', -, -, hreels⟩ := plan_actors hplan
  rw [hplayed] at hplayed'
  cases hplayed'
  have hruns : s'.runs = [a] := hsame.trans h.runs_eq
  obtain ⟨_, hmem, -, rfl⟩ := mem_of_forall₂_left hreels (a := a) (by simp [hruns])
  exact ⟨reel, s', hplan, hplayed, hruns, hmem⟩

lemma onTime (hv : Valid m) (h : Alone m o s a) : OnTime m.fps a :=
  h.follows.onTime hv (by simp [h.runs_eq])

end Alone

end Staging

end Stagecraft.Proofs
