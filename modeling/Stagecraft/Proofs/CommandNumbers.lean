import Stagecraft.Proofs.OffendingCommands
import Stagecraft.Proofs.RefusedPlans
import Stagecraft.Proofs.ZoomTallies
import Stagecraft.Settings

/-!
# Numbers of commands

Whatever is found about a command is reported with its entity and its number: its place among the
commands to the entity, in the order of the script with groups taken apart. So it is in the issues
of a movie, in the errors of its plan and in what a plan reports, however long after the command
was met. The check of the tags alone counts otherwise.
-/

namespace Stagecraft

/-- The command that an error names. -/
def PlanError.command? {K : Type} : PlanError K → Option (String × ℕ)
  | .unresolved _ _ usage => usage.command?
  | .motion actor index _ => some (actor, index)
  | .afterTillEnd actor index => some (actor, index)
  | _ => none

end Stagecraft

namespace Stagecraft.Proofs

section Errors

variable {K : Type} [Scalar K] {m : Movie K} {o : PlanOptions K} {e : PlanError K}

/-- Where the errors of a plan come from. -/
lemma plan_error_cases (h : m.plan o = .error e) : e = .invalid m.issues ∨
    m.issues = [] ∧ (walk o m = .error e ∨ e = .endless ∨ e = .boundsUndefined) := by
  by_cases hissues : m.issues = []
  · refine Or.inr ⟨hissues, ?_⟩
    rcases (plan_error_iff hissues).mp h with hplayed | ⟨last, s, -, hbounds, -⟩
    · rcases bind_eq_error.mp hplayed with hwalk | ⟨s, -, hplayed⟩
      · exact Or.inl hwalk
      · rcases bind_eq_error.mp hplayed with hlast | ⟨ended, -, hplayed⟩
        · exact Or.inr (Or.inl (lastFrame_error hlast))
        · cases hplayed
    · exact Or.inr (Or.inr hbounds)
  · rw [plan_invalid hissues] at h
    cases h
    exact Or.inl rfl

/-- The command that an error names is one whose motion has no profile. -/
theorem plan_error_names_command (h : m.plan o = .error e) (hcommand : e.command? ≠ none) :
    MotionRefused o m e := by
  rcases plan_error_cases h with rfl | ⟨hissues, hwalk | rfl | rfl⟩
  · exact absurd rfl hcommand
  · refine walk_error (checked_of_issues_nil hissues) ?_ hwalk
    rintro rfl
    exact hcommand rfl
  · exact absurd rfl hcommand
  · exact absurd rfl hcommand

/-- A plan is refused for all the issues of its movie. -/
lemma plan_invalid_issues {issues : List (Issue K)} (h : m.plan o = .error (.invalid issues)) :
    issues = m.issues := by
  rcases plan_error_cases h with heq | ⟨hissues, hwalk | heq | heq⟩
  · cases heq
    rfl
  · cases walk_error (checked_of_issues_nil hissues) (fun he => by cases he) hwalk
  · cases heq
  · cases heq

end Errors

section Reports

variable {K : Type} [Scalar K] {m : Movie K} {o : PlanOptions K} {s : Session K} {last : ℕ}
  {d : Diagnostic (Finding K)}

/-- What a plan reports about a command, told by what became of it: an actor obeyed it where the
commands before it had led, or waited for the end of the movie by it, or a camera zoomed by it. -/
inductive Reported (o : PlanOptions K) (m : Movie K) (last : ℕ) (entity : String) (index : ℕ) :
    Finding K → Prop
  | obeyed {front after : List (Step K)} {c : Command K} {st : Stage K} {r r' : Run K}
    {findings : List (Finding K)} {finding : Finding K}
    (hc : (m.commandsFor entity)[index]? = some c)
    (hsteps : scriptSteps m = front ++ .command entity c :: after)
    (hindex : (commandsIn entity front).length = index)
    (hfront : front.foldlM perform ⟨Session.start m o, 0⟩ = .ok st)
    (hr : r ∈ st.session.runs) (hname : r.actor.name = entity)
    (hobey : obey st.session index { r with nextIndex := index + 1 } c = .ok (r', findings))
    (hfinding : finding ∈ findings) : Reported o m last entity index finding
  | tillEnd {c : Command K} {s : Session K} {r : Run K} {p : Parked K}
    (hc : (m.commandsFor entity)[index]? = some c) (hend : c.isTillEnd = true)
    (hwalk : walk o m = .ok s) (hr : r ∈ s.runs) (hname : r.actor.name = entity)
    (hparked : r.parked = some p) (hindex : p.index = index)
    (hlate : last < m.fps.frameAt p.start) : Reported o m last entity index .tillEndTooLate
  | zoom {subject : String} {occupancy minFocal maxFocal : Option K} {s : Session K}
    {sheet : CueSheet K}
    (hc : (cueCommands m entity)[index]? = some (.autoZoom subject occupancy minFocal maxFocal))
    (hplayed : played o m = .ok (last, s)) (hsheet : sheet ∈ s.sheets)
    (hname : sheet.camera.name = entity)
    (hheld : 0 < heldFrames m.fps o s.subject? sheet index (last + 1)) :
    Reported o m last entity index
      (.zoomClamped (heldFrames m.fps o s.subject? sheet index (last + 1)))

omit [Scalar K] in
lemma warns_diagnostics (entity : String) (findings : List (ℕ × Finding K)) (s : Session K) :
    (findings.foldl (fun s f => s.warn entity f.1 [f.2]) s).diagnostics =
      s.diagnostics ++ findings.map fun f => .warning entity (some f.1) f.2 := by
  induction findings generalizing s with
  | nil => exact (List.append_nil _).symm
  | cons f findings ih =>
    rw [List.foldl_cons, ih, List.map_cons, Session.warn, List.append_assoc]
    rfl

/-- A warning of an actor, told from the step that gave rise to it. -/
def WarnedIn (o : PlanOptions K) (m : Movie K) (steps : List (Step K))
    (d : Diagnostic (Finding K)) : Prop :=
  ∃ front c after st r r' findings finding,
    steps = front ++ .command r.actor.name c :: after ∧
    front.foldlM perform ⟨Session.start m o, 0⟩ = .ok st ∧ r ∈ st.session.runs ∧
    obey st.session r.nextIndex { r with nextIndex := r.nextIndex + 1 } c = .ok (r', findings) ∧
    finding ∈ findings ∧ d = .warning r.actor.name (some r.nextIndex) finding

lemma WarnedIn.append {front : List (Step K)} (h : WarnedIn o m front d) (step : Step K) :
    WarnedIn o m (front ++ [step]) d := by
  obtain ⟨before, c, after, st, r, r', findings, finding, rfl, hrest⟩ := h
  exact ⟨before, c, after ++ [step], st, r, r', findings, finding, by simp, hrest⟩

/-- While a script is walked, every warning comes from a command of its steps. -/
lemma walk_diagnostics (h : walk o m = .ok s) :
    ∀ d ∈ s.diagnostics, WarnedIn o m (scriptSteps m) d := by
  obtain ⟨t, hsteps⟩ := walk_ok 0 h
  let P (front : List (Step K)) (st : Stage K) : Prop :=
    front.foldlM perform ⟨Session.start m o, 0⟩ = .ok st ∧
      ∀ d ∈ st.session.diagnostics, WarnedIn o m front d
  have hstart : P [] ⟨Session.start m o, 0⟩ := ⟨rfl, nofun⟩
  refine (foldlM_induction (P := P) hstart ?_ hsteps).2
  rintro front step st st' ⟨hfront, hwarned⟩ hstep
  refine ⟨?_, fun d hd => ?_⟩
  · exact foldlM_split_ok.mpr ⟨st, st', hfront, hstep, rfl⟩
  · generalize hs' : st'.session = s' at hd
    have hperformed := perform_ok hstep
    rw [hs'] at hperformed
    cases hperformed with
    | gather | call | joinActor | joinCamera | cues => exact (hwarned d hd).append _
    | @command r r' c findings hr hparked hobey =>
      rcases List.mem_append.mp hd with hd | hd
      · exact (hwarned d hd).append _
      · obtain ⟨finding, hfinding, rfl⟩ := List.mem_map.mp hd
        exact ⟨front, c, [], st, r, r', findings, finding, rfl, hfront, hr, hobey, hfinding, rfl⟩

lemma obey_tillEnd_index {r r' : Run K} {c : Command K} {index : ℕ} {findings : List (Finding K)}
    {p : Parked K} (hend : c.isTillEnd = true) (h : obey s index r c = .ok (r', findings))
    (hp : r'.parked = some p) : p.index = index := by
  cases c with
  | stay c =>
    obtain ⟨length, clip⟩ := c
    cases length with
    | tillEnd =>
      cases h
      cases hp
      rfl
    | lasting span => cases hend
    | waiting moment => cases hend
  | move | face | follow => cases hend

/-- A run keeps the number of its commands, and that of the stay to the end by which it waits. -/
lemma parkedIndex_invariant : RunInvariant fun (front : List (Step K)) r =>
    r.nextIndex = (commandsIn r.actor.name front).length ∧ ∀ p, r.parked = some p →
      ∃ c, (commandsIn r.actor.name front)[p.index]? = some c ∧ c.isTillEnd = true where
  start a := ⟨rfl, nofun⟩
  other h hstep := by
    rw [commandsIn_other hstep]
    exact h
  join {front r} h rate moment := by
    refine ⟨counted_invariant.join h.1 rate moment, fun p hp => ?_⟩
    rw [holdUntil_parked] at hp
    rw [(holdUntil_kept rate moment none r).1, commandsIn_other fun _ hc => by cases hc]
    exact h.2 p hp
  command {front r r' s c findings} h hnone hobey := by
    refine ⟨counted_invariant.command h.1 hnone hobey, fun p hp => ?_⟩
    have hfree : ({ r with nextIndex := r.nextIndex + 1 } : Run K).parked = none := hnone
    have hend : c.isTillEnd = true :=
      (obey_parked hfree hobey).2.mp (Option.isSome_iff_exists.mpr ⟨p, hp⟩)
    refine ⟨c, ?_, hend⟩
    rw [(obey_kept hobey).1, commandsIn_command, obey_tillEnd_index hend hobey hp, h.1]
    exact List.getElem?_concat_length

/-- Fixing the last frame warns of no command. -/
lemma lastFrame_diagnostics {s' : Session K} (h : s.lastFrame = .ok (last, s')) : ∃ reports,
    s'.diagnostics = s.diagnostics ++ reports ∧ ∀ d ∈ reports, d.commandIndex = none := by
  unfold Session.lastFrame at h
  cases hduration : s.movie.duration with
  | some duration =>
    simp only [hduration, Except.ok.injEq, Prod.mk.injEq] at h
    obtain ⟨-, rfl⟩ := h
    split
    · exact ⟨_, rfl, List.forall_mem_singleton.mpr rfl⟩
    · exact ⟨[], (List.append_nil _).symm, nofun⟩
  | none =>
    simp only [hduration] at h
    split at h
    · cases h
    · cases h
      exact ⟨[], (List.append_nil _).symm, nofun⟩

lemma mem_of_lastFrame {s' : Session K} (h : s.lastFrame = .ok (last, s')) {index : ℕ}
    (hd : d ∈ s'.diagnostics) (hindex : d.commandIndex = some index) : d ∈ s.diagnostics := by
  obtain ⟨reports, hreports, hnone⟩ := lastFrame_diagnostics h
  rw [hreports] at hd
  rcases List.mem_append.mp hd with hd | hd
  · exact hd
  · rw [hnone d hd] at hindex
    cases hindex

/-- Events are checked last, and warned of under no command. -/
lemma checkEvents_diagnostics (last : ℕ) (s : Session K) : ∃ reports,
    (s.checkEvents last).diagnostics = s.diagnostics ++ reports ∧
      ∀ d ∈ reports, d.commandIndex = none := by
  unfold Session.checkEvents
  induction s.movie.timeline.map (Session.placeEvent s.movie.fps) generalizing s with
  | nil => exact ⟨[], (List.append_nil _).symm, nofun⟩
  | cons e events ih =>
    rw [List.foldl_cons]
    split
    · obtain ⟨reports, hreports, hnone⟩ := ih (s.warnMovie (.eventTooLate e.frame last))
      refine ⟨.warning s.movie.name none (.eventTooLate e.frame last) :: reports, ?_, ?_⟩
      · rw [hreports, List.append_cons]
        rfl
      · exact List.forall_mem_cons.mpr ⟨rfl, hnone⟩
    · exact ih s

/-- Playing the stays to the end warns of the stays that begin too late. -/
lemma finishRuns_diagnostics {rate : FrameRate K} {runs : List (Run K)} (hrate : s.movie.fps = rate)
    (hd : d ∈ (runs.foldl (Session.finishRun last) s).diagnostics) : d ∈ s.diagnostics ∨
      ∃ r ∈ runs, ∃ p, r.parked = some p ∧ last < rate.frameAt p.start ∧
        d = .warning r.actor.name (some p.index) .tillEndTooLate := by
  induction runs generalizing s with
  | nil => exact Or.inl hd
  | cons r runs ih =>
    obtain ⟨reports, hstep⟩ := finishRun_eq s last r
    have hmovie : (Session.finishRun last s r).movie.fps = rate := by
      rw [hstep]
      exact hrate
    rcases ih hmovie hd with hd | ⟨q, hq, hlate⟩
    · unfold Session.finishRun at hd
      dsimp only at hd
      rw [warns_diagnostics, finish_actor, hrate] at hd
      rcases List.mem_append.mp hd with hd | hd
      · exact Or.inl hd
      · obtain ⟨f, hf, rfl⟩ := List.mem_map.mp hd
        unfold Run.finish at hf
        cases hp : r.parked with
        | none =>
          rw [hp] at hf
          cases hf
        | some p =>
          rw [hp] at hf
          obtain ⟨hlate, hf⟩ := List.mem_ite_nil_right.mp hf
          rw [List.mem_singleton.mp hf]
          exact Or.inr ⟨r, List.mem_cons_self, p, hp, hlate, rfl⟩
    · exact Or.inr ⟨q, List.mem_cons_of_mem r hq, hlate⟩

/-- What is warned of a camera when it is shot. -/
def shotWarnings (s : Session K) (last : ℕ) (c : CueSheet K) : List (Diagnostic (Finding K)) :=
  match c.shoot? s.movie.fps s.options s.subject? last with
  | some (_, findings) => findings.map fun f => .warning c.camera.name (some f.1) f.2
  | none => []

/-- Shooting the cameras warns of what each of them reports, one after another. -/
lemma shoots_diagnostics {l : List (CueSheet K)} {reels cameras : List (CameraReel K)}
    {s' : Session K} (h : l.foldlM (Session.shoot last) (reels, s) = .ok (cameras, s')) :
    s'.diagnostics = s.diagnostics ++ l.flatMap (shotWarnings s last) := by
  induction l generalizing reels s with
  | nil =>
    cases h
    exact (List.append_nil _).symm
  | cons c l ih =>
    obtain ⟨⟨reels₁, s₁⟩, hshoot, h⟩ := bind_eq_ok.mp h
    obtain ⟨a, findings, hc, -, hs₁⟩ := shoot_ok hshoot
    obtain ⟨reports, hsame⟩ := shoot_sameButReports hshoot
    have hwarnings : shotWarnings s last c =
        findings.map fun f => .warning c.camera.name (some f.1) f.2 := by
      unfold shotWarnings
      rw [hc]
    have hrest : l.flatMap (shotWarnings s₁ last) = l.flatMap (shotWarnings s last) := by
      rw [hsame]
      rfl
    rw [ih h, hrest, List.flatMap_cons, ← List.append_assoc, hwarnings, hs₁, warns_diagnostics]

lemma mem_shotWarnings {c : CueSheet K} (hd : d ∈ shotWarnings s last c) : ∃ a findings,
    c.shoot? s.movie.fps s.options s.subject? last = some (a, findings) ∧
      ∃ f ∈ findings, d = .warning c.camera.name (some f.1) f.2 := by
  unfold shotWarnings at hd
  split at hd
  next a findings hshoot =>
    obtain ⟨f, hf, rfl⟩ := List.mem_map.mp hd
    exact ⟨a, findings, hshoot, f, hf, rfl⟩
  next => cases hd

/-- A warning of the walk is reported of the command that was obeyed. -/
lemma WarnedIn.reported (h : WarnedIn o m (scriptSteps m) d) {index : ℕ}
    (hindex : d.commandIndex = some index) : Reported o m last d.entity index d.message := by
  obtain
    ⟨front, c, after, st, r, r', findings, finding, hsteps, hfront, hr, hobey, hfinding, rfl⟩ := h
  cases hindex
  have hcounted := counted_invariant.steps_runs hfront r hr
  refine .obeyed ?_ hsteps hcounted.symm hfront hr rfl hobey hfinding
  change (m.commandsFor r.actor.name)[r.nextIndex]? = some c
  rw [← commandsIn_scriptSteps, hsteps, hcounted]
  exact commandsIn_at _ front after c

/-- What is warned of when the stays to the end are played, is reported of them. -/
lemma played_reports (hm : Checked m) (h : played o m = .ok (last, s)) {index : ℕ}
    (hd : d ∈ s.diagnostics) (hindex : d.commandIndex = some index) :
    Reported o m last d.entity index d.message := by
  obtain ⟨s₀, s₁, hwalk, hlast, rfl⟩ := played_ok h
  have hreached := walk_reached hm hwalk
  obtain ⟨reports, hsame⟩ := (lastFrame_ok hlast).1
  have hrate : s₁.movie.fps = m.fps := by
    rw [hsame, ← hreached.movie_eq]
  rcases finishRuns_diagnostics hrate hd with hd | ⟨r, hr, p, hp, hlate, rfl⟩
  · exact (walk_diagnostics hwalk d (mem_of_lastFrame hlast hd hindex)).reported hindex
  · cases hindex
    have hrun : r ∈ s₀.runs := by
      rw [hsame] at hr
      exact hr
    obtain ⟨c, hc, hend⟩ := (parkedIndex_invariant.walk_runs hwalk r hrun).2 p hp
    rw [commandsIn_scriptSteps] at hc
    exact .tillEnd hc hend hwalk hrun rfl hp rfl hlate

/-- What a camera reports of a zoom, it reports of the command that asked for it. -/
lemma shot_reports (hm : Checked m) (h : played o m = .ok (last, s)) {c : CueSheet K}
    (hc : c ∈ s.sheets) {a : CameraReel K} {findings : List (ℕ × Finding K)}
    (hshoot : c.shoot? s.movie.fps s.options s.subject? last = some (a, findings))
    {f : ℕ × Finding K} (hf : f ∈ findings) : Reported o m last c.camera.name f.1 f.2 := by
  obtain ⟨s₀, hwalk, -, hmovie, hoptions, -, hsheets⟩ := played_reached hm h
  rw [hmovie, hoptions] at hshoot
  have hnumbered := cuesNumbered_invariant.walk_sheets hwalk c (hsheets ▸ hc)
  have hindices : (c.cues.map Cue.index).Nodup := by
    rw [hnumbered.indices_eq]
    exact List.nodup_range
  obtain ⟨hheld, hfinding⟩ := shoot?_tallied hindices hshoot f hf
  obtain ⟨q, hq, hindex, subject, occupancy, minFocal, maxFocal, hzoom⟩ := exists_zoom_of_held hheld
  have hcommand := hnumbered.getElem?_index hq
  rw [hindex, hzoom] at hcommand
  rw [hfinding]
  exact .zoom hcommand h hc rfl hheld

/-- A plan reports what is warned of when the movie is played, then of its cameras, and last of its
events. -/
lemma plan_diagnostics {reel : Reel K} (h : m.plan o = .ok reel) : ∃ s reports,
    played o m = .ok (reel.lastFrame, s) ∧ (∀ d ∈ reports, d.commandIndex = none) ∧
      reel.diagnostics =
        s.diagnostics ++ s.sheets.flatMap (shotWarnings s reel.lastFrame) ++ reports := by
  rw [plan_eq (issues_nil_of_plan h)] at h
  obtain ⟨⟨last, s⟩, hplayed, h⟩ := bind_eq_ok.mp h
  obtain ⟨⟨cameras, s'⟩, hshoots, h⟩ := bind_eq_ok.mp h
  obtain ⟨reports, hchecked, hnone⟩ := checkEvents_diagnostics last s'
  rw [shoots_diagnostics hshoots] at hchecked
  cases h
  exact ⟨s, reports, hplayed, hnone, hchecked⟩

/-- Every warning with an index is reported of the command at that place. -/
theorem plan_reports_commands {reel : Reel K} (h : m.plan o = .ok reel) {index : ℕ}
    (hd : d ∈ reel.diagnostics) (hindex : d.commandIndex = some index) :
    Reported o m reel.lastFrame d.entity index d.message := by
  have hm := checked_of_issues_nil (issues_nil_of_plan h)
  obtain ⟨s, reports, hplayed, hnone, hdiagnostics⟩ := plan_diagnostics h
  rw [hdiagnostics] at hd
  rcases List.mem_append.mp hd with hd | hd
  · rcases List.mem_append.mp hd with hd | hd
    · exact played_reports hm hplayed hd hindex
    · obtain ⟨c, hc, hd⟩ := List.mem_flatMap.mp hd
      obtain ⟨a, findings, hshoot, f, hf, rfl⟩ := mem_shotWarnings hd
      cases hindex
      exact shot_reports hm hplayed hc hshoot hf
  · cases (hnone d hd).symm.trans hindex

end Reports

section Numbering

variable {K : Type} [Scalar K] [Numeral K]

/-- The numbering of commands. The number of a command that an issue, an error or a warning names is
its place among the commands to its entity. Where a command of a sequence gets a tag that nobody
knows, that place is reported too, and with it how many commands of the other kind are addressed to
the same name before. -/
structure CommandsNumbered (o : PlanOptions K) (m : Movie K) : Prop where
  exists_place : ∀ {earlier later b}, m.sequences = earlier ++ b :: later →
    ∃ path, StandsAt m path earlier b
  actor_tag : ∀ {path earlier q before c after kind text}, StandsAt m path earlier (.actor q) →
    q.commands = before ++ c :: after → kind ∉ Command.kinds →
    Json.parse? text = some (m.retagged path before.length kind) → ∃ index,
      index = Movie.actorCommandCount q.actor earlier + before.length ∧
      (m.commandsFor q.actor)[index]? = some c ∧
      Movie.read (K := K) text = .error (.unknownCommand q.actor
        (index + Movie.cameraCommandCount q.actor earlier) kind)
  camera_tag : ∀ {path earlier q before c after kind text}, StandsAt m path earlier (.camera q) →
    q.commands = before ++ c :: after → kind ∉ CameraCommand.kinds →
    Json.parse? text = some (m.retagged path before.length kind) → ∃ index,
      index = Movie.cameraCommandCount q.camera earlier + before.length ∧
      (cueCommands m q.camera)[index]? = some c ∧
      Movie.read (K := K) text = .error (.unknownCommand q.camera
        (index + Movie.actorCommandCount q.camera earlier) kind)
  issues_iff : ∀ {issue entity index}, issue.command? = some (entity, index) →
    (issue ∈ m.issues ↔ Offends m entity index issue)
  invalid_issues : ∀ {issues}, m.plan o = .error (.invalid issues) → issues = m.issues
  error_refused : ∀ {e}, m.plan o = .error e → e.command? ≠ none → MotionRefused o m e
  warning_reported : ∀ {reel d index}, m.plan o = .ok reel → d ∈ reel.diagnostics →
    d.commandIndex = some index → Reported o m reel.lastFrame d.entity index d.message

/-- Commands are numbered alike by all that report of them, but for the check of the tags, which
counts an actor's commands and a camera's together. -/
theorem commands_numbered (o : PlanOptions K) (m : Movie K) : CommandsNumbered o m where
  exists_place := exists_standsAt
  actor_tag {path earlier q before c after kind text} hstands hcommands hkind hparse := by
    obtain ⟨later, hsequences⟩ := hstands.sequences_eq
    refine ⟨_, rfl, commandsFor_getElem?_iff.mpr
      ⟨earlier, q, later, before, after, hsequences, rfl, hcommands, rfl⟩, ?_⟩
    have hlist : listAt? "commands" (Block.actor q).toJson =
        some (before.map Command.toJson ++ c.toJson :: after.map Command.toJson) := by
      rw [← List.map_cons, ← List.map_append, ← hcommands]
      rfl
    have htag : (c.toJson.get? "type").isSome = true := by
      cases c <;> simp [Command.toJson, Json.get?]
    rw [← List.length_map (f := Command.toJson)] at hparse
    rw [read_retagged hstands (.actor rfl) hlist htag hkind hparse, List.length_map,
      Nat.add_right_comm]
  camera_tag {path earlier q before c after kind text} hstands hcommands hkind hparse := by
    obtain ⟨later, hsequences⟩ := hstands.sequences_eq
    refine ⟨_, rfl, cueCommands_getElem?_iff.mpr
      ⟨earlier, q, later, before, after, hsequences, rfl, hcommands, rfl⟩, ?_⟩
    have hlist : listAt? "commands" (Block.camera q).toJson =
        some (before.map CameraCommand.toJson ++ c.toJson :: after.map CameraCommand.toJson) := by
      rw [← List.map_cons, ← List.map_append, ← hcommands]
      rfl
    have htag : (c.toJson.get? "type").isSome = true := by
      cases c <;> simp [CameraCommand.toJson, Json.get?]
    rw [← List.length_map (f := CameraCommand.toJson)] at hparse
    rw [read_retagged hstands (.camera rfl rfl) hlist htag hkind hparse, List.length_map,
      Nat.add_comm (Movie.actorCommandCount q.camera earlier), Nat.add_right_comm]
  issues_iff := issue_names_offender
  invalid_issues := plan_invalid_issues
  error_refused := plan_error_names_command
  warning_reported hplan hd hindex := plan_reports_commands hplan hd hindex

end Numbering

section Namesakes

/-- A camera sequence goes by the name of an actor, and the actor waits for a time that is no time
of a movie. -/
def namesake : Movie Float :=
  { Movie.empty "namesake" 1 with
    actors := [Actor.named "A"]
    script :=
      [.camera ⟨"A", [.stopTracking]⟩, .actor ⟨"A", [.stay ⟨.waiting (.seconds (-1)), none⟩]⟩] }

/-- The actor's only command is told to turn a cartwheel. -/
def cartwheel : Json Float :=
  namesake.retagged [.member "script", .item 1] 0 "cartwheel"

lemma cartwheel_parses : Json.parse? cartwheel.indented = some cartwheel := by
  have hnumbers : ∀ n ∈ cartwheel.numbers, n.ReadsBack := by decide +kernel
  have hdepth : cartwheel.depth ≤ Json.nestingLimit := by decide +kernel
  exact parse_render .indented cartwheel hnumbers hdepth

/-- The check of the tags takes the actor's first command for its second. -/
theorem cartwheel_misnumbered : (namesake.declared.map Prod.fst).Nodup ∧
    (∀ members, Block.simultaneous members ∉ namesake.script) ∧
    Json.parse? cartwheel.indented = some cartwheel ∧
    namesake.commandsFor "A" = [.stay ⟨.waiting (.seconds (-1)), none⟩] ∧
    Movie.read (K := Float) cartwheel.indented = .error (.unknownCommand "A" 1 "cartwheel") := by
  have hcheck : RawCommand.check [] (RawCommand.ofMovie cartwheel) =
      .error (.unknownCommand "A" 1 "cartwheel") := rfl
  refine ⟨List.nodup_singleton _, ?_, cartwheel_parses, rfl, ?_⟩
  · intro members hmembers
    simp [namesake] at hmembers
  · rw [read_of_parse cartwheel_parses, Movie.ofRaw, hcheck]
    rfl

/-- A camera is to zoom in on an actor, who turns to another in the same place. -/
def encounter : Movie Float :=
  { Movie.empty "encounter" 1 with
    actors := [Actor.named "A", Actor.named "B"]
    cameras := [Camera.named "C"]
    script :=
      [.camera ⟨"C", [.stopTracking]⟩,
        .simultaneous [.camera ⟨"C", [.autoZoom "A" none none none]⟩,
          .actor ⟨"A", [.stay ⟨.lasting (.seconds 1), none⟩]⟩],
        .actor ⟨"A", [.face ⟨.actor "B", .seconds 1, none⟩]⟩] }

/-- An actor is sent off without a word on how to go. -/
def astray : Movie Float :=
  { Movie.empty "astray" 1 with
    actors := [Actor.named "A"]
    script :=
      [.actor ⟨"A", [.stay ⟨.lasting (.seconds 1), none⟩]⟩,
        .actor ⟨"A", [.move ⟨.forward, none, {}, none, none⟩]⟩] }

lemma encounter_plan : ∃ reel, encounter.plan Settings.standard.options = .ok reel ∧
    reel.diagnostics.map (fun d => (d.entity, d.commandIndex)) =
      [("A", some 1), ("C", some 1)] := by
  have hplan : (match encounter.plan Settings.standard.options with
      | .ok reel => reel.diagnostics.map fun d => (d.entity, d.commandIndex)
      | .error _ => []) = [("A", some 1), ("C", some 1)] := by decide +kernel
  cases h : encounter.plan Settings.standard.options with
  | ok reel =>
    rw [h] at hplan
    exact ⟨reel, rfl, hplan⟩
  | error e =>
    rw [h] at hplan
    cases hplan

lemma astray_plan : ∃ e, astray.plan Settings.standard.options = .error e ∧
    e.command? = some ("A", 1) := by
  have hplan : (match astray.plan Settings.standard.options with
      | .ok _ => none
      | .error e => e.command?) = some ("A", 1) := by decide +kernel
  cases h : astray.plan Settings.standard.options with
  | ok reel =>
    rw [h] at hplan
    cases hplan
  | error e =>
    rw [h] at hplan
    exact ⟨e, rfl, hplan⟩

theorem namesake_commands_numbered :
    Movie.read (K := Float) cartwheel.indented = .error (.unknownCommand "A" (0 + 1) "cartwheel") ∧
    (∃ issue ∈ namesake.issues, issue.command? = some ("A", 0) ∧ Offends namesake "A" 0 issue) ∧
    (∃ e, astray.plan Settings.standard.options = .error e ∧ e.command? = some ("A", 1) ∧
      MotionRefused Settings.standard.options astray e) ∧
    ∃ reel, encounter.plan Settings.standard.options = .ok reel ∧ ∀ entity ∈ ["A", "C"],
      ∃ d ∈ reel.diagnostics, d.entity = entity ∧
        Reported Settings.standard.options encounter reel.lastFrame entity 1 d.message := by
  refine ⟨?_, ?_, ?_, ?_⟩
  · let wait : Command Float := .stay ⟨.waiting (.seconds (-1)), none⟩
    have hscript : namesake.script =
        [.camera ⟨"A", [.stopTracking]⟩] ++ .actor ⟨"A", [wait]⟩ :: [] := rfl
    have hcommands : [wait] = [] ++ wait :: [] := rfl
    obtain ⟨index, rfl, -, hread⟩ :=
      (commands_numbered Settings.standard.options namesake).actor_tag (.alone hscript nofun)
        hcommands (by decide) cartwheel_parses
    exact hread
  · have hnamed : some ("A", 0) ∈ namesake.issues.map Issue.command? := by decide +kernel
    obtain ⟨issue, hissue, hcommand⟩ := List.mem_map.mp hnamed
    exact ⟨issue, hissue, hcommand,
      ((commands_numbered Settings.standard.options namesake).issues_iff hcommand).mp hissue⟩
  · obtain ⟨e, hplan, hcommand⟩ := astray_plan
    refine ⟨e, hplan, hcommand, (commands_numbered _ astray).error_refused hplan ?_⟩
    rw [hcommand]
    exact Option.some_ne_none _
  · obtain ⟨reel, hplan, hdiagnostics⟩ := encounter_plan
    refine ⟨reel, hplan, fun entity hentity => ?_⟩
    have hwarned : (entity, some 1) ∈ reel.diagnostics.map fun d => (d.entity, d.commandIndex) := by
      rw [hdiagnostics]
      simpa using hentity
    obtain ⟨d, hd, heq⟩ := List.mem_map.mp hwarned
    obtain ⟨rfl, hindex⟩ := Prod.mk.inj heq
    exact ⟨d, hd, rfl, (commands_numbered _ encounter).warning_reported hplan hd hindex⟩

end Namesakes

end Stagecraft.Proofs
