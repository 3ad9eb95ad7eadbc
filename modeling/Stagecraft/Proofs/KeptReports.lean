import Stagecraft.Proofs.CommandNumbers

/-!
# Kept reports

No stage of a plan takes back what an earlier one has reported. So a plan shows whatever is found
of a command while the script is walked, under the number of that command.
-/

namespace Stagecraft.Proofs

variable {K : Type} [Scalar K] {m : Movie K} {o : PlanOptions K} {s s' : Session K} {last : ℕ}

lemma Performed.reports_kept {st : Stage K} {step : Step K} (h : Performed st step s') :
    st.session.diagnostics <+: s'.diagnostics := by
  cases h with
  | command => exact List.prefix_append _ _
  | gather | call | joinActor | joinCamera | cues => exact List.prefix_refl _

lemma steps_reports_kept {steps : List (Step K)} {st st' : Stage K}
    (h : steps.foldlM perform st = .ok st') :
    st.session.diagnostics <+: st'.session.diagnostics :=
  foldlM_induction (P := fun _ t => st.session.diagnostics <+: t.session.diagnostics)
    (List.prefix_refl _) (fun _ _ _ _ hkept hstep => hkept.trans (perform_ok hstep).reports_kept) h

lemma lastFrame_reports_kept (h : s.lastFrame = .ok (last, s')) :
    s.diagnostics <+: s'.diagnostics := by
  obtain ⟨reports, hreports, -⟩ := lastFrame_diagnostics h
  exact ⟨reports, hreports.symm⟩

lemma finishRuns_reports_kept (last : ℕ) (s : Session K) :
    s.diagnostics <+: (s.finishRuns last).diagnostics := by
  unfold Session.finishRuns
  generalize s.runs = runs
  induction runs generalizing s with
  | nil => exact List.prefix_refl _
  | cons r runs ih =>
    refine List.IsPrefix.trans ?_ (ih (Session.finishRun last s r))
    unfold Session.finishRun
    dsimp only
    rw [warns_diagnostics]
    exact List.prefix_append _ _

section Plans

variable {reel : Reel K} {front after : List (Step K)} {st : Stage K} {name : String}
  {c : Command K} {r r' : Run K} {findings : List (Finding K)} {finding : Finding K}

/-- A plan reports something of a command. -/
def ReportedOf (reel : Reel K) (name : String) (index : ℕ) (finding : Finding K) : Prop :=
  ∃ d ∈ reel.diagnostics, d.entity = name ∧ d.commandIndex = some index ∧ d.message = finding

/-- What is reported when a part of the script is walked is reported by the plan. -/
theorem plan_keeps_reports (h : m.plan o = .ok reel) (hsteps : scriptSteps m = front ++ after)
    (hfront : front.foldlM perform ⟨Session.start m o, 0⟩ = .ok st) :
    st.session.diagnostics <+: reel.diagnostics := by
  obtain ⟨s, reports, hplayed, -, hdiagnostics⟩ := plan_diagnostics h
  obtain ⟨s₀, s₁, hwalk, hlast, rfl⟩ := played_ok hplayed
  obtain ⟨t, hwalked⟩ := walk_ok 0 hwalk
  rw [hsteps, List.foldlM_append, bind_of_ok hfront] at hwalked
  have hplay_kept := ((steps_reports_kept hwalked).trans (lastFrame_reports_kept hlast)).trans
    (finishRuns_reports_kept reel.lastFrame s₁)
  rw [hdiagnostics, List.append_assoc]
  exact hplay_kept.trans (List.prefix_append _ _)

/-- Whatever is found of a command that is obeyed is reported under its number. -/
theorem plan_reports_found (h : m.plan o = .ok reel)
    (hsteps : scriptSteps m = front ++ .command name c :: after)
    (hfront : front.foldlM perform ⟨Session.start m o, 0⟩ = .ok st)
    (hrun : st.session.run name = .ok r) (hparked : r.parked = none)
    (hobey : obey st.session r.nextIndex { r with nextIndex := r.nextIndex + 1 } c =
      .ok (r', findings)) (hfinding : finding ∈ findings) :
    ReportedOf reel name r.nextIndex finding := by
  have hcommand : Session.command name st.session c =
      .ok ((st.session.setRun r').warn name r.nextIndex findings) := by
    rw [command_eq hrun hparked]
    exact bind_of_ok hobey _
  have hwalked : (front ++ [Step.command name c]).foldlM perform ⟨Session.start m o, 0⟩ =
      .ok { st with session := (st.session.setRun r').warn name r.nextIndex findings } :=
    foldlM_split_ok.mpr ⟨st, _, hfront, bind_of_ok hcommand _, rfl⟩
  have hsplit : scriptSteps m = (front ++ [Step.command name c]) ++ after := by
    rw [hsteps, List.append_assoc, List.singleton_append]
  refine ⟨.warning name (some r.nextIndex) finding, ?_, rfl, rfl, rfl⟩
  refine (plan_keeps_reports h hsplit hwalked).subset ?_
  exact List.mem_append_right _ (List.mem_map_of_mem hfinding)

/-- Of a command that does not wait for the end of the movie nothing else is reported than what is
found when it is obeyed. -/
theorem plan_reports_iff (h : m.plan o = .ok reel)
    (hsteps : scriptSteps m = front ++ .command name c :: after)
    (hfront : front.foldlM perform ⟨Session.start m o, 0⟩ = .ok st)
    (hrun : st.session.run name = .ok r) (hparked : r.parked = none)
    (hobey : obey st.session r.nextIndex { r with nextIndex := r.nextIndex + 1 } c =
      .ok (r', findings)) (hend : c.isTillEnd = false) (finding : Finding K) :
    ReportedOf reel name r.nextIndex finding ↔ finding ∈ findings := by
  refine ⟨?_, plan_reports_found h hsteps hfront hrun hparked hobey⟩
  rintro ⟨d, hd, hentity, hindex, hmessage⟩
  have hm := checked_of_issues_nil (issues_nil_of_plan h)
  have hreached := steps_reached hm hfront
  obtain ⟨hmem, hname⟩ := run_ok hrun
  have hcounted : r.nextIndex = (commandsIn name front).length := by
    rw [hreached.counted r hmem, hname]
  have hreported := plan_reports_commands h hd hindex
  rw [hentity, hmessage] at hreported
  cases hreported with
  | obeyed _ hsteps' hindex' hfront' hr' hname' hobey' hfinding =>
    obtain ⟨rfl, rfl, -⟩ :=
      steps_split_unique (hsteps.symm.trans hsteps') (hcounted.symm.trans hindex'.symm)
    cases hfront.symm.trans hfront'
    have hrun' := run_of_mem (hreached.runNames_nodup hm) hr'
    rw [hname'] at hrun'
    cases hrun.symm.trans hrun'
    cases hobey.symm.trans hobey'
    exact hfinding
  | tillEnd hc hend' =>
    have hat := commandsIn_at name front after c
    rw [← hsteps, commandsIn_scriptSteps, ← hcounted, hc] at hat
    cases hat
    cases hend.symm.trans hend'
  | zoom _ hplayed hsheet hname' =>
    -- No camera has the name of an actor.
    obtain ⟨s₀, -, hwalked, -, -, -, hsheets⟩ := played_reached hm hplayed
    have hactor : r.actor ∈ m.actors := hreached.actors_eq ▸ List.mem_map_of_mem hmem
    have hcamera := hwalked.cameras_eq ▸ List.mem_map_of_mem (hsheets ▸ hsheet)
    exact absurd (hname.trans hname'.symm) (hm.actor_ne_camera hactor hcamera)

end Plans

end Stagecraft.Proofs
