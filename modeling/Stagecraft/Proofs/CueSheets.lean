import Stagecraft.Proofs.PlannedMovies

/-!
# Cue sheets

A camera's sheet takes down its commands in the order of the script, each at the camera's cursor.
The cursor never goes back, neither within a sequence nor where a group raises it to its start, so
the cues stand in the order of their times, and the movie does not end before any of them.
-/

namespace Stagecraft.Proofs

section Scripts

variable {K : Type}

/-- The commands to a camera, in script order. -/
def cueCommands (m : Movie K) (name : String) : List (CameraCommand K) :=
  m.sequences.flatMap fun
    | .camera q => if q.camera = name then q.commands else []
    | _ => []

/-- The commands to a camera among some steps. -/
def cuesIn (name : String) (steps : List (Step K)) : List (CameraCommand K) :=
  steps.flatMap fun
    | .cues q => if q.camera = name then q.commands else []
    | _ => []

variable {name : String} {front : List (Step K)}

lemma cuesIn_cues (q : CameraSequence K) (h : q.camera = name) :
    cuesIn name (front ++ [.cues q]) = cuesIn name front ++ q.commands := by
  unfold cuesIn
  rw [List.flatMap_append, List.flatMap_singleton]
  simp only [if_pos h]

lemma cuesIn_other {step : Step K} (h : ∀ q, step = .cues q → q.camera ≠ name) :
    cuesIn name (front ++ [step]) = cuesIn name front := by
  have hnil : cuesIn name [step] = [] := by
    cases step with
    | cues q => simp [cuesIn, h q rfl]
    | gather | joinActor | joinCamera | call | command | nest => rfl
  unfold cuesIn at hnil ⊢
  rw [List.flatMap_append, hnil, List.append_nil]

/-- The steps of a script cue every camera as its sequences do, in their order. -/
theorem cuesIn_scriptSteps (m : Movie K) (name : String) :
    cuesIn name (scriptSteps m) = cueCommands m name := by
  have hactor : ∀ q : ActorSequence K, cuesIn name (actorSteps q) = [] := by
    intro q
    unfold cuesIn actorSteps
    rw [List.flatMap_cons, List.flatMap_map, List.nil_append, List.flatMap_eq_nil_iff]
    exact fun _ _ => rfl
  have hmember : ∀ b : Block K, cuesIn name (memberSteps b) =
      match b with
      | .camera q => if q.camera = name then q.commands else []
      | _ => [] := by
    intro b
    cases b with
    | actor q => exact hactor q
    | camera q => exact List.append_nil _
    | simultaneous members => rfl
  unfold scriptSteps cueCommands Movie.sequences
  rw [List.flatMap_assoc]
  unfold cuesIn at hactor hmember ⊢
  rw [List.flatMap_assoc]
  apply List.flatMap_congr
  intro b _
  cases b with
  | actor q =>
    rw [blockSteps, hactor]
    rfl
  | camera q => rfl
  | simultaneous members =>
    rw [blockSteps, List.flatMap_cons, List.flatMap_assoc]
    exact List.flatMap_congr fun b _ => hmember b

end Scripts

section Keeping

variable {K : Type} [Scalar K]

/-- A property of sheets and the commands they have taken down, which all steps of a script keep:
waiting with a group, and taking down one more command. -/
structure SheetInvariant (P : List (CameraCommand K) → CueSheet K → Prop) : Prop where
  blank : ∀ c, P [] (.blank c)
  join : ∀ {commands c}, P commands c → ∀ t,
    P commands { c with cursor := Scalar.larger c.cursor t }
  add : ∀ {commands c}, P commands c → ∀ command, P (commands ++ [command]) (c.add command)

namespace SheetInvariant

variable {P : List (CameraCommand K) → CueSheet K → Prop} {m : Movie K} {o : PlanOptions K}
  {s : Session K}

lemma adds (hP : SheetInvariant P) {commands : List (CameraCommand K)} {c : CueSheet K}
    (h : P commands c) (l : List (CameraCommand K)) :
    P (commands ++ l) (l.foldl CueSheet.add c) := by
  induction l generalizing commands c with
  | nil =>
    rw [List.append_nil]
    exact h
  | cons command l ih =>
    rw [List.append_cons]
    exact ih (hP.add h command)

/-- A step adds to the sheet of the camera it cues, and to no other. -/
lemma step_sheets (hP : SheetInvariant P) {front : List (Step K)} {step : Step K} {st : Stage K}
    {s' : Session K} (hst : ∀ c ∈ st.session.sheets, P (cuesIn c.camera.name front) c)
    (h : Performed st step s') : ∀ c ∈ s'.sheets, P (cuesIn c.camera.name (front ++ [step])) c := by
  have hother (hstep : ∀ q, step ≠ .cues q) (c : CueSheet K) (hc : c ∈ st.session.sheets) :
      P (cuesIn c.camera.name (front ++ [step])) c := by
    rw [cuesIn_other fun q hq => absurd hq (hstep q)]
    exact hst c hc
  cases h with
  | gather => exact hother nofun
  | call actor => exact hother nofun
  | joinActor hr => exact hother nofun
  | command hr hparked hobey => exact hother nofun
  | joinCamera hc =>
    intro d hd
    rcases mem_setSheet hd with rfl | hd
    · exact hP.join (hother nofun _ hc) _
    · exact hother nofun d hd
  | @cues c q hc hname =>
    intro d hd
    rcases mem_replaced (fun d : CueSheet K => d.camera.name) hd with rfl | ⟨hd, hne⟩
    · have hcommands := hP.adds (hst c hc) q.commands
      rw [← cuesIn_cues q hname.symm] at hcommands
      rw [add_camera]
      exact hcommands
    · rw [add_camera, hname] at hne
      rw [cuesIn_other fun q' hq' => by cases hq'; exact hne.symm]
      exact hst d hd

theorem walk_sheets (hP : SheetInvariant P) (h : walk o m = .ok s) :
    ∀ c ∈ s.sheets, P (cueCommands m c.camera.name) c := by
  let Q : List (Step K) → Session K → Prop := fun front s =>
    ∀ c ∈ s.sheets, P (cuesIn c.camera.name front) c
  have hstart : Q [] (Session.start m o) := by
    intro c hc
    obtain ⟨camera, -, rfl⟩ := List.mem_map.mp hc
    exact hP.blank camera
  have hwalked : Q (scriptSteps m) s :=
    walk_induction hstart (fun _ _ _ _ hst hstep => hP.step_sheets hst hstep) h
  intro c hc
  rw [← cuesIn_scriptSteps]
  exact hwalked c hc

end SheetInvariant

/-- A sheet with the cues of some commands, each numbered by its place among them. -/
structure CuesNumbered (commands : List (CameraCommand K)) (c : CueSheet K) : Prop where
  commands_eq : c.cues.map Cue.command = commands
  nextIndex_eq : c.nextIndex = c.cues.length
  indices_eq : c.cues.map Cue.index = List.range c.cues.length

omit [Scalar K] in
/-- A cue holds the number of its command. -/
lemma CuesNumbered.getElem?_index {commands : List (CameraCommand K)} {c : CueSheet K}
    (h : CuesNumbered commands c) {q : Cue K} (hq : q ∈ c.cues) :
    commands[q.index]? = some q.command := by
  obtain ⟨i, hi, rfl⟩ := List.mem_iff_getElem.mp hq
  have hindex : (c.cues.map Cue.index)[i]? = some i := by
    rw [h.indices_eq]
    exact List.getElem?_range hi
  rw [List.getElem?_map, List.getElem?_eq_getElem hi, Option.map_some, Option.some.injEq] at hindex
  rw [hindex, ← h.commands_eq, List.getElem?_map, List.getElem?_eq_getElem hi, Option.map_some]

lemma add_cues (c : CueSheet K) (command : CameraCommand K) :
    (c.add command).cues = c.cues ++ [⟨c.cursor, c.nextIndex, command⟩] := rfl

theorem cuesNumbered_invariant : SheetInvariant (K := K) CuesNumbered where
  blank c := ⟨rfl, rfl, rfl⟩
  join h t := ⟨h.commands_eq, h.nextIndex_eq, h.indices_eq⟩
  add h command := by
    refine ⟨?_, ?_, ?_⟩
    · rw [add_cues, List.map_append, h.commands_eq, List.map_singleton]
    · rw [add_cues, List.length_append, ← h.nextIndex_eq]
      rfl
    · rw [add_cues, List.map_append, List.length_append, List.length_singleton, List.range_succ,
        h.indices_eq, h.nextIndex_eq, List.map_singleton]

end Keeping

section Sheets

/-- A sheet with the cues of some commands, in their order and in the order of time. -/
structure CuesInOrder (commands : List (CameraCommand ℝ)) (c : CueSheet ℝ) : Prop where
  commands_eq : c.cues.map Cue.command = commands
  nextIndex_eq : c.nextIndex = c.cues.length
  indices_eq : c.cues.map Cue.index = List.range c.cues.length
  ordered : c.cues.Pairwise fun p q => p.time ≤ q.time
  before_cursor : ∀ q ∈ c.cues, q.time ≤ c.cursor

lemma add_cursor_le (c : CueSheet ℝ) (command : CameraCommand ℝ) :
    c.cursor ≤ (c.add command).cursor := by
  unfold CueSheet.add
  cases command with
  | hold duration =>
    have hlarger := le_max_right duration.internal 0
    simp only [larger_real, zero_real]
    linarith
  | lookAt | autoFocus | autoZoom | setFocalLength | stopTracking => exact le_refl _

theorem cuesInOrder_invariant : SheetInvariant CuesInOrder where
  blank c := ⟨rfl, rfl, rfl, .nil, nofun⟩
  join h t := by
    refine ⟨h.commands_eq, h.nextIndex_eq, h.indices_eq, h.ordered, fun q hq => ?_⟩
    rw [larger_real]
    exact (h.before_cursor q hq).trans (le_max_left _ _)
  add {commands c} h command := by
    obtain ⟨hcommands, hnext, hindices⟩ :=
      cuesNumbered_invariant.add ⟨h.commands_eq, h.nextIndex_eq, h.indices_eq⟩ command
    refine ⟨hcommands, hnext, hindices, ?_, fun q hq => ?_⟩
    · refine List.pairwise_append.mpr ⟨h.ordered, List.pairwise_singleton _ _, fun p hp q hq => ?_⟩
      rw [List.mem_singleton.mp hq]
      exact h.before_cursor p hp
    · have hcursor := add_cursor_le c command
      rcases List.mem_append.mp hq with hq | hq
      · exact (h.before_cursor q hq).trans hcursor
      · rw [List.mem_singleton.mp hq]
        exact hcursor

end Sheets

section Walks

variable {m : Movie ℝ} {o : PlanOptions ℝ} {s : Session ℝ} {last : ℕ} {reel : Reel ℝ}

/-- When the cameras are shot, their cues are the commands of the script, and all of them come
before the movie ends. -/
theorem played_cuesInOrder (hv : Valid m) (h : played o m = .ok (last, s)) :
    ∀ c ∈ s.sheets, CuesInOrder (cueCommands m c.camera.name) c ∧
      ∀ q ∈ c.cues, m.fps.frameAt q.time ≤ last := by
  intro c hc
  obtain ⟨s₀, s₁, hwalk, hlast, -⟩ := played_ok h
  obtain ⟨s₂, hwalk₂, -, hsheets⟩ := played_runs hv h
  cases hwalk.symm.trans hwalk₂
  rw [hsheets] at hc
  have hcues := cuesInOrder_invariant.walk_sheets hwalk c hc
  refine ⟨hcues, fun q hq => ?_⟩
  have hrate : s₀.movie.fps = m.fps := congrArg Movie.fps (walk_follows hv hwalk).movie_eq
  have hextent : m.fps.frameAt c.cursor ≤ s₀.extent := by
    unfold Session.extent
    rw [List.foldl_max, hrate]
    apply le_max_of_le_right
    exact List.le_max?_getD_of_mem (List.mem_append_right _ (List.mem_map_of_mem hc))
  calc m.fps.frameAt q.time
      ≤ m.fps.frameAt c.cursor := frameAt_mono hv.rate_pos (hcues.before_cursor q hq)
    _ ≤ s₀.extent := hextent
    _ ≤ last := (lastFrame_ok hlast).2

/-- The cameras of a plan are shot by their sheets, whose cues are the commands of the script. -/
lemma plan_shot (h : m.plan o = .ok reel) : ∃ s, played o m = .ok (reel.lastFrame, s) ∧
    s.sheets.map CueSheet.camera = m.cameras ∧
    List.Forall₂ (fun sheet c => c.camera = sheet.camera ∧
      CuesInOrder (cueCommands m sheet.camera.name) sheet ∧
      (∀ q ∈ sheet.cues, m.fps.frameAt q.time ≤ reel.lastFrame) ∧
      ∃ findings, sheet.shoot? m.fps o s.subject? reel.lastFrame = some (c, findings))
      s.sheets reel.cameras := by
  have hv := valid_of_issues_nil (issues_nil_of_plan h)
  obtain ⟨s, hplayed, hshows⟩ := plan_ok h
  have hfollows := played_follows hv hplayed
  refine ⟨s, hplayed, hfollows.cameras_eq.trans (start_cameras m o), ?_⟩
  refine ((List.forall₂_and_left _ _).mpr
    ⟨played_cuesInOrder hv hplayed, hshows.cameras_shot⟩).imp ?_
  rintro sheet c ⟨⟨hcues, hlast⟩, findings, hshoot⟩
  rw [hfollows.movie_eq, hfollows.options_eq] at hshoot
  exact ⟨(shoot?_filled hshoot).1, hcues, hlast, findings, hshoot⟩

end Walks

end Stagecraft.Proofs
