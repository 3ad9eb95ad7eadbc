import Stagecraft.Proofs.CommandRuns
import Stagecraft.Proofs.ScriptSteps
import Stagecraft.Proofs.ValidMovies

/-!
# Runs of a session

A step of a script lets one actor advance and leaves the cast as it is. So the runs of a session
stay on time throughout the walk, and the runs of a finished session have advanced from those of
any session on the way.
-/

namespace Stagecraft.Proofs

section Keyed

variable {α : Type} {key : α → String} {a b : α} {l : List α} {name : String}

/-- A list with an entry in the place of those that have its key. -/
def replaced (key : α → String) (a : α) (l : List α) : List α :=
  l.map fun b => if key b = key a then a else b

variable (key) in
lemma mem_replaced (h : b ∈ replaced key a l) : b = a ∨ b ∈ l ∧ key b ≠ key a := by
  obtain ⟨c, hc, hb⟩ := List.mem_map.mp h
  by_cases hkey : key c = key a
  · rw [if_pos hkey] at hb
    exact Or.inl hb.symm
  · rw [if_neg hkey] at hb
    subst hb
    exact Or.inr ⟨hc, hkey⟩

variable (key) in
lemma map_key_replaced : (replaced key a l).map key = l.map key := by
  unfold replaced
  rw [List.map_map]
  apply List.map_congr_left
  intro b _
  by_cases h : key b = key a
  · rw [Function.comp_apply, if_pos h, h]
  · rw [Function.comp_apply, if_neg h]

lemma replaced_of_ne (h : ∀ b ∈ l, key b ≠ key a) : replaced key a l = l := by
  have hid : ∀ b ∈ l, (if key b = key a then a else b) = id b := fun b hb => if_neg (h b hb)
  unfold replaced
  rw [List.map_congr_left hid, List.map_id]

lemma replaced_at {front rest : List α} (hkeys : ((front ++ a :: rest).map key).Nodup)
    (h : key b = key a) : replaced key b (front ++ a :: rest) = front ++ b :: rest := by
  rw [List.map_append, List.map_cons, List.nodup_append, List.nodup_cons] at hkeys
  obtain ⟨-, ⟨hrest, -⟩, hfront⟩ := hkeys
  have hfrontne : replaced key b front = front := by
    apply replaced_of_ne
    intro c hc
    rw [h]
    exact hfront _ (List.mem_map_of_mem hc) _ List.mem_cons_self
  have hrestne : replaced key b rest = rest := by
    apply replaced_of_ne
    intro c hc heq
    rw [h] at heq
    exact hrest (List.mem_map.mpr ⟨c, hc, heq⟩)
  unfold replaced at hfrontne hrestne ⊢
  rw [List.map_append, List.map_cons, if_pos h.symm, hfrontne, hrestne]

/-- Under distinct keys an entry takes the place of one alone. -/
lemma forall₂_replaced {R : α → α → Prop} (hkeys : (l.map key).Nodup) (ha : a ∈ l)
    (hkey : key b = key a) (hrefl : ∀ c ∈ l, c ≠ a → R c c) (hset : R a b) :
    List.Forall₂ R l (replaced key b l) := by
  unfold replaced
  rw [List.forall₂_map_right_iff, List.forall₂_same]
  intro c hc
  by_cases h : key c = key b
  · rw [if_pos h, List.inj_on_of_nodup_map hkeys hc ha (h.trans hkey)]
    exact hset
  · rw [if_neg h]
    exact hrefl c hc fun hca => h (by rw [hca, hkey])

variable (key) in
/-- What is found under other keys stays. -/
lemma find?_replaced_of_ne (h : key a ≠ name) :
    (replaced key a l).find? (fun b => key b = name) = l.find? (fun b => key b = name) := by
  unfold replaced
  induction l with
  | nil => rfl
  | cons b l ih =>
    rw [List.map_cons, List.find?_cons, List.find?_cons, ih]
    by_cases hb : key b = key a
    · have hne : ¬key b = name := fun heq => h (hb.symm.trans heq)
      simp [hb, h]
    · rw [if_neg hb]

/-- An entry is found in the place that it took. -/
lemma find?_replaced_at (h : ∃ b ∈ l, key b = key a) :
    (replaced key a l).find? (fun b => key b = key a) = some a := by
  cases hfind : (replaced key a l).find? (fun b => key b = key a) with
  | none =>
    obtain ⟨b, hb, hkey⟩ := h
    have ha : a ∈ replaced key a l := List.mem_map.mpr ⟨b, hb, if_pos hkey⟩
    have hne := List.find?_eq_none.mp hfind a ha
    simp at hne
  | some b =>
    have hkey : key b = key a := by simpa using List.find?_some hfind
    rcases mem_replaced key (List.mem_of_find?_eq_some hfind) with rfl | ⟨-, hne⟩
    · rfl
    · exact absurd hkey hne

variable (key) in
/-- Entries of different keys take their places in either order. -/
lemma replaced_comm (h : key a ≠ key b) :
    replaced key b (replaced key a l) = replaced key a (replaced key b l) := by
  unfold replaced
  rw [List.map_map, List.map_map]
  apply List.map_congr_left
  intro c _
  simp only [Function.comp_apply]
  by_cases ha : key c = key a
  · simp [ha, h]
  · by_cases hb : key c = key b
    · simp [hb, Ne.symm h]
    · simp [ha, hb]

variable (key) in
/-- Of two entries with one key the later takes the place. -/
lemma replaced_replaced (h : key b = key a) :
    replaced key b (replaced key a l) = replaced key b l := by
  unfold replaced
  rw [List.map_map]
  apply List.map_congr_left
  intro c _
  rw [Function.comp_apply, h]
  by_cases hc : key c = key a
  · rw [if_pos hc, if_pos rfl, if_pos hc]
  · rw [if_neg hc, if_neg hc]

variable (key) in
lemma find?_map_of_key {f : α → α} (hf : ∀ a, key (f a) = key a) :
    (l.map f).find? (fun a => key a = name) = (l.find? fun a => key a = name).map f := by
  rw [List.find?_map]
  simp only [Function.comp_def, hf]

variable (key) in
lemma replaced_map {f : α → α} (hf : ∀ a, key (f a) = key a) :
    replaced key (f a) (l.map f) = (replaced key a l).map f := by
  unfold replaced
  rw [List.map_map, List.map_map]
  apply List.map_congr_left
  intro b _
  simp only [Function.comp_apply, hf]
  split
  · rfl
  · rfl

/-- In lists whose entries are related under the same keys, related entries are found. -/
lemma find?_forall₂ {β : Type} {key' : β → String} {R : α → β → Prop} {l' : List β}
    (h : List.Forall₂ R l l') (hkey : ∀ a b, R a b → key' b = key a) (name : String) :
    (l.find? (fun a => key a = name) = none ∧ l'.find? (fun b => key' b = name) = none) ∨
      ∃ a b, l.find? (fun a => key a = name) = some a ∧
        l'.find? (fun b => key' b = name) = some b ∧ R a b := by
  induction h with
  | nil => exact Or.inl ⟨rfl, rfl⟩
  | @cons a b l l' hab _ ih =>
    rw [List.find?_cons, List.find?_cons, hkey a b hab]
    by_cases ha : key a = name
    · simp only [ha, decide_true]
      exact Or.inr ⟨a, b, rfl, rfl, hab⟩
    · simp only [ha, decide_false]
      exact ih

end Keyed

section Lookup

variable {K : Type} {s : Session K} {r q : Run K}

/-- The names of the actors in a session. -/
def runNames (s : Session K) : List String :=
  s.runs.map fun r => r.actor.name

lemma run_ok {actor : String} (h : s.run actor = .ok r) : r ∈ s.runs ∧ r.actor.name = actor := by
  unfold Session.run at h
  cases hf : s.runs.find? (fun r => r.actor.name = actor) with
  | none => simp [hf] at h
  | some q =>
    simp only [hf, Except.ok.injEq] at h
    subst h
    exact ⟨List.mem_of_find?_eq_some hf, by simpa using List.find?_some hf⟩

lemma sheet_ok {camera : String} {c : CueSheet K} (h : s.sheet camera = .ok c) :
    c ∈ s.sheets ∧ c.camera.name = camera := by
  unfold Session.sheet at h
  cases hf : s.sheets.find? (fun c => c.camera.name = camera) with
  | none => simp [hf] at h
  | some d =>
    simp only [hf, Except.ok.injEq] at h
    subst h
    exact ⟨List.mem_of_find?_eq_some hf, by simpa using List.find?_some hf⟩

/-- A name belongs to one run. -/
lemma eq_of_name_eq (hnames : (runNames s).Nodup) (hr : r ∈ s.runs) (hq : q ∈ s.runs)
    (h : q.actor.name = r.actor.name) : q = r :=
  List.inj_on_of_nodup_map hnames hq hr h

lemma find_run (hnames : (runNames s).Nodup) (hr : r ∈ s.runs) :
    s.runs.find? (fun q => q.actor.name = r.actor.name) = some r := by
  cases hf : s.runs.find? (fun q => q.actor.name = r.actor.name) with
  | none =>
    have hne := List.find?_eq_none.mp hf r hr
    simp at hne
  | some q =>
    have hq := List.mem_of_find?_eq_some hf
    have hname : q.actor.name = r.actor.name := by simpa using List.find?_some hf
    rw [eq_of_name_eq hnames hr hq hname]

lemma run_of_mem (hnames : (runNames s).Nodup) (hr : r ∈ s.runs) : s.run r.actor.name = .ok r := by
  unfold Session.run
  rw [find_run hnames hr]

lemma mem_setRun {s : Session K} {r q : Run K} (h : q ∈ (s.setRun r).runs) :
    q = r ∨ q ∈ s.runs ∧ q.actor.name ≠ r.actor.name :=
  mem_replaced (fun q : Run K => q.actor.name) h

lemma mem_setSheet {s : Session K} {c d : CueSheet K} (h : d ∈ (s.setSheet c).sheets) :
    d = c ∨ d ∈ s.sheets :=
  (mem_replaced (fun d : CueSheet K => d.camera.name) h).imp_right And.left

lemma runNames_setRun (s : Session K) (r : Run K) : runNames (s.setRun r) = runNames s :=
  map_key_replaced (fun q : Run K => q.actor.name)

/-- Only the run that is put back last stays. -/
lemma setRun_setRun {r' : Run K} (h : r'.actor.name = r.actor.name) :
    (s.setRun r).setRun r' = s.setRun r' :=
  congrArg (fun runs => { s with runs := runs })
    (replaced_replaced (fun q : Run K => q.actor.name) h)

lemma run_setRun (hnames : (runNames s).Nodup) (hr : r ∈ s.runs) {r' : Run K}
    (hname : r'.actor.name = r.actor.name) : (s.setRun r').run r.actor.name = .ok r' := by
  rw [← hname]
  apply run_of_mem
  · rw [runNames_setRun]
    exact hnames
  · exact List.mem_map.mpr ⟨r, hr, if_pos hname.symm⟩

lemma sheet_setSheet {c c' : CueSheet K} {camera : String} (h : s.sheet camera = .ok c)
    (hcamera : c'.camera = c.camera) : (s.setSheet c').sheet camera = .ok c' := by
  obtain ⟨hmem, rfl⟩ := sheet_ok h
  have hfind : (s.setSheet c').sheets.find? (fun d => d.camera.name = c'.camera.name) = some c' :=
    find?_replaced_at ⟨c, hmem, congrArg Camera.name hcamera.symm⟩
  unfold Session.sheet
  rw [← hcamera, hfind]

/-- Putting a run back changes that run alone. -/
lemma forall₂_setRun {R : Run K → Run K → Prop} (hnames : (runNames s).Nodup) (hr : r ∈ s.runs)
    {r' : Run K} (hname : r'.actor.name = r.actor.name) (hrefl : ∀ q ∈ s.runs, q ≠ r → R q q)
    (hset : R r r') : List.Forall₂ R s.runs (s.setRun r').runs :=
  forall₂_replaced hnames hr hname hrefl hset

lemma setRun_actors (hnames : (runNames s).Nodup) (hr : r ∈ s.runs) {r' : Run K}
    (hactor : r'.actor = r.actor) : (s.setRun r').runs.map Run.actor = s.runs.map Run.actor := by
  have hset := forall₂_setRun (R := fun q q' => q.actor = q'.actor) hnames hr
    (congrArg Actor.name hactor) (fun _ _ _ => rfl) hactor.symm
  exact (map_eq_of_forall₂ hset).symm

lemma setSheet_cameras {c c' : CueSheet K} (hc : c ∈ s.sheets)
    (hnames : (s.sheets.map fun c => c.camera.name).Nodup) (h : c'.camera = c.camera) :
    (s.setSheet c').sheets.map CueSheet.camera = s.sheets.map CueSheet.camera := by
  have hset : List.Forall₂ (fun d d' => d.camera = d'.camera) s.sheets (s.setSheet c').sheets :=
    forall₂_replaced hnames hc (congrArg Camera.name h) (fun _ _ _ => rfl) h.symm
  exact (map_eq_of_forall₂ hset).symm

lemma setRun_at {front rest : List (Run K)} {r r' : Run K} (hruns : s.runs = front ++ r :: rest)
    (hnames : (runNames s).Nodup) (hname : r'.actor.name = r.actor.name) :
    (s.setRun r').runs = front ++ r' :: rest := by
  unfold runNames at hnames
  rw [hruns] at hnames
  unfold Session.setRun
  rw [hruns]
  exact replaced_at hnames hname

end Lookup

section Pairing

variable {K : Type} {R : Run K → Run K → Prop} {s s' : Session K}

/-- In sessions whose runs are related, related runs are found. -/
lemma matches_run (hruns : List.Forall₂ R s.runs s'.runs)
    (hactor : ∀ r r', R r r' → r'.actor = r.actor) (name : String) :
    Matches R (s.run name) (s'.run name) := by
  have hnames : ∀ r r' : Run K, R r r' → r'.actor.name = r.actor.name :=
    fun r r' hr => congrArg Actor.name (hactor r r' hr)
  unfold Session.run
  rcases find?_forall₂ hruns hnames name with ⟨hr, hr'⟩ | ⟨r, r', hr, hr', hrelated⟩
  · rw [hr, hr']
    exact .error _ _
  · rw [hr, hr']
    exact .ok hrelated

/-- Runs stay related when related runs are put back. -/
lemma forall₂_setRuns (hruns : List.Forall₂ R s.runs s'.runs)
    (hactor : ∀ r r', R r r' → r'.actor = r.actor) {r r' : Run K} (hr : R r r') :
    List.Forall₂ R (s.setRun r).runs (s'.setRun r').runs := by
  unfold Session.setRun
  rw [List.forall₂_map_left_iff, List.forall₂_map_right_iff]
  refine hruns.imp fun q q' hq => ?_
  rw [hactor q q' hq, hactor r r' hr]
  split
  · exact hr
  · exact hq

lemma horizon_congr [Scalar K] (hruns : List.Forall₂ R s.runs s'.runs)
    (hcursor : ∀ r r', R r r' → r'.cursor = r.cursor) (hsheets : s'.sheets = s.sheets) :
    s'.horizon = s.horizon := by
  have hcursors : s.runs.map Run.cursor = s'.runs.map Run.cursor :=
    map_eq_of_forall₂ (hruns.imp fun r r' hr => (hcursor r r' hr).symm)
  unfold Session.horizon
  rw [hsheets, hcursors]

end Pairing

section Performing

variable {K : Type} [Scalar K] {m : Movie K} {o : PlanOptions K} {s : Session K}

/-- What a step of a script does to the session of a stage. -/
inductive Performed (st : Stage K) : Step K → Session K → Prop where
  | gather : Performed st .gather st.session
  | call (actor : String) : Performed st (.call actor) st.session
  | joinActor {r : Run K} (hr : r ∈ st.session.runs) :
    Performed st (.joinActor r.actor.name)
      (st.session.setRun (r.holdUntil st.session.movie.fps st.groupStart none))
  | joinCamera {c : CueSheet K} (hc : c ∈ st.session.sheets) :
    Performed st (.joinCamera c.camera.name)
      (st.session.setSheet { c with cursor := Scalar.larger c.cursor st.groupStart })
  | command {r r' : Run K} {c : Command K} {findings : List (Finding K)}
    (hr : r ∈ st.session.runs) (hparked : r.parked = none)
    (hobey : obey st.session r.nextIndex { r with nextIndex := r.nextIndex + 1 } c =
      .ok (r', findings)) :
    Performed st (.command r.actor.name c)
      ((st.session.setRun r').warn r.actor.name r.nextIndex findings)
  | cues {c : CueSheet K} {q : CameraSequence K} (hc : c ∈ st.session.sheets)
    (hname : c.camera.name = q.camera) :
    Performed st (.cues q) (st.session.setSheet (q.commands.foldl CueSheet.add c))

lemma perform_ok {st st' : Stage K} {step : Step K} (h : perform st step = .ok st') :
    Performed st step st'.session := by
  cases step with
  | gather =>
    cases h
    exact .gather
  | joinActor name =>
    obtain ⟨r, hr, h⟩ := bind_eq_ok.mp h
    cases h
    obtain ⟨hmem, rfl⟩ := run_ok hr
    exact .joinActor hmem
  | joinCamera name =>
    obtain ⟨c, hc, h⟩ := bind_eq_ok.mp h
    cases h
    obtain ⟨hmem, rfl⟩ := sheet_ok hc
    exact .joinCamera hmem
  | call actor =>
    obtain ⟨r, -, h⟩ := bind_eq_ok.mp h
    cases h
    exact .call actor
  | command actor c =>
    obtain ⟨s, hcommand, h⟩ := bind_eq_ok.mp h
    obtain ⟨r, r', findings, hr, hparked, hobey, rfl⟩ := command_ok hcommand
    obtain ⟨hmem, rfl⟩ := run_ok hr
    cases h
    exact .command hmem hparked hobey
  | cues q =>
    obtain ⟨s, hcues, h⟩ := bind_eq_ok.mp h
    obtain ⟨c, hc, hset⟩ := bind_eq_ok.mp hcues
    obtain ⟨hmem, hname⟩ := sheet_ok hc
    cases h
    cases hset
    exact .cues hmem hname
  | nest => cases h

lemma add_camera (c : CueSheet K) (l : List (CameraCommand K)) :
    (l.foldl CueSheet.add c).camera = c.camera := by
  induction l generalizing c with
  | nil => rfl
  | cons a l ih => exact ih (c.add a)

/-- A walk ends the steps of its script. -/
lemma walk_ok (t : K) (h : walk o m = .ok s) :
    ∃ t', (scriptSteps m).foldlM perform ⟨Session.start m o, t⟩ = .ok ⟨s, t'⟩ := by
  rw [walk_eq_steps o m t] at h
  cases hsteps : (scriptSteps m).foldlM perform ⟨Session.start m o, t⟩ with
  | error e =>
    rw [hsteps] at h
    cases h
  | ok st =>
    rw [hsteps] at h
    cases h
    exact ⟨st.groupStart, rfl⟩

/-- What every step of a script keeps of a session holds of it when the script is walked. -/
theorem walk_induction {P : List (Step K) → Session K → Prop} (hstart : P [] (Session.start m o))
    (hstep : ∀ front step st s', P front st.session → Performed st step s' →
      P (front ++ [step]) s') (h : walk o m = .ok s) : P (scriptSteps m) s := by
  obtain ⟨t, hsteps⟩ := walk_ok 0 h
  let Q : List (Step K) → Stage K → Prop := fun front st => P front st.session
  have hround : ∀ front step st st', Q front st → perform st step = .ok st' →
      Q (front ++ [step]) st' :=
    fun front step st st' hst hst' => hstep front step st st'.session hst (perform_ok hst')
  exact foldlM_induction (P := Q) hstart hround hsteps

/-- A property that every run keeps, whatever steps of a script are done: those of others, waiting
with a group, and its own commands. -/
structure RunInvariant (P : List (Step K) → Run K → Prop) : Prop where
  start : ∀ a, P [] (Run.start a)
  other : ∀ {front step r}, P front r → (∀ c, step ≠ .command r.actor.name c) →
    P (front ++ [step]) r
  join : ∀ {front r}, P front r → ∀ rate moment,
    P (front ++ [.joinActor r.actor.name]) (r.holdUntil rate moment none)
  command : ∀ {front r r' s c findings}, P front r → r.parked = none →
    obey s r.nextIndex { r with nextIndex := r.nextIndex + 1 } c = .ok (r', findings) →
    P (front ++ [.command r.actor.name c]) r'

namespace RunInvariant

variable {P : List (Step K) → Run K → Prop}

lemma start_runs (hP : RunInvariant P) : ∀ r ∈ (Session.start m o).runs, P [] r := by
  intro r hr
  obtain ⟨a, -, rfl⟩ := List.mem_map.mp hr
  exact hP.start a

theorem step_runs (hP : RunInvariant P) {front : List (Step K)} {step : Step K} {st : Stage K}
    {s' : Session K} (hst : ∀ r ∈ st.session.runs, P front r) (h : Performed st step s') :
    ∀ r ∈ s'.runs, P (front ++ [step]) r := by
  cases h with
  | gather => exact fun r hr => hP.other (hst r hr) fun _ hc => by cases hc
  | call actor => exact fun r hr => hP.other (hst r hr) fun _ hc => by cases hc
  | joinCamera hc => exact fun r hr => hP.other (hst r hr) fun _ hc => by cases hc
  | cues hc hname => exact fun r hr => hP.other (hst r hr) fun _ hc => by cases hc
  | joinActor hr =>
    intro q hq
    rcases mem_setRun hq with rfl | ⟨hq, -⟩
    · exact hP.join (hst _ hr) _ _
    · exact hP.other (hst q hq) fun _ hc => by cases hc
  | @command r r' c findings hr hparked hobey =>
    intro q hq
    rcases mem_setRun hq with rfl | ⟨hq, hne⟩
    · exact hP.command (hst r hr) hparked hobey
    · rw [(obey_kept hobey).1] at hne
      exact hP.other (hst q hq) fun c' hc' => hne (Step.command.inj hc').1.symm

theorem steps_runs (hP : RunInvariant P) {steps : List (Step K)} {t : K} {st : Stage K}
    (h : steps.foldlM perform ⟨Session.start m o, t⟩ = .ok st) :
    ∀ r ∈ st.session.runs, P steps r :=
  foldlM_induction (P := fun front (st : Stage K) => ∀ r ∈ st.session.runs, P front r)
    hP.start_runs (fun _ _ _ _ hst hstep => hP.step_runs hst (perform_ok hstep)) h

theorem walk_runs (hP : RunInvariant P) (h : walk o m = .ok s) :
    ∀ r ∈ s.runs, P (scriptSteps m) r := by
  obtain ⟨t, hsteps⟩ := walk_ok 0 h
  exact hP.steps_runs hsteps

end RunInvariant

end Performing

section Following

/-- A later session of the same plan: the runs have advanced, and the cast is the same. -/
structure Follows (s s' : Session ℝ) : Prop where
  movie_eq : s'.movie = s.movie
  options_eq : s'.options = s.options
  curves_eq : s'.curves = s.curves
  cameras_eq : s'.sheets.map CueSheet.camera = s.sheets.map CueSheet.camera
  runs_advance : List.Forall₂ (Advances s.movie.fps) s.runs s'.runs

namespace Follows

variable {s s' s'' : Session ℝ}

lemma refl (s : Session ℝ) : Follows s s :=
  ⟨rfl, rfl, rfl, rfl, List.forall₂_same.mpr fun _ _ => .refl⟩

lemma trans (h : Follows s s') (h' : Follows s' s'') : Follows s s'' := by
  refine ⟨h'.movie_eq.trans h.movie_eq, h'.options_eq.trans h.options_eq,
    h'.curves_eq.trans h.curves_eq, h'.cameras_eq.trans h.cameras_eq, ?_⟩
  have hruns := h'.runs_advance
  rw [h.movie_eq] at hruns
  exact forall₂_trans (fun _ _ _ hrun hrun' => hrun.trans hrun') h.runs_advance hruns

lemma actors_eq (h : Follows s s') : s'.runs.map Run.actor = s.runs.map Run.actor :=
  (map_eq_of_forall₂ (h.runs_advance.imp fun _ _ ha => ha.actor_eq.symm)).symm

lemma names_eq (h : Follows s s') : runNames s' = runNames s := by
  have hactors := congrArg (List.map Actor.name) h.actors_eq
  rw [List.map_map, List.map_map] at hactors
  exact hactors

lemma warn (h : Follows s s') (entity : String) (index : ℕ) (findings : List (Finding ℝ)) :
    Follows s (s'.warn entity index findings) :=
  ⟨h.movie_eq, h.options_eq, h.curves_eq, h.cameras_eq, h.runs_advance⟩

lemma setRun (hnames : (runNames s).Nodup) {r r' : Run ℝ} (hr : r ∈ s.runs)
    (ha : Advances s.movie.fps r r') : Follows s (s.setRun r') := by
  refine ⟨rfl, rfl, rfl, rfl, ?_⟩
  exact forall₂_setRun hnames hr (by rw [ha.actor_eq]) (fun _ _ _ => .refl) ha

lemma setSheet {c c' : CueSheet ℝ} (hc : c ∈ s.sheets)
    (hcameras : (s.sheets.map fun c => c.camera.name).Nodup) (h : c'.camera = c.camera) :
    Follows s (s.setSheet c') := by
  exact ⟨rfl, rfl, rfl, setSheet_cameras hc hcameras h, List.forall₂_same.mpr fun _ _ => .refl⟩

end Follows

lemma start_names (m : Movie ℝ) (o : PlanOptions ℝ) :
    runNames (Session.start m o) = m.actors.map Actor.name := by
  unfold runNames Session.start
  rw [List.map_map]
  rfl

lemma start_actors (m : Movie ℝ) (o : PlanOptions ℝ) :
    (Session.start m o).runs.map Run.actor = m.actors := by
  unfold Session.start
  rw [List.map_map]
  exact List.map_id m.actors

lemma start_cameras (m : Movie ℝ) (o : PlanOptions ℝ) :
    (Session.start m o).sheets.map CueSheet.camera = m.cameras := by
  unfold Session.start
  rw [List.map_map]
  exact List.map_id m.cameras

end Following

section Walking

variable {m : Movie ℝ} {o : PlanOptions ℝ} {s s' : Session ℝ}

lemma Follows.runNames_nodup (hv : Valid m) (h : Follows (Session.start m o) s) :
    (runNames s).Nodup := by
  rw [h.names_eq, start_names]
  exact hv.actorNames_nodup

lemma Follows.sheetNames_nodup (hv : Valid m) (h : Follows (Session.start m o) s) :
    (s.sheets.map fun c => c.camera.name).Nodup := by
  have hcameras := congrArg (List.map Camera.name) (h.cameras_eq.trans (start_cameras m o))
  rw [List.map_map] at hcameras
  exact hcameras ▸ hv.cameraNames_nodup

/-- Every run has advanced from the start of its actor. -/
lemma Follows.advances_start (h : Follows (Session.start m o) s) {r : Run ℝ} (hr : r ∈ s.runs) :
    Advances m.fps (Run.start r.actor) r := by
  obtain ⟨q, hq, ha⟩ := mem_of_forall₂_right h.runs_advance hr
  obtain ⟨a, -, rfl⟩ := List.mem_map.mp hq
  rw [ha.actor_eq]
  exact ha

lemma Follows.onTime (hv : Valid m) (h : Follows (Session.start m o) s) {r : Run ℝ}
    (hr : r ∈ s.runs) : OnTime m.fps r :=
  (onTime_start r.actor).advances hv.rate_pos (h.advances_start hr)

lemma obey_follows (hnames : (runNames s).Nodup) {r r' : Run ℝ} {c : Command ℝ}
    {findings : List (Finding ℝ)} (hr : r ∈ s.runs)
    (hobey : obey s r.nextIndex { r with nextIndex := r.nextIndex + 1 } c = .ok (r', findings)) :
    Follows s ((s.setRun r').warn r.actor.name r.nextIndex findings) := by
  have hcount : Advances s.movie.fps r { r with nextIndex := r.nextIndex + 1 } :=
    note_advances r.lane (r.nextIndex + 1)
  exact (Follows.setRun hnames hr (hcount.trans (obey_advances hobey))).warn _ _ _

/-- A sequence of one command lets the run it addresses obey, and no other. -/
lemma block_command (hnames : (runNames s).Nodup) {front rest : List (Run ℝ)} {r r' : Run ℝ}
    {c : Command ℝ} {findings : List (Finding ℝ)} (hruns : s.runs = front ++ r :: rest)
    (hparked : r.parked = none)
    (hobey : obey s r.nextIndex { r with nextIndex := r.nextIndex + 1 } c = .ok (r', findings)) :
    ∃ s', s.block (.actor ⟨r.actor.name, [c]⟩) = .ok s' ∧ Follows s s' ∧
      s'.runs = front ++ r' :: rest ∧ s'.sheets = s.sheets := by
  have hmem : r ∈ s.runs := by
    rw [hruns]
    exact List.mem_append_right front List.mem_cons_self
  have hr : s.run r.actor.name = .ok r := run_of_mem hnames hmem
  have hcommand : Session.command r.actor.name s c =
      .ok ((s.setRun r').warn r.actor.name r.nextIndex findings) := by
    rw [command_eq hr hparked, hobey]
    rfl
  have hname : r'.actor.name = r.actor.name := congrArg Actor.name (obey_advances hobey).actor_eq
  refine ⟨_, ?_, obey_follows hnames hmem hobey, setRun_at hruns hnames hname, rfl⟩
  exact bind_eq_ok.mpr ⟨r, hr, bind_eq_ok.mpr ⟨_, hcommand, rfl⟩⟩

/-- A group of one actor that is told nothing lets its run wait for what the others have
reached. -/
lemma block_wait (hnames : (runNames s).Nodup) {front rest : List (Run ℝ)} {r : Run ℝ}
    (hruns : s.runs = front ++ r :: rest) :
    ∃ s', s.block (.simultaneous [.actor ⟨r.actor.name, []⟩]) = .ok s' ∧ Follows s s' ∧
      s'.runs = front ++ r.holdUntil s.movie.fps s.horizon none :: rest ∧ s'.sheets = s.sheets := by
  have hmem : r ∈ s.runs := by
    rw [hruns]
    exact List.mem_append_right front List.mem_cons_self
  have hr : s.run r.actor.name = .ok r := run_of_mem hnames hmem
  have hwait : Advances s.movie.fps r (r.holdUntil s.movie.fps s.horizon none) :=
    holdUntil_advances s.horizon none
  have hfollows : Follows s (s.setRun (r.holdUntil s.movie.fps s.horizon none)) :=
    .setRun hnames hmem hwait
  have hname := congrArg Actor.name hwait.actor_eq
  have hr' := run_setRun hnames hmem hname
  refine ⟨_, ?_, hfollows, setRun_at hruns hnames hname, rfl⟩
  have hmember : Session.member s.horizon s (.actor ⟨r.actor.name, []⟩) =
      .ok (s.setRun (r.holdUntil s.movie.fps s.horizon none)) :=
    bind_eq_ok.mpr ⟨r, hr, bind_eq_ok.mpr ⟨_, hr', rfl⟩⟩
  exact bind_eq_ok.mpr ⟨_, hmember, rfl⟩

/-- Whatever a script makes a session do, the runs advance and the cast stays. -/
theorem Performed.follows (hv : Valid m) {st : Stage ℝ} {step : Step ℝ}
    (hst : Follows (Session.start m o) st.session) (h : Performed st step s') :
    Follows st.session s' := by
  have hnames := hst.runNames_nodup hv
  have hsheets := hst.sheetNames_nodup hv
  cases h with
  | gather => exact .refl st.session
  | call actor => exact .refl st.session
  | joinActor hr => exact .setRun hnames hr (holdUntil_advances st.groupStart none)
  | joinCamera hc => exact .setSheet hc hsheets rfl
  | command hr hparked hobey => exact obey_follows hnames hr hobey
  | cues hc hname => exact .setSheet hc hsheets (add_camera _ _)

theorem steps_follow (hv : Valid m) {st st' : Stage ℝ} {steps : List (Step ℝ)}
    (hst : Follows (Session.start m o) st.session) (h : steps.foldlM perform st = .ok st') :
    Follows st.session st'.session := by
  refine foldlM_induction (P := fun _ q => Follows st.session q.session) (.refl st.session) ?_ h
  intro front step q q' hq hstep
  exact hq.trans ((perform_ok hstep).follows hv (hst.trans hq))

theorem walk_follows (hv : Valid m) (h : walk o m = .ok s) : Follows (Session.start m o) s := by
  obtain ⟨t', hsteps⟩ := walk_ok 0 h
  exact steps_follow hv (.refl _) hsteps

end Walking

end Stagecraft.Proofs
