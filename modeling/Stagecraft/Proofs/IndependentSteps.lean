import Stagecraft.Proofs.SessionRuns

/-!
# Independent steps

A step of a script decides on a change and makes it. It decides by the entity it drives, by the
other actor it may turn to, and by nothing that a step of others changes. So two steps that drive
different entities and do not turn to each other's may change places; only the order of what they
report tells which was first.
-/

namespace Stagecraft.Proofs

section Changes

variable {K : Type} [Scalar K] {s s' : Session K} {t : K} {step : Step K}

/-- What a step does to a session: the run of an actor is put back and something is reported, or
the sheet of a camera is put back. -/
inductive Change (K : Type) where
  | nothing
  | run (r : Run K) (reports : List (Diagnostic (Finding K)))
  | sheet (c : CueSheet K)

omit [Scalar K] in
def Change.apply (s : Session K) : Change K → Session K
  | .nothing => s
  | .run r reports => { s.setRun r with diagnostics := s.diagnostics ++ reports }
  | .sheet c => s.setSheet c

/-- The change that a command of an actor decides on. -/
def commanded (s : Session K) (actor : String) (c : Command K) :
    Except (PlanError K) (Change K) := do
  let r ← s.run actor
  if r.parked.isSome then .error (.afterTillEnd actor r.nextIndex)
  else do
    let (r', findings) ← obey s r.nextIndex { r with nextIndex := r.nextIndex + 1 } c
    return .run r' (findings.map (Diagnostic.warning actor (some r.nextIndex)))

/-- The change that a step decides on. A group that is gathered changes nothing in the session. -/
def decided (s : Session K) (t : K) : Step K → Except (PlanError K) (Change K)
  | .gather => .ok .nothing
  | .joinActor name => do
    let r ← s.run name
    return .run (r.holdUntil s.movie.fps t none) []
  | .joinCamera name => do
    let c ← s.sheet name
    return .sheet { c with cursor := Scalar.larger c.cursor t }
  | .call actor => do
    let _ ← s.run actor
    return .nothing
  | .command actor c => commanded s actor c
  | .cues q => do
    let c ← s.sheet q.camera
    return .sheet (q.commands.foldl CueSheet.add c)
  | .nest => .error .groupNested

lemma command_eq_change (s : Session K) (actor : String) (c : Command K) :
    Session.command actor s c = do
      let change ← commanded s actor c
      return change.apply s := by
  unfold commanded
  cases hr : s.run actor with
  | error e => exact bind_eq_error.mpr (Or.inl hr)
  | ok r =>
    have hrun {α : Type} (f : Run K → Except (PlanError K) α) : Except.ok r >>= f = f r := rfl
    by_cases hparked : r.parked = none
    · have hfree : ¬r.parked.isSome = true := by simp [hparked]
      rw [command_eq hr hparked, hrun, if_neg hfree, bind_assoc]
      rfl
    · have hstop : r.parked.isSome = true := Option.isSome_iff_ne_none.mpr hparked
      rw [command_parked hr hparked, hrun, if_pos hstop]
      rfl

/-- A step makes the change it decides on. -/
lemma perform_eq_change (hstep : step ≠ .gather) : perform ⟨s, t⟩ step = do
    let change ← decided s t step
    return ⟨change.apply s, t⟩ := by
  cases step with
  | gather => exact absurd rfl hstep
  | joinActor name =>
    simp only [perform, decided, bind_assoc, pure_bind, Change.apply, List.append_nil]
    rfl
  | joinCamera name => simp only [perform, decided, bind_assoc, pure_bind, Change.apply]
  | call actor => simp only [perform, decided, bind_assoc, pure_bind, Change.apply]
  | command actor c => simp only [perform, decided, command_eq_change, bind_assoc, pure_bind]
  | cues q =>
    simp only [perform, decided, Session.cameraSequence, bind_assoc, pure_bind, Change.apply]
  | nest => rfl

end Changes

section Looking

variable {K : Type} {s s' : Session K} {step : Step K} {name : String}

/-- The actor that a step drives. -/
def Step.actor? : Step K → Option String
  | .joinActor name => some name
  | .call actor => some actor
  | .command actor _ => some actor
  | _ => none

/-- The camera that a step drives. -/
def Step.camera? : Step K → Option String
  | .joinCamera name => some name
  | .cues q => some q.camera
  | _ => none

/-- The actor that a command turns to. -/
def faced? : Command K → Option String
  | .face ⟨.actor name, _, _⟩ => some name
  | _ => none

def Step.faced? : Step K → Option String
  | .command _ c => Proofs.faced? c
  | _ => none

/-- Two sessions agree on all that a step decides by. -/
structure LooksLike (step : Step K) (s s' : Session K) : Prop where
  rate_eq : s'.movie.fps = s.movie.fps
  options_eq : s'.options = s.options
  curves_eq : s'.curves = s.curves
  run_eq : ∀ name, step.actor? = some name ∨ step.faced? = some name → s'.run name = s.run name
  sheet_eq : ∀ name, step.camera? = some name → s'.sheet name = s.sheet name

lemma LooksLike.refl (step : Step K) (s : Session K) : LooksLike step s s :=
  ⟨rfl, rfl, rfl, fun _ _ => rfl, fun _ _ => rfl⟩

lemma run_setRun_of_ne {r : Run K} (h : r.actor.name ≠ name) :
    (s.setRun r).run name = s.run name := by
  have hfind : (s.setRun r).runs.find? (fun q => q.actor.name = name) =
      s.runs.find? (fun q => q.actor.name = name) :=
    find?_replaced_of_ne (fun q : Run K => q.actor.name) h
  unfold Session.run
  rw [hfind]

lemma sheet_setSheet_of_ne {c : CueSheet K} (h : c.camera.name ≠ name) :
    (s.setSheet c).sheet name = s.sheet name := by
  have hfind : (s.setSheet c).sheets.find? (fun d => d.camera.name = name) =
      s.sheets.find? (fun d => d.camera.name = name) :=
    find?_replaced_of_ne (fun d : CueSheet K => d.camera.name) h
  unfold Session.sheet
  rw [hfind]

/-- Runs of different actors may be put back in either order. -/
lemma setRun_comm {r q : Run K} (h : r.actor.name ≠ q.actor.name) :
    (s.setRun r).setRun q = (s.setRun q).setRun r :=
  congrArg (fun runs => { s with runs := runs })
    (replaced_comm (fun q : Run K => q.actor.name) h)

lemma setSheet_comm {c d : CueSheet K} (h : c.camera.name ≠ d.camera.name) :
    (s.setSheet c).setSheet d = (s.setSheet d).setSheet c :=
  congrArg (fun sheets => { s with sheets := sheets })
    (replaced_comm (fun d : CueSheet K => d.camera.name) h)

variable [Scalar K]

lemma faceYaw_congr (hrate : s'.movie.fps = s.movie.fps) {c : FaceCommand K}
    (hrun : ∀ name, faced? (.face c) = some name → s'.run name = s.run name) (r : Run K) :
    s'.faceYaw r c.target = s.faceYaw r c.target := by
  obtain ⟨target, duration, animation⟩ := c
  cases target with
  | direction d offset => rfl
  | yaw degrees => rfl
  | actor name =>
    unfold Session.faceYaw
    simp only [hrun name rfl]
    apply bind_congr
    intro other
    unfold Session.yawToward?
    rw [hrate]

lemma obey_congr (hrate : s'.movie.fps = s.movie.fps) (hoptions : s'.options = s.options)
    (hcurves : s'.curves = s.curves) {c : Command K}
    (hrun : ∀ name, faced? c = some name → s'.run name = s.run name) (index : ℕ) (r : Run K) :
    obey s' index r c = obey s index r c := by
  cases c with
  | move c =>
    unfold obey
    rw [hrate, hoptions]
  | face c =>
    unfold obey
    rw [hrate]
    simp only [faceYaw_congr hrate hrun]
  | stay c =>
    unfold obey
    rw [hrate]
  | follow c =>
    have hcurve : s'.curve c.spline = s.curve c.spline := by
      unfold Session.curve
      rw [hcurves]
    unfold obey
    simp only [hrate, hcurve]

/-- A step decides alike in sessions that look alike to it. -/
lemma decided_congr (h : LooksLike step s s') (t : K) : decided s' t step = decided s t step := by
  cases step with
  | gather => rfl
  | joinActor name =>
    unfold decided
    simp only [h.run_eq name (Or.inl rfl), h.rate_eq]
  | joinCamera name =>
    unfold decided
    simp only [h.sheet_eq name rfl]
  | call actor =>
    unfold decided
    simp only [h.run_eq actor (Or.inl rfl)]
  | command actor c =>
    have hobey := obey_congr h.rate_eq h.options_eq h.curves_eq (c := c)
      fun name hname => h.run_eq name (Or.inr hname)
    unfold decided commanded
    simp only [h.run_eq actor (Or.inl rfl), hobey]
  | cues q =>
    unfold decided
    simp only [h.sheet_eq q.camera rfl]
  | nest => rfl

/-- The run that a step puts back is that of the actor it drives. -/
lemma decided_run {t : K} {r : Run K} {reports : List (Diagnostic (Finding K))}
    (h : decided s t step = .ok (.run r reports)) : step.actor? = some r.actor.name := by
  cases step with
  | joinActor name =>
    obtain ⟨q, hq, h⟩ := bind_eq_ok.mp h
    cases h
    rw [(holdUntil_kept _ _ _ q).1, (run_ok hq).2]
    rfl
  | command actor c =>
    obtain ⟨q, hq, h⟩ := bind_eq_ok.mp h
    split at h
    · cases h
    · obtain ⟨obeyed, hobey, h⟩ := bind_eq_ok.mp h
      cases h
      rw [(obey_kept hobey).1]
      exact congrArg some (run_ok hq).2.symm
  | joinCamera name =>
    obtain ⟨c, -, h⟩ := bind_eq_ok.mp h
    cases h
  | cues q =>
    obtain ⟨c, -, h⟩ := bind_eq_ok.mp h
    cases h
  | call actor =>
    obtain ⟨q, -, h⟩ := bind_eq_ok.mp h
    cases h
  | gather => cases h
  | nest => cases h

/-- The sheet that a step puts back is that of the camera it drives. -/
lemma decided_sheet {t : K} {c : CueSheet K} (h : decided s t step = .ok (.sheet c)) :
    step.camera? = some c.camera.name := by
  cases step with
  | joinCamera name =>
    obtain ⟨d, hd, h⟩ := bind_eq_ok.mp h
    cases h
    exact congrArg some (sheet_ok hd).2.symm
  | cues q =>
    obtain ⟨d, hd, h⟩ := bind_eq_ok.mp h
    cases h
    rw [add_camera, (sheet_ok hd).2]
    rfl
  | joinActor name =>
    obtain ⟨q, -, h⟩ := bind_eq_ok.mp h
    cases h
  | command actor c =>
    obtain ⟨q, -, h⟩ := bind_eq_ok.mp h
    split at h
    · cases h
    · obtain ⟨obeyed, -, h⟩ := bind_eq_ok.mp h
      cases h
  | call actor =>
    obtain ⟨q, -, h⟩ := bind_eq_ok.mp h
    cases h
  | gather => cases h
  | nest => cases h

end Looking

section Swapping

variable {K : Type} {s s' : Session K}

/-- The same session but for the script of its movie and the order of its reports. -/
def Alike (s s' : Session K) : Prop :=
  ∃ script reports, s.diagnostics.Perm reports ∧
    s' = { s with movie := { s.movie with script := script }, diagnostics := reports }

namespace Alike

lemma refl (s : Session K) : Alike s s := ⟨s.movie.script, s.diagnostics, .refl _, rfl⟩

lemma trans {s'' : Session K} (h : Alike s s') (h' : Alike s' s'') : Alike s s'' := by
  obtain ⟨script, reports, hreports, rfl⟩ := h
  obtain ⟨script', reports', hreports', rfl⟩ := h'
  exact ⟨script', reports', hreports.trans hreports', rfl⟩

lemma apply (h : Alike s s') (u : Change K) : Alike (u.apply s) (u.apply s') := by
  obtain ⟨script, reports, hreports, rfl⟩ := h
  cases u with
  | nothing => exact ⟨script, reports, hreports, rfl⟩
  | run r found => exact ⟨script, reports ++ found, hreports.append_right found, rfl⟩
  | sheet c => exact ⟨script, reports, hreports, rfl⟩

lemma looksLike (h : Alike s s') (step : Step K) : LooksLike step s s' := by
  obtain ⟨script, reports, -, rfl⟩ := h
  exact ⟨rfl, rfl, rfl, fun _ _ => rfl, fun _ _ => rfl⟩

end Alike

/-- Stages that differ no more than their sessions do. -/
structure AlikeStage (st st' : Stage K) : Prop where
  alike : Alike st.session st'.session
  groupStart_eq : st'.groupStart = st.groupStart

lemma AlikeStage.refl (st : Stage K) : AlikeStage st st := ⟨.refl _, rfl⟩

lemma AlikeStage.trans (st st' st'' : Stage K) (h : AlikeStage st st') (h' : AlikeStage st' st'') :
    AlikeStage st st'' :=
  ⟨h.alike.trans h'.alike, h'.groupStart_eq.trans h.groupStart_eq⟩

/-- Two steps that drive different entities and do not turn to each other's. -/
structure Independent (a b : Step K) : Prop where
  left_ungathered : a ≠ .gather
  right_ungathered : b ≠ .gather
  actors_ne : ∀ name, a.actor? = some name → b.actor? ≠ some name
  cameras_ne : ∀ name, a.camera? = some name → b.camera? ≠ some name
  right_unfaced : ∀ name, a.actor? = some name → b.faced? ≠ some name
  left_unfaced : ∀ name, b.actor? = some name → a.faced? ≠ some name

variable {a b : Step K}

lemma Independent.symm (h : Independent a b) : Independent b a :=
  ⟨h.right_ungathered, h.left_ungathered, fun name hb ha => h.actors_ne name ha hb,
    fun name hb ha => h.cameras_ne name ha hb, h.left_unfaced, h.right_unfaced⟩

variable [Scalar K] {t : K} {u v : Change K}

/-- What a step changes, an independent one does not see. -/
lemma Independent.looksLike (h : Independent a b) (ha : decided s t a = .ok u) :
    LooksLike b s (u.apply s) := by
  cases u with
  | nothing => exact .refl b s
  | run r reports =>
    have hr := decided_run ha
    refine ⟨rfl, rfl, rfl, ?_, fun _ _ => rfl⟩
    intro name hname
    refine run_setRun_of_ne (s := s) ?_
    rintro rfl
    rcases hname with hdriven | hfaced
    · exact h.actors_ne _ hr hdriven
    · exact h.right_unfaced _ hr hfaced
  | sheet c =>
    have hc := decided_sheet ha
    refine ⟨rfl, rfl, rfl, fun _ _ => rfl, ?_⟩
    intro name hname
    refine sheet_setSheet_of_ne (s := s) ?_
    rintro rfl
    exact h.cameras_ne _ hc hname

/-- Independent changes may be made in either order. -/
lemma Independent.apply_comm (h : Independent a b) (ha : decided s t a = .ok u)
    (hb : decided s t b = .ok v) : Alike (v.apply (u.apply s)) (u.apply (v.apply s)) := by
  cases u with
  | nothing => exact .refl _
  | run r found =>
    have hr := decided_run ha
    cases v with
    | nothing => exact .refl _
    | run q found' =>
      have hne : r.actor.name ≠ q.actor.name := by
        intro heq
        rw [heq] at hr
        exact h.actors_ne _ hr (decided_run hb)
      have hreports :
          (s.diagnostics ++ found ++ found').Perm (s.diagnostics ++ found' ++ found) := by
        rw [List.append_assoc, List.append_assoc]
        exact List.perm_append_comm.append_left s.diagnostics
      exact ⟨s.movie.script, _, hreports, congrArg (fun z : Session K =>
        { z with diagnostics := s.diagnostics ++ found' ++ found }) (setRun_comm (s := s) hne).symm⟩
    | sheet d => exact .refl _
  | sheet c =>
    have hc := decided_sheet ha
    cases v with
    | nothing => exact .refl _
    | run q found' => exact .refl _
    | sheet d =>
      have hne : c.camera.name ≠ d.camera.name := by
        intro heq
        rw [heq] at hc
        exact h.cameras_ne _ hc (decided_sheet hb)
      change Alike ((s.setSheet c).setSheet d) ((s.setSheet d).setSheet c)
      rw [setSheet_comm hne]
      exact .refl _

/-- Independent steps may be performed in either order. -/
theorem Independent.perform_comm (h : Independent a b) (st : Stage K) :
    Matches AlikeStage (perform st a >>= (perform · b)) (perform st b >>= (perform · a)) := by
  obtain ⟨s, t⟩ := st
  simp only [perform_eq_change h.left_ungathered, perform_eq_change h.right_ungathered,
    bind_assoc, pure_bind]
  have hright : ∀ u, decided s t a = .ok u → decided (u.apply s) t b = decided s t b :=
    fun u hu => decided_congr (h.looksLike hu) t
  have hleft : ∀ v, decided s t b = .ok v → decided (v.apply s) t a = decided s t a :=
    fun v hv => decided_congr (h.symm.looksLike hv) t
  cases hu : decided s t a with
  | error e =>
    cases hv : decided s t b with
    | error e' => exact .error e e'
    | ok v =>
      have hfail := hleft v hv
      rw [hu] at hfail
      change Matches AlikeStage (.error e) (decided (v.apply s) t a >>= _)
      rw [hfail]
      exact .error e e
  | ok u =>
    have hsame := hright u hu
    change Matches AlikeStage (decided (u.apply s) t b >>= _) _
    cases hv : decided s t b with
    | error e =>
      rw [hsame, hv]
      exact .error e e
    | ok v =>
      have hback := hleft v hv
      change Matches AlikeStage _ (decided (v.apply s) t a >>= _)
      rw [hsame, hv, hback, hu]
      exact .ok ⟨h.apply_comm hu hv, rfl⟩

/-- A step does the same to stages that are alike. -/
lemma AlikeStage.perform {st st' : Stage K} (h : AlikeStage st st') (step : Step K) :
    Matches AlikeStage (perform st step) (perform st' step) := by
  obtain ⟨s, t⟩ := st
  obtain ⟨s', t'⟩ := st'
  obtain ⟨hs, ht⟩ := h
  dsimp only at hs ht
  subst ht
  by_cases hstep : step = .gather
  · obtain ⟨script, reports, hreports, rfl⟩ := hs
    subst hstep
    exact .ok ⟨⟨script, reports, hreports, rfl⟩, rfl⟩
  · rw [perform_eq_change hstep, perform_eq_change hstep, decided_congr (hs.looksLike step)]
    exact .bind_same fun u _ => .ok ⟨hs.apply u, rfl⟩

/-- Lists of steps that are independent of each other may be performed in either order. -/
theorem steps_swap {l l' : List (Step K)} (h : ∀ a ∈ l, ∀ b ∈ l', Independent a b)
    (front rest : List (Step K)) {st st' : Stage K} (hst : AlikeStage st st') :
    Matches AlikeStage ((front ++ (l ++ l') ++ rest).foldlM perform st)
      ((front ++ (l' ++ l) ++ rest).foldlM perform st') := by
  have hround : ∀ (st st' : Stage K) step, AlikeStage st st' →
      Matches AlikeStage (perform st step) (perform st' step) := fun _ _ step h => h.perform step
  have hswap : ∀ st, Matches AlikeStage ((l ++ l').foldlM perform st)
      ((l' ++ l).foldlM perform st) :=
    Matches.foldlM_swap .refl .trans hround fun a ha b hb => (h a ha b hb).perform_comm
  have hsplit : ∀ (l : List (Step K)) (st : Stage K), (front ++ l ++ rest).foldlM perform st =
      front.foldlM perform st >>= fun st => l.foldlM perform st >>= fun st =>
        rest.foldlM perform st := by
    intro l st
    simp only [List.foldlM_append, bind_assoc]
  rw [hsplit, hsplit]
  refine (Matches.foldlM hround front hst).bind fun st st' hst => ?_
  have hmiddle := (hswap st).trans .trans (Matches.foldlM hround (l' ++ l) hst)
  exact hmiddle.bind fun _ _ => Matches.foldlM hround rest

end Swapping

end Stagecraft.Proofs
