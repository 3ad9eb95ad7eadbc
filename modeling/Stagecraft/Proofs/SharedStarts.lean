import Stagecraft.Proofs.CueSheets
import Stagecraft.Proofs.OtherRates
import Stagecraft.Proofs.RefusedPlans
import Stagecraft.Proofs.SwappedBlocks
import Stagecraft.Proofs.TurnedYaws

/-!
# Shared starts

A group begins at the latest time that any script has reached. Its members have their turns one
after another, but until its own each of them is as the group found it, and then it waits for that
same time: an actor rests where it is, unless it is there but for the tolerance, and a camera goes
on to it. So all of them begin together, however far those before them have gone on, and nobody's
time ever goes back.
-/

namespace Stagecraft.Proofs

section Untouched

variable {K : Type} [Scalar K] {m : Movie K} {o : PlanOptions K} {st st' : Stage K} {step : Step K}
  {steps : List (Step K)} {s s' : Session K} {name : String} {front before : List (Block K)}

/-- A step leaves the actors alone that it does not drive. -/
lemma Performed.run_untouched (h : Performed st step s') (hname : step.actor? ≠ some name) :
    s'.run name = st.session.run name := by
  cases h with
  | gather | call | joinCamera | cues => rfl
  | @joinActor r hr =>
    apply run_setRun_of_ne
    rw [(holdUntil_kept _ _ _ r).1]
    exact fun heq => hname (congrArg some heq)
  | @command r r' c findings hr hparked hobey =>
    have hne : r'.actor.name ≠ name := by
      rw [(obey_kept hobey).1]
      exact fun heq => hname (congrArg some heq)
    exact run_setRun_of_ne hne

lemma Performed.sheet_untouched (h : Performed st step s') (hname : step.camera? ≠ some name) :
    s'.sheet name = st.session.sheet name := by
  cases h with
  | gather | call | joinActor | command => rfl
  | joinCamera hc => exact sheet_setSheet_of_ne fun heq => hname (congrArg some heq)
  | cues hc hcamera =>
    apply sheet_setSheet_of_ne
    rw [add_camera, hcamera]
    exact fun heq => hname (congrArg some heq)

lemma steps_untouched (hactor : ∀ step ∈ steps, step.actor? ≠ some name)
    (hcamera : ∀ step ∈ steps, step.camera? ≠ some name)
    (h : steps.foldlM perform st = .ok st') :
    st'.session.run name = st.session.run name ∧
      st'.session.sheet name = st.session.sheet name := by
  let P : List (Step K) → Stage K → Prop := fun front t =>
    (∀ step ∈ front, step.actor? ≠ some name ∧ step.camera? ≠ some name) →
      t.session.run name = st.session.run name ∧ t.session.sheet name = st.session.sheet name
  have hround : ∀ front step t t', P front t → perform t step = .ok t' →
      P (front ++ [step]) t' := by
    intro front step t t' ht hstep hne
    obtain ⟨hrun, hsheet⟩ := ht fun step hstep => hne step (List.mem_append_left _ hstep)
    obtain ⟨hne₁, hne₂⟩ := hne step (List.mem_append_right front (List.mem_singleton_self step))
    have hperformed := perform_ok hstep
    exact ⟨(hperformed.run_untouched hne₁).trans hrun,
      (hperformed.sheet_untouched hne₂).trans hsheet⟩
  exact foldlM_induction (P := P) (fun _ => ⟨rfl, rfl⟩) hround h
    fun step hstep => ⟨hactor step hstep, hcamera step hstep⟩

omit [Scalar K] in
/-- The steps of a member drive the entity of that member. -/
lemma memberStep_drives {b : Block K} (h : step ∈ memberSteps b) {name : String}
    (hname : step.actor? = some name ∨ step.camera? = some name) : b.entity? = some name := by
  cases b with
  | actor q =>
    obtain ⟨-, hactor, hcamera, -⟩ := actorStep_of_mem h
    rw [hactor, hcamera] at hname
    simpa [Block.entity?] using hname
  | camera q =>
    obtain ⟨-, hactor, hcamera, -⟩ := cameraStep_of_mem h
    rw [hactor, hcamera] at hname
    simpa [Block.entity?] using hname
  | simultaneous members =>
    rw [List.mem_singleton.mp h] at hname
    rcases hname with hname | hname
    · cases hname
    · cases hname

/-- The members before leave those alone that are driven by none of them. -/
lemma members_untouched {t : K} (hne : ∀ b ∈ before, b.entity? ≠ some name)
    (h : before.foldlM (Session.member t) s = .ok s') :
    s'.run name = s.run name ∧ s'.sheet name = s.sheet name := by
  have hsteps : (before.flatMap memberSteps).foldlM perform ⟨s, t⟩ = .ok ⟨s', t⟩ := by
    rw [membersSteps_eq, h]
    rfl
  have hdrives : ∀ step ∈ before.flatMap memberSteps,
      ¬(step.actor? = some name ∨ step.camera? = some name) := by
    intro step hstep hname
    obtain ⟨b, hb, hmem⟩ := List.mem_flatMap.mp hstep
    exact hne b hb (memberStep_drives hmem hname)
  exact steps_untouched (fun step hstep => (not_or.mp (hdrives step hstep)).1)
    (fun step hstep => (not_or.mp (hdrives step hstep)).2) hsteps

/-- The stage at which a member of a group has its turn. -/
lemma stage_of_members (hs : front.foldlM Session.block (Session.start m o) = .ok s)
    (hbefore : before.foldlM (Session.member s.horizon) s = .ok s') (t : K) :
    (front.flatMap blockSteps ++ .gather :: before.flatMap memberSteps).foldlM perform
      ⟨Session.start m o, t⟩ = .ok ⟨s', s.horizon⟩ := by
  have hfront := blocksSteps_eq front ⟨Session.start m o, t⟩
  rw [hs] at hfront
  rw [List.foldlM_append]
  cases hst : (front.flatMap blockSteps).foldlM perform ⟨Session.start m o, t⟩ with
  | error e =>
    rw [hst] at hfront
    cases hfront
  | ok st =>
    rw [hst] at hfront
    cases hfront
    have hmembers := membersSteps_eq before st.session st.session.horizon
    rw [hbefore] at hmembers
    exact hmembers

end Untouched

section Onward

variable {m : Movie ℝ} {o : PlanOptions ℝ} {s s' s'' : Session ℝ}

/-- A later session of the same plan: nobody's time has gone back. -/
structure Onward (s s' : Session ℝ) : Prop where
  runs : List.Forall₂ (fun r r' : Run ℝ => r'.actor = r.actor ∧ r.cursor ≤ r'.cursor)
    s.runs s'.runs
  sheets : List.Forall₂ (fun c c' : CueSheet ℝ => c'.camera = c.camera ∧ c.cursor ≤ c'.cursor)
    s.sheets s'.sheets

lemma adds_cursor_le (c : CueSheet ℝ) (l : List (CameraCommand ℝ)) :
    c.cursor ≤ (l.foldl CueSheet.add c).cursor := by
  induction l generalizing c with
  | nil => exact le_rfl
  | cons command l ih => exact (add_cursor_le c command).trans (ih (c.add command))

/-- The cues of a sequence begin at the cursor. -/
lemma adds_cues (c : CueSheet ℝ) (l : List (CameraCommand ℝ)) :
    ∃ added, (l.foldl CueSheet.add c).cues = c.cues ++ added ∧ added.map Cue.command = l ∧
      ∀ q ∈ added.head?, q.time = c.cursor := by
  induction l generalizing c with
  | nil => exact ⟨[], (List.append_nil _).symm, rfl, nofun⟩
  | cons command l ih =>
    obtain ⟨added, hcues, hcommands, -⟩ := ih (c.add command)
    refine ⟨⟨c.cursor, c.nextIndex, command⟩ :: added, ?_, ?_, ?_⟩
    · rw [List.foldl_cons, hcues, add_cues, List.append_assoc]
      rfl
    · rw [List.map_cons, hcommands]
    · rintro q ⟨⟩
      rfl

namespace Onward

lemma refl (s : Session ℝ) : Onward s s :=
  ⟨List.forall₂_same.mpr fun _ _ => ⟨rfl, le_rfl⟩, List.forall₂_same.mpr fun _ _ => ⟨rfl, le_rfl⟩⟩

lemma trans (h : Onward s s') (h' : Onward s' s'') : Onward s s'' := by
  refine ⟨forall₂_trans ?_ h.runs h'.runs, forall₂_trans ?_ h.sheets h'.sheets⟩
  · exact fun _ _ _ hrun hrun' => ⟨hrun'.1.trans hrun.1, hrun.2.trans hrun'.2⟩
  · exact fun _ _ _ hsheet hsheet' => ⟨hsheet'.1.trans hsheet.1, hsheet.2.trans hsheet'.2⟩

lemma setRun (hnames : (runNames s).Nodup) {r r' : Run ℝ} (hr : r ∈ s.runs)
    (hactor : r'.actor = r.actor) (hle : r.cursor ≤ r'.cursor) : Onward s (s.setRun r') :=
  ⟨forall₂_setRun hnames hr (congrArg Actor.name hactor) (fun _ _ _ => ⟨rfl, le_rfl⟩)
    ⟨hactor, hle⟩, (refl s).sheets⟩

lemma setSheet (hnames : (s.sheets.map fun c => c.camera.name).Nodup) {c c' : CueSheet ℝ}
    (hc : c ∈ s.sheets) (hcamera : c'.camera = c.camera) (hle : c.cursor ≤ c'.cursor) :
    Onward s (s.setSheet c') :=
  ⟨(refl s).runs, forall₂_replaced hnames hc (congrArg Camera.name hcamera)
    (fun _ _ _ => ⟨rfl, le_rfl⟩) ⟨hcamera, hle⟩⟩

end Onward

/-- No step of a script takes anybody's time back. -/
theorem Performed.onward (hv : Valid m) {st : Stage ℝ} {step : Step ℝ}
    (hst : Follows (Session.start m o) st.session) (h : Performed st step s') :
    Onward st.session s' := by
  have hnames := hst.runNames_nodup hv
  have hsheets := hst.sheetNames_nodup hv
  cases h with
  | gather => exact .refl st.session
  | call actor => exact .refl st.session
  | @joinActor r hr =>
    have hwait : Advances st.session.movie.fps r
        (r.holdUntil st.session.movie.fps st.groupStart none) :=
      holdUntil_advances st.groupStart none
    exact .setRun hnames hr hwait.actor_eq hwait.cursor_le
  | joinCamera hc =>
    refine .setSheet hsheets hc rfl ?_
    rw [larger_real]
    exact le_max_left _ _
  | command hr hparked hobey =>
    have hadvances := obey_advances hobey
    have honward := Onward.setRun hnames hr hadvances.actor_eq hadvances.cursor_le
    exact ⟨honward.runs, honward.sheets⟩
  | cues hc hname => exact .setSheet hsheets hc (add_camera _ _) (adds_cursor_le _ _)

theorem steps_onward (hv : Valid m) {st st' : Stage ℝ} {steps : List (Step ℝ)}
    (hst : Follows (Session.start m o) st.session) (h : steps.foldlM perform st = .ok st') :
    Onward st.session st'.session := by
  let P : List (Step ℝ) → Stage ℝ → Prop := fun _ t =>
    Follows (Session.start m o) t.session ∧ Onward st.session t.session
  have hround : ∀ front step t t', P front t → perform t step = .ok t' →
      P (front ++ [step]) t' := by
    rintro front step t t' ⟨hfollows, honward⟩ hstep
    have hperformed := perform_ok hstep
    exact ⟨hfollows.trans (hperformed.follows hv hfollows),
      honward.trans (hperformed.onward hv hfollows)⟩
  exact (foldlM_induction (P := P) ⟨hst, .refl _⟩ hround h).2

end Onward

section Horizon

variable {m : Movie ℝ} {o : PlanOptions ℝ} {s : Session ℝ}

/-- The times that the scripts have reached. -/
def cursors (s : Session ℝ) : Set ℝ :=
  {t | (∃ r ∈ s.runs, r.cursor = t) ∨ ∃ c ∈ s.sheets, c.cursor = t}

lemma isGreatest_foldl_max {l : List ℝ} (hl : l ≠ []) {t : ℝ} (ht : ∀ x ∈ l, t ≤ x) :
    IsGreatest {x | x ∈ l} (l.foldl max t) := by
  obtain ⟨a, ha⟩ := Option.ne_none_iff_exists'.mp (mt List.max?_eq_none_iff.mp hl)
  obtain ⟨hmem, hle⟩ := List.max?_eq_some_iff.mp ha
  rw [List.foldl_max, ha, Option.getD_some, max_eq_right (ht a hmem)]
  exact ⟨hmem, hle⟩

/-- The horizon is the latest time that anyone has reached. -/
lemma horizon_isGreatest (hs : Follows (Session.start m o) s)
    (honward : Onward (Session.start m o) s) (hv : Valid m) (hsome : (cursors s).Nonempty) :
    IsGreatest (cursors s) s.horizon := by
  let l := s.runs.map Run.cursor ++ s.sheets.map CueSheet.cursor
  have hl : {t | t ∈ l} = cursors s := by
    ext t
    simp [l, cursors]
  have hhorizon : s.horizon = l.foldl max 0 := by
    have hmax : (Scalar.larger : ℝ → ℝ → ℝ) = max := by
      funext x y
      exact larger_real x y
    unfold Session.horizon
    rw [hmax, zero_real]
  have hnonneg : ∀ t ∈ l, 0 ≤ t := by
    intro t ht
    have ht' : t ∈ cursors s := hl ▸ ht
    rcases ht' with ⟨r, hr, rfl⟩ | ⟨c, hc, rfl⟩
    · exact (hs.onTime hv hr).cursor_nonneg
    · obtain ⟨c₀, hc₀, -, hle⟩ := mem_of_forall₂_right honward.sheets hc
      obtain ⟨camera, -, rfl⟩ := List.mem_map.mp hc₀
      exact zero_real.ge.trans hle
  have hne : l ≠ [] := by
    rintro hnil
    rw [hnil] at hl
    obtain ⟨t, ht⟩ := hsome
    rw [← hl] at ht
    cases ht
  rw [← hl, hhorizon]
  exact isGreatest_foldl_max hne hnonneg

end Horizon

section Resting

variable {rate : FrameRate ℝ} {r : Run ℝ}

lemma mem_push {κ : Type} [Keyed κ] {t : Track κ} {k k' : κ} (h : k' ∈ (t.push k).keys) :
    k' ∈ t.keys ∨ k' = k := by
  unfold Track.push at h
  split at h
  · exact Array.mem_push.mp h
  · split at h
    · exact Array.mem_push.mp h
    · dsimp only at h
      split at h
      · exact Array.mem_or_eq_of_mem_setIfInBounds h
      · unfold Array.insertIdxIfInBounds at h
        split at h
        next hle => exact ((Array.mem_insertIdx (h := hle)).mp h).symm
        next => exact Or.inl h

/-- A pose that the mesh shows already is keyed at the same yaw again. -/
lemma keyAll_still {p : Pose ℝ} {turns : ℤ}
    (h : r.emittedYaw = p.yaw + r.actor.yawOffset + 360 * turns) (frames : List ℕ) :
    ∀ k ∈ (keyAll (fun _ => p) frames r).transform.keys,
      k ∈ r.transform.keys ∨ k.transform.rotation.yaw = r.emittedYaw := by
  induction frames generalizing r with
  | nil => exact fun k hk => Or.inl hk
  | cons f frames ih =>
    intro k hk
    have hyaw : (r.key f p).emittedYaw = r.emittedYaw := unwrapYaw_still h
    have hrest := ih (r := r.key f p) (hyaw.trans h) k hk
    rcases hrest with hk | hk
    · refine (mem_push hk).imp_right fun heq => ?_
      rw [heq]
      exact hyaw
    · exact Or.inr (hk.trans hyaw)

/-- A key shows at a frame what another one shows. -/
structure Repeats (k₀ : TransformKey ℝ) (f : ℕ) (k : TransformKey ℝ) : Prop where
  frame_eq : k.frame = f
  location_eq : k.transform.location = k₀.transform.location
  pitch_eq : k.transform.rotation.pitch = k₀.transform.rotation.pitch
  yaw_eq : k.transform.rotation.yaw = k₀.transform.rotation.yaw

/-- What a run at rest leaves behind: it is where it was before, and whatever it has keyed since
shows what its last key did. -/
structure Rested (rate : FrameRate ℝ) (r w : Run ℝ) : Prop where
  actor_eq : w.actor = r.actor
  pose_eq : w.pose = r.pose
  cursor_le : r.cursor ≤ w.cursor
  keys : ∃ k₀, r.transform.last? = some k₀ ∧ ShowsPose r.actor.yawOffset r.pose k₀ ∧
    ∀ f, rate.frameAt r.cursor ≤ f → f ≤ rate.frameAt w.cursor →
      ∃ k, w.transform.keys[f]? = some k ∧ Repeats k₀ f k

/-- What a run needs to rest: its last key shows where it is. -/
structure Standing (rate : FrameRate ℝ) (r : Run ℝ) : Prop where
  onTime : OnTime rate r
  yaws : YawsKeyed rate r
  shown : EndShown r

lemma Standing.emitted (h : Standing rate r) {k₀ : TransformKey ℝ}
    (hlast : r.transform.last? = some k₀) : k₀.transform.rotation.yaw = r.emittedYaw := by
  have hkey := h.onTime.filled.last?_eq.symm.trans hlast
  rw [← h.yaws.emitted_eq, yawBefore_succ hkey]

lemma Standing.rested (h : Standing rate r) : Rested rate r r := by
  obtain ⟨k₀, hlast, hshows⟩ := h.shown
  have hkey := h.onTime.filled.last?_eq.symm.trans hlast
  refine ⟨rfl, rfl, le_rfl, k₀, hlast, hshows, fun f hle hge => ?_⟩
  obtain rfl := le_antisymm hle hge
  exact ⟨k₀, hkey, h.onTime.filled.frame_eq hkey, rfl, rfl, rfl⟩

/-- Holding its pose, a run repeats its last key. -/
lemma Standing.hold (h : Standing rate r) (hfps : 0 < rate.fps) {duration : ℝ}
    (hduration : 0 ≤ duration) (clip : Option (Clip ℝ)) :
    Rested rate r (r.hold rate duration clip) := by
  obtain ⟨k₀, hlast, hshows⟩ := h.shown
  obtain ⟨turns, hturns⟩ := hshows.2.2
  have hkey := h.onTime.filled.last?_eq.symm.trans hlast
  have hyaw := h.emitted hlast
  let q : Span ℝ := ⟨r.cursor, duration, fun _ => r.pose, clip⟩
  have hkeyed := h.onTime.play_keyed (s := q) hfps rfl hduration
  refine ⟨play_actor _ _ _, play_pose _ _ _, (hold_advances hduration clip).cursor_le, k₀, hlast,
    hshows, fun f hle hge => ?_⟩
  change f ≤ rate.frameAt (r.play rate q).cursor at hge
  rw [play_cursor] at hge
  obtain ⟨current, hadded⟩ := hkeyed.added f hle (Nat.lt_succ_of_le hge)
  refine ⟨_, hadded, rfl, hshows.1.symm, hshows.2.1.symm, ?_⟩
  rw [play_transform, sample_eq_keyAll] at hadded
  rcases keyAll_still (hyaw.symm.trans hturns) _ _ (Array.mem_of_getElem? hadded) with hold | hnew
  · -- On the frame of the cursor the last key itself may have stayed.
    obtain ⟨i, hi⟩ := Array.mem_iff_getElem?.mp hold
    have hframe : f = i := h.onTime.filled.frame_eq hi
    have hlt := (Array.getElem?_eq_some_iff.mp hi).1
    rw [h.onTime.filled.size_eq] at hlt
    obtain rfl : i = rate.frameAt r.cursor := by omega
    rw [hkey, Option.some.injEq] at hi
    rw [hi]
  · exact hnew.trans hyaw.symm

lemma Standing.holdUntil (h : Standing rate r) (hfps : 0 < rate.fps) {moment : ℝ} :
    Rested rate r (r.holdUntil rate moment none) := by
  unfold Run.holdUntil
  split
  next => exact h.rested
  next hlate =>
    rw [tolerance_real] at hlate
    exact h.hold hfps (by linarith) none

/-- Up to a moment that it has not passed, a run rests but for the tolerance. -/
lemma holdUntil_cursor_mem {moment : ℝ} (h : r.cursor ≤ moment) :
    (r.holdUntil rate moment none).cursor ∈ Set.Icc (moment - 1e-9) moment := by
  by_cases hlate : r.cursor + 1e-9 < moment
  · rw [holdUntil_cursor hlate]
    constructor <;> norm_num
  · have hthere : moment ≤ r.cursor + Scalar.tolerance := by
      rw [tolerance_real]
      exact not_lt.mp hlate
    unfold Run.holdUntil
    rw [if_pos hthere]
    constructor <;> linarith

lemma Follows.standing {m : Movie ℝ} {o : PlanOptions ℝ} {s : Session ℝ} (hv : Valid m)
    (hs : Follows (Session.start m o) s) (hr : r ∈ s.runs) : Standing m.fps r := by
  have ha := hs.advances_start hr
  exact ⟨hs.onTime hv hr, (start_yawsKeyed r.actor).advances hv.rate_pos ha,
    ha.endShown (onTime_start r.actor) hv.rate_pos (start_endShown r.actor)⟩

end Resting

section Groups

variable {m : Movie ℝ} {o : PlanOptions ℝ} {front members rest before after : List (Block ℝ)}
  {s sᵢ : Session ℝ}

/-- A command begins at a moment: its span starts there, or its actor is parked there. A stay until
a moment that is past is over there at once. -/
inductive StartsAt (t : ℝ) (r : Run ℝ) : Command ℝ → Run ℝ → Prop
  | plays {c : Command ℝ} {q : Span ℝ} {r' : Run ℝ} (hq : Obeys r.pose t c q)
    (hstart : q.start = t) (hspans : r'.spans = q :: r.spans) : StartsAt t r c r'
  | parks {r' : Run ℝ} (index : ℕ) (clip : Option (Clip ℝ))
    (hparked : r'.parked = some ⟨index, t, clip⟩) : StartsAt t r (.stay ⟨.tillEnd, clip⟩) r'
  | passes {c : Command ℝ} {r' : Run ℝ} (hpast : Passed t c) (hcursor : r'.cursor = t)
    (hspans : r'.spans = r.spans) : StartsAt t r c r'

lemma Obeyed.startsAt {rate : FrameRate ℝ} {index : ℕ} {r r' : Run ℝ} {c : Command ℝ}
    (h : Obeyed rate index { r with nextIndex := index + 1 } c r') : StartsAt r.cursor r c r' := by
  cases h with
  | plays hnext hq lane => exact .plays hq hq.start_eq (play_spans _ _ _)
  | passes hpast => exact .passes hpast rfl rfl
  | parks clip => exact .parks index clip rfl

/-- An actor joins a group in which those before it have had their turns. It is as the group found
it, rests until the group's start and begins with its first command there. The plan shows it at
rest up to the frame of that start, which shows the command. -/
structure ActorJoins (m : Movie ℝ) (o : PlanOptions ℝ) (s sᵢ : Session ℝ) (q : ActorSequence ℝ)
    (r w : Run ℝ) : Prop where
  found : s.run q.actor = .ok r
  untouched : sᵢ.run q.actor = .ok r
  turn : Session.member s.horizon sᵢ (.actor q) = (sᵢ.setRun w).actorSequence q
  rests : Rested m.fps r w
  start_mem : w.cursor ∈ Set.Icc (s.horizon - 1e-9) s.horizon
  starts : ∀ c rest s₁, q.commands = c :: rest →
    Session.command q.actor (sᵢ.setRun w) c = .ok s₁ →
    ∃ r₁, s₁.run q.actor = .ok r₁ ∧ StartsAt w.cursor w c r₁
  planned : ∀ reel, m.plan o = .ok reel → ∃ a ∈ reel.actors, a.actor = r.actor ∧
    ∀ f < m.fps.frameAt w.cursor, a.transform.keys[f]? = w.transform.keys[f]?

/-- A camera joins a group in which those before it have had their turns. It is as the group found
it, and its first cue stands at the group's start. -/
structure CameraJoins (s sᵢ : Session ℝ) (q : CameraSequence ℝ) (c c' : CueSheet ℝ) : Prop where
  found : s.sheet q.camera = .ok c
  untouched : sᵢ.sheet q.camera = .ok c
  turn : ∃ s', Session.member s.horizon sᵢ (.camera q) = .ok s' ∧ s'.sheet q.camera = .ok c'
  cursor_le : c.cursor ≤ s.horizon ∧ s.horizon ≤ c'.cursor
  cues : ∃ added, c'.cues = c.cues ++ added ∧ added.map Cue.command = q.commands ∧
    ∀ cue ∈ added.head?, cue.time = s.horizon

/-- How a member joins a group. -/
def Joins (m : Movie ℝ) (o : PlanOptions ℝ) (s sᵢ : Session ℝ) : Block ℝ → Prop
  | .actor q => ∃ r w, ActorJoins m o s sᵢ q r w
  | .camera q => ∃ c c', CameraJoins s sᵢ q c c'
  | .simultaneous _ => False

/-- What there is when a member of a group has its turn. -/
structure Turn (m : Movie ℝ) (o : PlanOptions ℝ) (steps : List (Step ℝ)) (s sᵢ : Session ℝ)
    (b : Block ℝ) : Prop where
  valid : Valid m
  stage : steps.foldlM perform ⟨Session.start m o, 0⟩ = .ok ⟨sᵢ, s.horizon⟩
  reached : Reached o m steps sᵢ
  follows : Follows (Session.start m o) sᵢ
  untouched : ∀ name, b.entity? = some name →
    sᵢ.run name = s.run name ∧ sᵢ.sheet name = s.sheet name
  greatest : (cursors s).Nonempty → IsGreatest (cursors s) s.horizon

lemma turn_of_member {b : Block ℝ} (h : m.issues = [])
    (hscript : m.script = front ++ .simultaneous (before ++ b :: after) :: rest)
    (hs : front.foldlM Session.block (Session.start m o) = .ok s)
    (hbefore : before.foldlM (Session.member s.horizon) s = .ok sᵢ) :
    Turn m o (front.flatMap blockSteps ++ .gather :: before.flatMap memberSteps) s sᵢ b := by
  have hv := valid_of_issues_nil h
  have hstage := stage_of_members hs hbefore 0
  have hnone : [].foldlM (Session.member s.horizon) s = .ok s := rfl
  have hbegin := stage_of_members hs hnone 0
  refine ⟨hv, hstage, steps_reached hv.toChecked hstage, steps_follow hv (.refl _) hstage, ?_,
    horizon_isGreatest (steps_follow hv (.refl _) hbegin) (steps_onward hv (.refl _) hbegin) hv⟩
  intro name hname
  refine members_untouched (fun d hd heq => ?_) hbefore
  have hmem : Block.simultaneous (before ++ b :: after) ∈ m.script := by
    rw [hscript]
    exact List.mem_append_right front List.mem_cons_self
  have hgroup := groupIssues_nil_iff.mp hv.groups_pass _ hmem _ rfl
  have hnodup := (memberIssues_nil_iff.mp hgroup).2.1
  rw [List.map_append, List.map_cons, List.nodup_append] at hnodup
  exact hnodup.2.2 _ (List.mem_map_of_mem hd) _ List.mem_cons_self (heq.trans hname.symm)

lemma member_of_script {b : Block ℝ}
    (hscript : m.script = front ++ .simultaneous (before ++ b :: after) :: rest) :
    b ∈ m.sequences := by
  refine List.mem_flatMap.mpr ⟨.simultaneous (before ++ b :: after), ?_, ?_⟩
  · rw [hscript]
    exact List.mem_append_right front List.mem_cons_self
  · exact List.mem_append_right before List.mem_cons_self

/-- A member's turn among the steps of its script. -/
lemma scriptSteps_member {q : ActorSequence ℝ}
    (hscript : m.script = front ++ .simultaneous (before ++ .actor q :: after) :: rest) :
    ∃ later, scriptSteps m =
      (front.flatMap blockSteps ++ .gather :: before.flatMap memberSteps) ++
        .joinActor q.actor :: later := by
  refine ⟨actorSteps q ++ after.flatMap memberSteps ++ rest.flatMap blockSteps, ?_⟩
  unfold scriptSteps
  rw [hscript]
  simp [blockSteps, memberSteps]

/-- Nothing that is played later touches the frames before the one where a member starts. -/
lemma Turn.plan {q : ActorSequence ℝ} {steps later : List (Step ℝ)}
    (ht : Turn m o steps s sᵢ (.actor q)) {r : Run ℝ} (hr : sᵢ.run q.actor = .ok r)
    (hsteps : scriptSteps m = steps ++ .joinActor q.actor :: later) {reel : Reel ℝ}
    (hplan : m.plan o = .ok reel) : ∃ a ∈ reel.actors, a.actor = r.actor ∧
      ∀ f < m.fps.frameAt (r.holdUntil m.fps s.horizon none).cursor,
        a.transform.keys[f]? = (r.holdUntil m.fps s.horizon none).transform.keys[f]? := by
  obtain ⟨st, st', final, hst, hstep, -, hshows, -, hjoin, hlast⟩ := plan_split hplan hsteps
  rw [ht.stage, Except.ok.injEq] at hst
  subst hst
  obtain ⟨r₀, hr₀, hstep⟩ := bind_eq_ok.mp hstep
  rw [hr, Except.ok.injEq] at hr₀
  subst hr₀
  cases hstep
  obtain ⟨hmem, hname⟩ := run_ok hr
  rw [ht.reached.movie_eq] at hjoin hlast
  have hwait : Advances m.fps r (r.holdUntil m.fps s.horizon none) :=
    holdUntil_advances s.horizon none
  have hjoined := run_setRun (ht.follows.runNames_nodup ht.valid) hmem
    (congrArg Actor.name hwait.actor_eq)
  obtain ⟨r', hr', ha⟩ := mem_of_forall₂_left hlast.runs_advance (run_ok hjoined).1
  refine ⟨⟨r'.actor, r'.transform, r'.animation⟩, ?_, ?_, ?_⟩
  · rw [hshows.actors_eq]
    exact List.mem_map_of_mem hr'
  · exact ha.actor_eq.trans hwait.actor_eq
  · intro f hf
    have honTime := ((ht.follows.onTime ht.valid hmem).advances ht.valid.rate_pos hwait)
    have hrate : (sᵢ.setRun (r.holdUntil m.fps s.horizon none)).movie.fps = m.fps :=
      congrArg Movie.fps ht.reached.movie_eq
    rw [hrate] at ha
    exact ha.key_eq honTime ht.valid.rate_pos hf

lemma Turn.actor {q : ActorSequence ℝ} {steps later : List (Step ℝ)}
    (ht : Turn m o steps s sᵢ (.actor q)) (hdeclared : ∃ a ∈ m.actors, a.name = q.actor)
    (hsteps : scriptSteps m = steps ++ .joinActor q.actor :: later) :
    ∃ r w, ActorJoins m o s sᵢ q r w := by
  obtain ⟨r, hr, hname, hrun⟩ := ht.reached.exists_run ht.valid.toChecked hdeclared
  have hfound : s.run q.actor = .ok r := (ht.untouched q.actor rfl).1 ▸ hrun
  have hle : r.cursor ≤ s.horizon := by
    have hcursor : r.cursor ∈ cursors s := Or.inl ⟨r, (run_ok hfound).1, rfl⟩
    exact (ht.greatest ⟨_, hcursor⟩).2 hcursor
  let w := r.holdUntil m.fps s.horizon none
  have hrests : Rested m.fps r w :=
    (ht.follows.standing ht.valid hr).holdUntil ht.valid.rate_pos
  have hnames := ht.follows.runNames_nodup ht.valid
  have hjoined : (sᵢ.setRun w).run q.actor = .ok w :=
    hname ▸ run_setRun hnames hr (congrArg Actor.name hrests.actor_eq)
  refine ⟨r, w, hfound, hrun, ?_, hrests, holdUntil_cursor_mem hle, ?_, ?_⟩
  · refine (bind_of_ok hrun _).trans ?_
    rw [ht.reached.movie_eq]
  · intro c rest s₁ _ hcommand
    obtain ⟨r₀, r', findings, hr₀, -, hobey, rfl⟩ := command_ok hcommand
    rw [hjoined, Except.ok.injEq] at hr₀
    subst hr₀
    have hactor := (obey_kept hobey).1
    refine ⟨r', ?_, (obey_obeyed hobey).startsAt⟩
    have hnames' : (runNames (sᵢ.setRun w)).Nodup := (runNames_setRun sᵢ w).symm ▸ hnames
    obtain ⟨hmem, hwname⟩ := run_ok hjoined
    rw [← hwname]
    exact run_setRun hnames' hmem (congrArg Actor.name hactor)
  · exact fun reel hplan => ht.plan hrun hsteps hplan

lemma Turn.camera {q : CameraSequence ℝ} {steps : List (Step ℝ)}
    (ht : Turn m o steps s sᵢ (.camera q)) (hdeclared : ∃ c ∈ m.cameras, c.name = q.camera) :
    ∃ c c', CameraJoins s sᵢ q c c' := by
  obtain ⟨c, hc⟩ := ht.reached.exists_sheet hdeclared
  have hfound : s.sheet q.camera = .ok c := (ht.untouched q.camera rfl).2 ▸ hc
  have hle : c.cursor ≤ s.horizon := by
    have hcursor : c.cursor ∈ cursors s := Or.inr ⟨c, (sheet_ok hfound).1, rfl⟩
    exact (ht.greatest ⟨_, hcursor⟩).2 hcursor
  let c₀ : CueSheet ℝ := { c with cursor := Scalar.larger c.cursor s.horizon }
  have hc₀ : c₀.cursor = s.horizon := (larger_real _ _).trans (max_eq_right hle)
  have hjoined : (sᵢ.setSheet c₀).sheet q.camera = .ok c₀ := sheet_setSheet hc rfl
  obtain ⟨added, hcues, hcommands, hfirst⟩ := adds_cues c₀ q.commands
  let c' := q.commands.foldl CueSheet.add c₀
  refine ⟨c, c', hfound, hc, ⟨(sᵢ.setSheet c₀).setSheet c', ?_, ?_⟩, ⟨hle, ?_⟩, added, hcues,
    hcommands, fun cue hcue => (hfirst cue hcue).trans hc₀⟩
  · exact (bind_of_ok hc _).trans (bind_of_ok hjoined _)
  · exact sheet_setSheet hjoined (add_camera _ _)
  · exact hc₀.ge.trans (adds_cursor_le c₀ q.commands)

lemma joins_of_member {b : Block ℝ} (h : m.issues = [])
    (hscript : m.script = front ++ .simultaneous (before ++ b :: after) :: rest)
    (hs : front.foldlM Session.block (Session.start m o) = .ok s)
    (hbefore : before.foldlM (Session.member s.horizon) s = .ok sᵢ) : Joins m o s sᵢ b := by
  have ht := turn_of_member h hscript hs hbefore
  have hmem := member_of_script hscript
  cases b with
  | actor q =>
    obtain ⟨later, hsteps⟩ := scriptSteps_member hscript
    exact ht.actor (ht.valid.actor_sequence hmem).1 hsteps
  | camera q => exact ht.camera (ht.valid.camera_sequence hmem).1
  | simultaneous inner =>
    have hgroup : Block.simultaneous (before ++ .simultaneous inner :: after) ∈ m.script := by
      rw [hscript]
      exact List.mem_append_right front List.mem_cons_self
    exact absurd rfl (ht.valid.members_driven hgroup (.simultaneous inner)
      (List.mem_append_right before List.mem_cons_self))

/-- A group begins at the latest time that anyone has reached. Its members join it there, whatever
those before them have done, and no step of the script takes anybody's time back. -/
theorem group_begins_together (h : m.issues = [])
    (hscript : m.script = front ++ .simultaneous members :: rest)
    (hs : front.foldlM Session.block (Session.start m o) = .ok s) :
    (members ≠ [] → IsGreatest (cursors s) s.horizon) ∧
    (∀ before b after sᵢ, members = before ++ b :: after →
      before.foldlM (Session.member s.horizon) s = .ok sᵢ → Joins m o s sᵢ b) ∧
    ∀ early late later st st', scriptSteps m = early ++ late ++ later →
      early.foldlM perform ⟨Session.start m o, 0⟩ = .ok st → late.foldlM perform st = .ok st' →
      Onward st.session st'.session := by
  have hv := valid_of_issues_nil h
  refine ⟨fun hne => ?_, ?_, ?_⟩
  · obtain ⟨b, after, rfl⟩ := List.exists_cons_of_ne_nil hne
    have hnone : [].foldlM (Session.member s.horizon) s = .ok s := rfl
    have hfirst : m.script = front ++ .simultaneous ([] ++ b :: after) :: rest := hscript
    have hjoins := joins_of_member h hfirst hs hnone
    apply (turn_of_member h hfirst hs hnone).greatest
    cases b with
    | actor q =>
      obtain ⟨r, w, hr⟩ := hjoins
      exact ⟨r.cursor, Or.inl ⟨r, (run_ok hr.found).1, rfl⟩⟩
    | camera q =>
      obtain ⟨c, c', hc⟩ := hjoins
      exact ⟨c.cursor, Or.inr ⟨c, (sheet_ok hc.found).1, rfl⟩⟩
    | simultaneous inner => exact absurd hjoins id
  · rintro before b after sᵢ rfl hbefore
    exact joins_of_member h hscript hs hbefore
  · intro early late later st st' _ hearly hlate
    exact steps_onward hv (steps_follow hv (.refl _) hearly) hlate

end Groups

section Rendezvous

variable {o : PlanOptions ℝ}

/-- A stay of some seconds. -/
def pause (seconds : ℝ) : Command ℝ := .stay ⟨.lasting (.seconds seconds), none⟩

/-- Two actors and a camera. -/
def gathered : List (Block ℝ) :=
  [.actor ⟨"A", [pause 1]⟩, .actor ⟨"B", [pause 3]⟩, .camera ⟨"C", [.hold (.seconds 1)]⟩]

/-- One of them stays for two seconds, and then all of them go on together. -/
noncomputable def rendezvous : Movie ℝ :=
  { Movie.empty "rendezvous" 1 with
    actors := [Actor.named "A", Actor.named "B"]
    cameras := [Camera.named "C"]
    script := [.actor ⟨"A", [pause 2]⟩, .simultaneous gathered] }

lemma rendezvous_issues : rendezvous.issues = [] := by
  have hactor (name : String) : Movie.actorIssues (Actor.named name : Actor ℝ) = [] :=
    actorIssues_named name
  simp only [Movie.issues, rendezvous, Movie.empty, List.flatMap_cons, List.flatMap_nil, hactor]
  simp [FrameRate.isValid, Movie.declared, Movie.nameIssues, Movie.groupIssues, Movie.memberIssues,
    Block.entity?, Movie.scriptIssues, Movie.sequences, Block.flatten, Movie.sequenceIssues,
    Movie.commandIssues, Movie.nameIssue?, Movie.kind?, Actor.named, Movie.tillEndIssues,
    Movie.commandsFor, isBlankText, isBlankChar, List.lookup_cons, Command.isTillEnd, pause,
    gathered, Movie.actorCommandCount, Movie.cameraIssues, Camera.named, Movie.cameraCommandIssues,
    Movie.cameraCommandCount, CameraCommand.subject?, seconds_real, List.findIdx?_cons]

/-- The group begins where the first stay has led. -/
lemma rendezvous_front : ∃ s, [Block.actor ⟨"A", [pause 2]⟩].foldlM Session.block
    (Session.start rendezvous o) = .ok s ∧ s.horizon = 2 := by
  have hv := valid_of_issues_nil rendezvous_issues
  have hstart (name : String) : (Run.start (Actor.named name) : Run ℝ).cursor = 0 := zero_real
  have hblank : (CueSheet.blank (Camera.named "C") : CueSheet ℝ).cursor = 0 := zero_real
  have htwo : (TimeSpan.seconds 2 : TimeSpan ℝ).internal = 2 := seconds_real 2
  have hruns : (Session.start rendezvous o).runs =
      [] ++ Run.start (Actor.named "A") :: [Run.start (Actor.named "B")] := rfl
  have hsheets : (Session.start rendezvous o).sheets = [CueSheet.blank (Camera.named "C")] := rfl
  obtain ⟨r, hobey, hcursor⟩ : ∃ r, obey (Session.start rendezvous o) 0
      { Run.start (Actor.named "A") with nextIndex := 1 } (pause 2) = .ok (r, []) ∧
      r.cursor = 2 := by
    refine ⟨_, rfl, (stay_lasting_cursor ?_ none).trans ?_⟩
    · rw [htwo]
      norm_num
    · rw [htwo]
      exact (congrArg (· + 2) (hstart "A")).trans (zero_add 2)
  obtain ⟨s, hblock, -, hruns', hsheets'⟩ :=
    block_command ((Follows.refl (Session.start rendezvous o)).runNames_nodup hv) hruns rfl hobey
  refine ⟨s, bind_eq_ok.mpr ⟨s, hblock, rfl⟩, ?_⟩
  unfold Session.horizon
  rw [hruns', hsheets', hsheets]
  simp [larger_real, hstart, hblank, hcursor]

theorem rendezvous_begins_together :
    ∃ s, [Block.actor ⟨"A", [pause 2]⟩].foldlM Session.block
      (Session.start rendezvous Settings.standard.options) = .ok s ∧ s.horizon = 2 ∧
    (gathered ≠ [] → IsGreatest (cursors s) s.horizon) ∧
    (∀ before b after sᵢ, gathered = before ++ b :: after →
      before.foldlM (Session.member s.horizon) s = .ok sᵢ →
      Joins rendezvous Settings.standard.options s sᵢ b) ∧
    ∀ early late later st st', scriptSteps rendezvous = early ++ late ++ later →
      early.foldlM perform ⟨Session.start rendezvous Settings.standard.options, 0⟩ = .ok st →
      late.foldlM perform st = .ok st' → Onward st.session st'.session := by
  obtain ⟨s, hs, hhorizon⟩ := rendezvous_front (o := Settings.standard.options)
  exact ⟨s, hs, hhorizon, group_begins_together rendezvous_issues rfl hs⟩

end Rendezvous

end Stagecraft.Proofs
