import Stagecraft.Proofs.PlayedClips
import Stagecraft.Proofs.RecountedRuns
import Stagecraft.Proofs.TurnedYaws

/-!
# Split stays

A stay may be split in two without a trace: the frame where its parts meet is keyed twice with the
same key, and the clip of the first part goes on in the second. Only the count of the commands
tells that there are more.
-/

namespace Stagecraft.Proofs

section Holding

variable {rate : FrameRate ℝ} {r r' : Run ℝ} {d₁ d₂ : ℝ}

/-- A pose that is keyed again leaves the same key. -/
lemma key_again (h : Ordered r.transform) (f : ℕ) (p : Pose ℝ) :
    (r.key f p).key f p = r.key f p := by
  obtain ⟨turns, hturns⟩ := unwrapYaw_real r.emittedYaw (p.yaw + r.actor.yawOffset)
  have hyaw := unwrapYaw_still hturns
  unfold Run.key
  dsimp only
  rw [hyaw, h.push_push]

lemma keyAll_ordered (h : Ordered r.transform) (g : ℕ → Pose ℝ) (frames : List ℕ) :
    Ordered (keyAll g frames r).transform := by
  induction frames generalizing r with
  | nil => exact h
  | cons f frames ih => exact ih (h.push _)

/-- Frames may be keyed in two stretches that share a frame. -/
lemma keyAll_keyAll (h : Ordered r.transform) (g : ℕ → Pose ℝ) {f n m : ℕ} (hfn : f ≤ n)
    (hnm : n ≤ m) :
    keyAll g (List.range' n (m + 1 - n)) (keyAll g (List.range' f (n + 1 - f)) r) =
      keyAll g (List.range' f (m + 1 - f)) r := by
  obtain ⟨a, rfl⟩ := Nat.exists_eq_add_of_le hfn
  obtain ⟨b, rfl⟩ := Nat.exists_eq_add_of_le hnm
  have hfirst : f + a + 1 - f = a + 1 := by omega
  have hsecond : f + a + b + 1 - (f + a) = b + 1 := by omega
  have hboth : List.range' f (f + a + b + 1 - f) =
      List.range' f a ++ (f + a) :: List.range' (f + a + 1) b := by
    have hlength : f + a + b + 1 - f = a + (b + 1) := by omega
    rw [hlength, ← List.range'_append_1, List.range'_succ]
  have hordered := keyAll_ordered h g (List.range' f a)
  unfold keyAll at hordered ⊢
  rw [hfirst, hsecond, hboth, List.range'_1_concat, List.range'_succ]
  simp only [List.foldl_append, List.foldl_cons, List.foldl_nil, key_again hordered]

/-- What a run keys is told from what it has keyed. -/
lemma keyAll_congr (hactor : r'.actor = r.actor) (hyaw : r'.emittedYaw = r.emittedYaw)
    (htrack : r'.transform = r.transform) (g : ℕ → Pose ℝ) (frames : List ℕ) :
    (keyAll g frames r').emittedYaw = (keyAll g frames r).emittedYaw ∧
      (keyAll g frames r').transform = (keyAll g frames r).transform := by
  induction frames generalizing r r' with
  | nil => exact ⟨hyaw, htrack⟩
  | cons f frames ih =>
    have hactor' : (r'.key f (g f)).actor = (r.key f (g f)).actor := hactor
    have hyaw' : (r'.key f (g f)).emittedYaw = (r.key f (g f)).emittedYaw := by
      unfold Run.key
      rw [hactor, hyaw]
    have htrack' : (r'.key f (g f)).transform = (r.key f (g f)).transform := by
      unfold Run.key
      rw [hactor, hyaw, htrack]
    exact ih hactor' hyaw' htrack'

lemma sample_actor (rate : FrameRate ℝ) (s : Span ℝ) (r : Run ℝ) :
    (r.sample rate s).actor = r.actor := by
  obtain ⟨yaw, track, hkey⟩ := keyAll_eq (fun f => s.pose (s.momentAt rate (s.lastFrame rate) f))
    (List.range' (s.firstFrame rate) (s.lastFrame rate + 1 - s.firstFrame rate)) r
  rw [sample_eq_keyAll, hkey]

/-- Spans that hold one pose, one after the other, key what one span over the frames of both
does. -/
lemma sample_play_still {p : Pose ℝ} (whole first second : Span ℝ) (hr : Ordered r.transform)
    (hwhole : whole.pose = fun _ => p) (hfirst : first.pose = fun _ => p)
    (hsecond : second.pose = fun _ => p)
    (hbegin : whole.firstFrame rate = first.firstFrame rate)
    (hmeet : second.firstFrame rate = first.lastFrame rate)
    (hend : whole.lastFrame rate = second.lastFrame rate)
    (hle₁ : first.firstFrame rate ≤ first.lastFrame rate)
    (hle₂ : second.firstFrame rate ≤ second.lastFrame rate) :
    ((r.play rate first).sample rate second).emittedYaw = (r.sample rate whole).emittedYaw ∧
      ((r.play rate first).sample rate second).transform = (r.sample rate whole).transform := by
  have hactor : (r.play rate first).actor = (r.sample rate first).actor := by
    rw [play_actor, sample_actor]
  have hgoes := keyAll_congr hactor (play_emittedYaw rate first r) (play_transform rate first r)
    (fun _ => p) (List.range' (first.lastFrame rate)
      (second.lastFrame rate + 1 - first.lastFrame rate))
  have hkeyed := keyAll_keyAll hr (fun _ => p) hle₁ (hmeet.ge.trans hle₂)
  simp only [sample_eq_keyAll, hwhole, hfirst, hsecond, hbegin, hmeet, hend] at hgoes hkeyed ⊢
  rw [hkeyed] at hgoes
  exact hgoes

/-- A stay may be split: its second part goes on with the clip of the first. -/
theorem hold_hold (hr : OnTime rate r) (ha : Animated rate r) (hfps : 0 < rate.fps)
    (h₁ : 0 ≤ d₁) (h₂ : 0 ≤ d₂) (clip : Option (Clip ℝ)) :
    Recounted (r.hold rate (d₁ + d₂) clip) ((r.hold rate d₁ clip).hold rate d₂ none) := by
  let whole : Span ℝ := ⟨r.cursor, d₁ + d₂, fun _ => r.pose, clip⟩
  let first : Span ℝ := ⟨r.cursor, d₁, fun _ => r.pose, clip⟩
  let second : Span ℝ := ⟨r.cursor + d₁, d₂, fun _ => r.pose, none⟩
  have hparts : (r.hold rate d₁ clip).hold rate d₂ none =
      (r.play rate first).play rate second := by
    unfold Run.hold
    rw [play_pose, play_cursor]
  have hcursor : r.cursor + d₁ + d₂ = r.cursor + (d₁ + d₂) := add_assoc _ _ _
  have hend : whole.lastFrame rate = second.lastFrame rate := congrArg rate.frameAt hcursor.symm
  have hle₁ : first.firstFrame rate ≤ first.lastFrame rate :=
    frameAt_mono hfps (le_add_of_nonneg_right h₁)
  have hle₂ : second.firstFrame rate ≤ second.lastFrame rate :=
    frameAt_mono hfps (le_add_of_nonneg_right h₂)
  obtain ⟨hyaw, htrack⟩ :=
    sample_play_still whole first second hr.filled.ordered (p := r.pose) rfl rfl rfl rfl rfl hend
      hle₁ hle₂
  have hanimation : ((r.play rate first).play rate second).animation =
      (r.play rate whole).animation := by
    rw [play_animation, play_animation, play_animation, play_clip]
    dsimp only [first, second, whole]
    rw [Option.none_or]
    cases clip.or r.clip with
    | none => rfl
    | some c =>
      dsimp only
      rw [hend]
      exact ha.leads.extendOrPush_extendOrPush hle₁ hle₂ c
  have hclip : ((r.play rate first).play rate second).clip = (r.play rate whole).clip := by
    rw [play_clip, play_clip, play_clip]
    exact Option.none_or
  rw [hparts]
  change Recounted (r.play rate whole) _
  refine ⟨?_⟩
  unfold Run.uncounted
  simp only [play_actor, play_pose, play_emittedYaw, play_cursor, play_lane, play_parked,
    play_transform, hyaw, htrack, hclip, hanimation]
  dsimp only [whole, first, second]
  rw [hcursor]

end Holding

section Commands

variable {m : Movie ℝ} {o : PlanOptions ℝ} {s : Session ℝ} {r : Run ℝ} {actor : String}
  {clip : Option (Clip ℝ)} {d d₁ d₂ : TimeSpan ℝ} {l l' : List (Step ℝ)}

/-- What a stay for some time makes of a session in which its actor is free. -/
lemma command_lasting (hrun : s.run actor = .ok r) (hfree : r.parked = none)
    (clip : Option (Clip ℝ)) (hd : 0 ≤ d.internal) :
    ∃ reports, Session.command actor s (.stay ⟨.lasting d, clip⟩) =
      .ok { s.setRun ({ r with nextIndex := r.nextIndex + 1 }.hold s.movie.fps d.internal clip) with
        diagnostics := reports } := by
  rw [← stay_lasting hd]
  exact ⟨_, command_eq hrun hfree _⟩

/-- The runs of a session may stay in two parts, each of them counted. -/
lemma Follows.hold_parts (hv : Valid m) (hs : Follows (Session.start m o) s) (hr : r ∈ s.runs)
    {t₁ t₂ : ℝ} (h₁ : 0 ≤ t₁) (h₂ : 0 ≤ t₂) (clip : Option (Clip ℝ)) (index index' : ℕ) :
    Recounted ({ r with nextIndex := index }.hold s.movie.fps (t₁ + t₂) clip)
      ({ ({ r with nextIndex := index }.hold s.movie.fps t₁ clip) with
        nextIndex := index' }.hold s.movie.fps t₂ none) := by
  have hrate : s.movie.fps = m.fps := congrArg Movie.fps hs.movie_eq
  have ha : Advances m.fps (Run.start r.actor) { r with nextIndex := index } :=
    (hs.advances_start hr).trans (note_advances r.lane index)
  have hsplit := hold_hold ((onTime_start r.actor).advances hv.rate_pos ha)
    ((start_animated r.actor).advances hv.rate_pos ha) hv.rate_pos h₁ h₂ clip
  rw [← hrate] at hsplit
  have hcount : Recounted ({ r with nextIndex := index }.hold s.movie.fps t₁ clip)
      { ({ r with nextIndex := index }.hold s.movie.fps t₁ clip) with nextIndex := index' } := ⟨rfl⟩
  exact hsplit.trans (hcount.hold s.movie.fps t₂ none)

/-- A session may be told to stay in two parts. -/
theorem command_split (hv : Valid m) (hs : Follows (Session.start m o) s) (actor : String)
    (clip : Option (Clip ℝ)) (hd : d.internal = d₁.internal + d₂.internal) (h₁ : 0 ≤ d₁.internal)
    (h₂ : 0 ≤ d₂.internal) :
    Matches Recounts (Session.command actor s (.stay ⟨.lasting d, clip⟩))
      (Session.command actor s (.stay ⟨.lasting d₁, clip⟩) >>=
        (Session.command actor · (.stay ⟨.lasting d₂, none⟩))) := by
  cases hrun : s.run actor with
  | error e =>
    have hfail : ∀ c, Session.command actor s c = .error e :=
      fun c => bind_eq_error.mpr (Or.inl hrun)
    rw [hfail, hfail]
    exact .error _ _
  | ok r =>
    obtain ⟨hr, rfl⟩ := run_ok hrun
    by_cases hfree : r.parked = none
    · let first : Run ℝ := { r with nextIndex := r.nextIndex + 1 }.hold s.movie.fps d₁.internal clip
      let second : Run ℝ :=
        { first with nextIndex := first.nextIndex + 1 }.hold s.movie.fps d₂.internal none
      have hname : first.actor.name = r.actor.name := congrArg Actor.name (play_actor _ _ _)
      have hname' : second.actor.name = first.actor.name := congrArg Actor.name (play_actor _ _ _)
      have hrun₁ : (s.setRun first).run r.actor.name = .ok first :=
        run_setRun (hs.runNames_nodup hv) hr hname
      have hfree₁ : first.parked = none := (play_parked _ _ _).trans hfree
      obtain ⟨reports, hwhole⟩ :=
        command_lasting hrun hfree clip (hd.ge.trans' (add_nonneg h₁ h₂))
      obtain ⟨reports₁, hfirst⟩ := command_lasting hrun hfree clip h₁
      obtain ⟨reports₂, hsecond⟩ := command_lasting
        (s := { s.setRun first with diagnostics := reports₁ }) hrun₁ hfree₁ none h₂
      have hset := (Recounts.refl s).setRun
        (hs.hold_parts hv hr h₁ h₂ clip (r.nextIndex + 1) (first.nextIndex + 1))
      rw [← hd, ← setRun_setRun hname'] at hset
      rw [hwhole, bind_of_ok hfirst, hsecond]
      exact .ok (hset.reported ⟨_, rfl⟩ ⟨_, rfl⟩)
    · have hfail : ∀ c, Session.command r.actor.name s c = .error (.afterTillEnd _ r.nextIndex) :=
        fun c => command_parked hrun hfree c
      rw [hfail, hfail]
      exact .error _ _

end Commands

section Scripts

variable {m : Movie ℝ} {o : PlanOptions ℝ} {script : List (Block ℝ)} {b b' : Block ℝ}
  {commands commands' : List (Command ℝ)} {l l' : List (Step ℝ)}

/-- One of some commands is a stay for some time, which others are told in two parts, the second
without a clip. -/
inductive SplitCommands : List (Command ℝ) → List (Command ℝ) → Prop
  | stay (before after : List (Command ℝ)) (clip : Option (Clip ℝ)) {d d₁ d₂ : TimeSpan ℝ}
    (hd : d.internal = d₁.internal + d₂.internal) (h₁ : 0 ≤ d₁.internal) (h₂ : 0 ≤ d₂.internal) :
    SplitCommands (before ++ .stay ⟨.lasting d, clip⟩ :: after)
      (before ++ .stay ⟨.lasting d₁, clip⟩ :: .stay ⟨.lasting d₂, none⟩ :: after)

/-- The stay stands in a sequence of an actor, or in a member of a group. -/
inductive SplitBlock : Block ℝ → Block ℝ → Prop
  | actor (name : String) {commands commands' : List (Command ℝ)}
    (h : SplitCommands commands commands') :
    SplitBlock (.actor ⟨name, commands⟩) (.actor ⟨name, commands'⟩)
  | member (before after : List (Block ℝ)) {b b' : Block ℝ} (h : SplitBlock b b') :
    SplitBlock (.simultaneous (before ++ b :: after)) (.simultaneous (before ++ b' :: after))

/-- Two scripts differ in a stay that is told in two parts. -/
inductive SplitScript : List (Block ℝ) → List (Block ℝ) → Prop
  | block (front rest : List (Block ℝ)) {b b' : Block ℝ} (h : SplitBlock b b') :
    SplitScript (front ++ b :: rest) (front ++ b' :: rest)

/-- Steps that differ at most in a stay that is told in two parts. -/
inductive SplitSteps : List (Step ℝ) → List (Step ℝ) → Prop
  | same (steps : List (Step ℝ)) : SplitSteps steps steps
  | stay (front rest : List (Step ℝ)) (actor : String) (clip : Option (Clip ℝ))
    {d d₁ d₂ : TimeSpan ℝ} (hd : d.internal = d₁.internal + d₂.internal) (h₁ : 0 ≤ d₁.internal)
    (h₂ : 0 ≤ d₂.internal) :
    SplitSteps (front ++ .command actor (.stay ⟨.lasting d, clip⟩) :: rest)
      (front ++ .command actor (.stay ⟨.lasting d₁, clip⟩) ::
        .command actor (.stay ⟨.lasting d₂, none⟩) :: rest)

lemma SplitSteps.among (h : SplitSteps l l') (front rest : List (Step ℝ)) :
    SplitSteps (front ++ l ++ rest) (front ++ l' ++ rest) := by
  cases h with
  | same => exact .same _
  | stay front' rest' actor clip hd h₁ h₂ =>
    have hstay := SplitSteps.stay (front ++ front') (rest' ++ rest) actor clip hd h₁ h₂
    simpa only [List.append_assoc, List.cons_append] using hstay

lemma SplitCommands.steps (h : SplitCommands commands commands') (actor : String) :
    SplitSteps (commands.map (.command actor)) (commands'.map (.command actor)) := by
  cases h with
  | stay before after clip hd h₁ h₂ =>
    simp only [List.map_append, List.map_cons]
    exact .stay _ _ actor clip hd h₁ h₂

lemma SplitBlock.memberSteps (h : SplitBlock b b') :
    SplitSteps (memberSteps b) (memberSteps b') := by
  cases h with
  | actor name h =>
    have hsteps := (h.steps name).among [.joinActor name, .call name] []
    rwa [List.append_nil, List.append_nil] at hsteps
  | member before after h => exact .same _

lemma SplitBlock.blockSteps (h : SplitBlock b b') : SplitSteps (blockSteps b) (blockSteps b') := by
  cases h with
  | actor name h =>
    have hsteps := (h.steps name).among [.call name] []
    rwa [List.append_nil, List.append_nil] at hsteps
  | member before after h =>
    have hsteps := h.memberSteps.among (.gather :: before.flatMap Proofs.memberSteps)
      (after.flatMap Proofs.memberSteps)
    simpa only [Proofs.blockSteps, List.flatMap_append, List.flatMap_cons, List.append_assoc,
      List.cons_append] using hsteps

lemma SplitScript.steps (h : SplitScript m.script script) :
    SplitSteps (scriptSteps m) (scriptSteps { m with script := script }) := by
  unfold scriptSteps
  generalize m.script = original at h
  cases h with
  | block front rest h =>
    have hsteps := h.blockSteps.among (front.flatMap Proofs.blockSteps)
      (rest.flatMap Proofs.blockSteps)
    simpa only [List.flatMap_append, List.flatMap_cons, List.append_assoc] using hsteps

/-- From one stage on, the steps of both scripts go on alike. -/
lemma SplitSteps.perform (h : SplitSteps l l') (hv : Valid m) (st : Stage ℝ)
    (hst : Follows (Session.start m o) st.session) :
    Matches RecountedStages (l.foldlM perform st) (l'.foldlM perform st) := by
  cases h with
  | same => exact .refl .refl _
  | stay front rest actor clip hd h₁ h₂ =>
    rw [List.foldlM_append, List.foldlM_append]
    refine .bind_same fun st₁ hfront => ?_
    have hfollows := hst.trans (steps_follow hv hst hfront)
    simp only [List.foldlM_cons, Proofs.perform, bind_assoc, pure_bind]
    rw [← bind_assoc]
    refine (command_split hv hfollows actor clip hd h₁ h₂).bind fun s s' hs => ?_
    exact .foldlM (fun _ _ step hst => hst.perform step) rest ⟨hs, rfl⟩

/-- The walks of both scripts. -/
theorem SplitScript.walk (h : SplitScript m.script script) (hv : Valid m) (o : PlanOptions ℝ) :
    Matches Recounts (walk o m) (walk o { m with script := script }) := by
  have hsteps := h.steps.perform hv ⟨Session.start m o, 0⟩ (.refl _)
  have hstart : RecountedStages ⟨Session.start m o, 0⟩
      ⟨Session.start { m with script := script } o, 0⟩ :=
    ⟨⟨rfl, rfl, rfl, rfl, List.forall₂_same.mpr fun r _ => .refl r⟩, rfl⟩
  have hscript : Matches RecountedStages
      ((scriptSteps { m with script := script }).foldlM perform ⟨Session.start m o, 0⟩) _ :=
    .foldlM (fun _ _ step hst => hst.perform step) _ hstart
  rw [walk_eq_steps o m 0, walk_eq_steps o { m with script := script } 0]
  exact (hsteps.trans RecountedStages.trans hscript).map fun _ _ hst => hst.recounts

end Scripts

section Checks

variable {m : Movie ℝ} {script : List (Block ℝ)} {b b' : Block ℝ}

/-- What a movie asks of a sequence does not tell the parts of a stay from the whole. -/
lemma SplitBlock.passes_iff (h : SplitBlock b b') :
    m.sequenceIssues [] b' = [] ↔ m.sequenceIssues [] b = [] := by
  cases h with
  | actor name h =>
    cases h with
    | stay before after clip hd h₁ h₂ =>
      have hpass : ∀ d clip, m.commandIssues name 0 (.stay ⟨.lasting d, clip⟩) = [] :=
        fun _ _ => rfl
      simp only [sequenceIssues_actor_nil_iff, List.forall_mem_append, List.forall_mem_cons, hpass,
        true_and]
  | member => exact Iff.rfl

lemma SplitBlock.entity?_eq (h : SplitBlock b b') : b'.entity? = b.entity? := by
  cases h with
  | actor | member => rfl

lemma SplitBlock.flatten_iff (h : SplitBlock b b') :
    (∀ q ∈ b'.flatten, m.sequenceIssues [] q = []) ↔
      ∀ q ∈ b.flatten, m.sequenceIssues [] q = [] := by
  cases h with
  | actor name h => simpa [Block.flatten] using (SplitBlock.actor name h).passes_iff
  | member before after h =>
    simp only [Block.flatten, List.forall_mem_append, List.forall_mem_cons, h.passes_iff]

lemma SplitScript.sequences_iff (h : SplitScript m.script script) :
    (∀ q ∈ ({ m with script := script } : Movie ℝ).sequences, m.sequenceIssues [] q = []) ↔
      ∀ q ∈ m.sequences, m.sequenceIssues [] q = [] := by
  unfold Movie.sequences
  dsimp only
  generalize m.script = original at h
  cases h with
  | block front rest h =>
    simp only [List.flatMap_append, List.flatMap_cons, List.forall_mem_append, h.flatten_iff]

lemma SplitBlock.group_iff (h : SplitBlock b b') :
    (∀ members, b' = .simultaneous members → Movie.memberIssues 0 [] members = []) ↔
      ∀ members, b = .simultaneous members → Movie.memberIssues 0 [] members = [] := by
  cases h with
  | actor => exact iff_of_true nofun nofun
  | @member before after b b' h =>
    have hentities : (before ++ b' :: after).map Block.entity? =
        (before ++ b :: after).map Block.entity? := by
      simp only [List.map_append, List.map_cons, h.entity?_eq]
    constructor
    · rintro hpass _ ⟨⟩
      exact memberIssues_nil_of_perm (.of_eq hentities) (hpass _ rfl)
    · rintro hpass _ ⟨⟩
      exact memberIssues_nil_of_perm (.of_eq hentities.symm) (hpass _ rfl)

lemma SplitScript.groups_iff (h : SplitScript m.script script) :
    ({ m with script := script } : Movie ℝ).groupIssues = [] ↔ m.groupIssues = [] := by
  rw [groupIssues_nil_iff, groupIssues_nil_iff]
  dsimp only
  generalize m.script = original at h
  cases h with
  | block front rest h =>
    simp only [List.forall_mem_append, List.forall_mem_cons, h.group_iff]

lemma forall_mem_dropLast_cons {α : Type} {p : α → Prop} {a : α} (ha : p a) (l : List α) :
    (∀ x ∈ (a :: l).dropLast, p x) ↔ ∀ x ∈ l.dropLast, p x := by
  cases l with
  | nil => simp
  | cons b l => rw [List.dropLast_cons_cons, List.forall_mem_cons, and_iff_right ha]

/-- A stay to the end is as late among the steps of both scripts. -/
lemma SplitSteps.open_iff {l l' : List (Step ℝ)} (h : SplitSteps l l') (name : String) :
    (∀ c ∈ (commandsIn name l').dropLast, c.isTillEnd = false) ↔
      ∀ c ∈ (commandsIn name l).dropLast, c.isTillEnd = false := by
  cases h with
  | same => exact Iff.rfl
  | stay front rest actor clip hd h₁ h₂ =>
    have hopen : ∀ (d : TimeSpan ℝ) clip,
        (Command.stay ⟨.lasting d, clip⟩ : Command ℝ).isTillEnd = false := fun _ _ => rfl
    rw [commandsIn_append, commandsIn_append]
    by_cases hactor : actor = name
    · subst hactor
      have hcons : ∀ (c : Command ℝ) steps,
          commandsIn actor (.command actor c :: steps) = c :: commandsIn actor steps :=
        fun c steps => commandsIn_split [] steps c
      simp only [hcons, List.dropLast_append_cons, List.forall_mem_append,
        forall_mem_dropLast_cons (p := fun c : Command ℝ => c.isTillEnd = false) (hopen _ _)]
    · have hcons : ∀ (c : Command ℝ) steps,
          commandsIn name (.command actor c :: steps) = commandsIn name steps := by
        simp [commandsIn, hactor]
      rw [hcons, hcons, hcons]

lemma SplitScript.ends_iff (h : SplitScript m.script script) (a : Actor ℝ) :
    ({ m with script := script } : Movie ℝ).tillEndIssues a = [] ↔ m.tillEndIssues a = [] := by
  rw [tillEndIssues_nil_iff_dropLast, tillEndIssues_nil_iff_dropLast, ← commandsIn_scriptSteps,
    ← commandsIn_scriptSteps]
  exact h.steps.open_iff a.name

/-- Both scripts pass the same checks. -/
theorem SplitScript.issues_nil_iff (h : SplitScript m.script script) :
    ({ m with script := script } : Movie ℝ).issues = [] ↔ m.issues = [] := by
  have hscript : ({ m with script := script } : Movie ℝ).scriptIssues []
      ({ m with script := script } : Movie ℝ).sequences = [] ↔
        m.scriptIssues [] m.sequences = [] := by
    have hsequence : ({ m with script := script } : Movie ℝ).sequenceIssues = m.sequenceIssues :=
      sequenceIssues_congr rfl
    rw [scriptIssues_nil_iff, scriptIssues_nil_iff, hsequence]
    exact h.sequences_iff
  simp only [Movie.issues, List.append_eq_nil_iff, List.flatMap_eq_nil_iff, h.groups_iff, hscript,
    h.ends_iff]
  exact Iff.rfl

end Checks

section Plans

variable {m : Movie ℝ} {o : PlanOptions ℝ} {script : List (Block ℝ)}

/-- A stay may be told in two parts: there is a plan as before, and it plays back the same. -/
theorem plan_split_stay (h : SplitScript m.script script) (o : PlanOptions ℝ) :
    ((∃ reel, m.plan o = .ok reel) ↔
      ∃ reel', ({ m with script := script } : Movie ℝ).plan o = .ok reel') ∧
    ∀ reel reel', m.plan o = .ok reel →
      ({ m with script := script } : Movie ℝ).plan o = .ok reel' → SamePlayback reel reel' := by
  have hplans : Matches SamePlayback (m.plan o)
      (({ m with script := script } : Movie ℝ).plan o) := by
    by_cases hpass : m.issues = []
    · exact plan_samePlayback hpass (h.issues_nil_iff.mpr hpass)
        (h.walk (valid_of_issues_nil hpass) o)
    · rw [plan_invalid hpass, plan_invalid (mt h.issues_nil_iff.mp hpass)]
      exact .error _ _
  refine ⟨hplans.exists_ok_iff, ?_⟩
  intro reel reel' hreel hreel'
  rw [hreel, hreel'] at hplans
  exact hplans.rel

end Plans

section Halves

/-- The script of `warmup` with half a second to begin with, and another that does not say which
clip goes on. -/
noncomputable def warmupHalved : List (Block ℝ) :=
  [.actor ⟨"A", [.stay ⟨.lasting (.seconds 0.5), some jog⟩, .stay ⟨.lasting (.seconds 0.5), none⟩]⟩,
    .actor ⟨"A", [.stay ⟨.lasting (.seconds 1), none⟩]⟩]

theorem warmup_split_stay : SplitScript warmup.script warmupHalved ∧ ∃ reel reel',
    warmup.plan Settings.standard.options = .ok reel ∧
    { warmup with script := warmupHalved }.plan Settings.standard.options = .ok reel' ∧
    SamePlayback reel reel' := by
  have hhalf : (0 : ℝ) ≤ (TimeSpan.seconds 0.5 : TimeSpan ℝ).internal := by
    rw [seconds_real]
    norm_num
  have hwhole : (TimeSpan.seconds 1 : TimeSpan ℝ).internal =
      (TimeSpan.seconds 0.5 : TimeSpan ℝ).internal +
        (TimeSpan.seconds 0.5 : TimeSpan ℝ).internal := by
    rw [seconds_real, seconds_real]
    norm_num
  have hsplit : SplitScript warmup.script warmupHalved :=
    .block [] _ (.actor "A" (.stay [] [] (some jog) hwhole hhalf hhalf))
  obtain ⟨hplans, hsame⟩ := plan_split_stay hsplit Settings.standard.options
  obtain ⟨s, r, _, _, hwalk, halone, -⟩ := warmup_walk (o := Settings.standard.options)
  obtain ⟨reel, _, hreel, -⟩ := halone.plan warmup_issues rfl hwalk
  obtain ⟨reel', hreel'⟩ := hplans.mp ⟨reel, hreel⟩
  exact ⟨hsplit, reel, reel', hreel, hreel', hsame reel reel' hreel hreel'⟩

end Halves

end Stagecraft.Proofs
