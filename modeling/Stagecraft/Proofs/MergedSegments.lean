import Stagecraft.Proofs.PlayedClips

/-!
# Merged segments

A clip that goes on prolongs the segment that was last, so that segments begin just where the clip
changes. Two segments in a row still play one clip where another interrupts it within a frame: its
own segment gives way to what is resumed, and that is not looked at again.
-/

namespace Stagecraft.Proofs

section Segments

variable {t : AnimationTrack ℝ} {segments front rest : List (Segment ℝ)} {a : Segment ℝ}
  {clip : Option (Clip ℝ)} {c : Clip ℝ} {n m f k : ℕ}

/-- Segments that meet play different clips. -/
def Merged (segments : List (Segment ℝ)) : Prop :=
  segments.IsChain fun a b => a.endFrame = b.startFrame → a.clip ≠ b.clip

/-- Two segments in a row meet at a frame with one clip. -/
def SplitAt (segments : List (Segment ℝ)) (n : ℕ) : Prop :=
  ∃ front a b rest, segments = front ++ a :: b :: rest ∧ a.endFrame = n ∧ b.startFrame = n ∧
    a.clip = b.clip

lemma merged_iff : Merged segments ↔ ∀ n, ¬SplitAt segments n := by
  unfold Merged
  rw [List.isChain_iff_forall_rel_of_append_cons_cons]
  constructor
  · rintro h n ⟨front, a, b, rest, hsegments, hend, hstart, hclip⟩
    exact h hsegments (hend.trans hstart.symm) hclip
  · intro h a b front rest hsegments hmeet hclip
    exact h a.endFrame ⟨front, a, b, rest, hsegments, rfl, hmeet.symm, hclip⟩

/-- Some segment begins at a frame. -/
def BeginsAt (segments : List (Segment ℝ)) (k : ℕ) : Prop :=
  ∃ a ∈ segments, a.startFrame = k

lemma beginsAt_append : BeginsAt (front ++ rest) k ↔ BeginsAt front k ∨ BeginsAt rest k := by
  simp [BeginsAt, or_and_right, exists_or]

lemma beginsAt_singleton : BeginsAt [a] k ↔ a.startFrame = k := by
  simp [BeginsAt]

/-- A segment begins where a clip starts that was not playing. -/
lemma LeadsTo.beginsAt_extendOrPush (h : LeadsTo t.keys.toList clip n) (hle : n ≤ m) :
    BeginsAt (t.extendOrPush ⟨n, m, c⟩).keys.toList k ↔
      BeginsAt t.keys.toList k ∨ n = k ∧ clip ≠ some c := by
  have hlast := h.last_eq
  rcases List.eq_nil_or_concat' t.keys.toList with hnil | ⟨front, a, hconcat⟩
  · rw [hnil, List.getLast?_nil, Option.map_none, eq_comm, Option.map_eq_none_iff] at hlast
    rw [extendOrPush_nil hnil, hnil, hlast]
    simp [BeginsAt]
  have hclip : clip = some a.clip := by
    rw [hconcat, List.getLast?_concat, Option.map_some, eq_comm, Option.map_eq_some_iff] at hlast
    obtain ⟨c', rfl, hc'⟩ := hlast
    cases hc'
    rfl
  have hend : a.endFrame = n := h.end_eq (by simp [hconcat])
  have htiled := h.tiled
  rw [hconcat] at htiled
  obtain ⟨-, hordered, hbehind, -⟩ := tiled_concat_iff.mp htiled
  rw [hclip, ne_eq, Option.some.injEq]
  by_cases hsame : a.clip = c
  · rw [extendOrPush_same hconcat (q := ⟨n, m, c⟩) hsame hend.ge, hconcat]
    simp [beginsAt_append, beginsAt_singleton, hsame]
  rw [extendOrPush_other hconcat (q := ⟨n, m, c⟩) hsame]
  rcases (hordered.trans_eq hend).lt_or_eq with hlt | heq
  · rw [push_behind hconcat hlt, List.append_cons, ← hconcat, beginsAt_append, beginsAt_singleton]
    simp [hsame]
  · -- The segment that gives way began at the same frame.
    have hfront : ∀ b ∈ front, b.startFrame < n := fun b hb => (hbehind b hb).trans_eq heq
    rw [push_over hconcat heq hfront, hconcat]
    simp only [beginsAt_append, beginsAt_singleton, heq]
    tauto

lemma clipAt_of_behind (hle : a.startFrame ≤ f ∧ f ≤ a.endFrame)
    (hrest : ∀ b ∈ rest, f < b.startFrame) : clipAt (front ++ a :: rest) f = some a.clip := by
  induction rest using List.reverseRecOn with
  | nil => rw [clipAt_concat, if_pos hle]
  | append_singleton rest b ih =>
    have hb : ¬(b.startFrame ≤ f ∧ f ≤ b.endFrame) := fun h =>
      absurd h.1 (not_le.mpr (hrest b (by simp)))
    rw [← List.cons_append, ← List.append_assoc, clipAt_concat, if_neg hb]
    exact ih fun q hq => hrest q (by simp [hq])

lemma clipAt_eq_none (h : ∀ b ∈ segments, f < b.startFrame) : clipAt segments f = none := by
  unfold clipAt
  rw [Option.map_eq_none_iff, List.find?_eq_none]
  intro b hb
  have hlt := h b (List.mem_reverse.mp hb)
  simp only [Bool.and_eq_true, decide_eq_true_eq]
  omega

/-- Where two segments meet at a frame, each shows its clip: the one just before the frame, and the
other at it. -/
lemma Tiled.clipAt_meeting {b : Segment ℝ} (h : Tiled (front ++ a :: b :: rest)) :
    a.endFrame = b.startFrame ∧ 0 < b.startFrame ∧
      clipAt (front ++ a :: b :: rest) (b.startFrame - 1) = some a.clip ∧
      clipAt (front ++ a :: b :: rest) b.startFrame = some b.clip := by
  obtain ⟨hincreasing, hordered, hjoined⟩ := h
  obtain ⟨-, hpairs, -⟩ := List.pairwise_append.mp hincreasing
  rw [List.pairwise_cons, List.pairwise_cons] at hpairs
  obtain ⟨ha, hb, -⟩ := hpairs
  have hlt : a.startFrame < b.startFrame := ha b List.mem_cons_self
  have hmeet : b.startFrame = a.endFrame := (List.isChain_append_cons_cons.mp hjoined).2.1
  refine ⟨hmeet.symm, by omega, ?_, ?_⟩
  · apply clipAt_of_behind
    · omega
    · intro q hq
      rcases List.mem_cons.mp hq with rfl | hq
      · omega
      · have hq := hb q hq
        omega
  · rw [List.append_cons]
    exact clipAt_of_behind ⟨le_rfl, hordered b (by simp)⟩ hb

/-- Segments meet with one clip where one begins though the clip shown there was shown before. -/
lemma Tiled.splitAt_iff (h : Tiled segments) : SplitAt segments n ↔
    0 < n ∧ (∃ c, clipAt segments (n - 1) = some c ∧ clipAt segments n = some c) ∧
      BeginsAt segments n := by
  constructor
  · rintro ⟨front, a, b, rest, rfl, -, rfl, hclip⟩
    obtain ⟨-, hpos, hbefore, hat⟩ := h.clipAt_meeting
    rw [hclip] at hbefore
    exact ⟨hpos, ⟨b.clip, hbefore, hat⟩, b, by simp, rfl⟩
  · rintro ⟨hpos, ⟨c, hbefore, hat⟩, b, hb, rfl⟩
    obtain ⟨front, rest, rfl⟩ := List.append_of_mem hb
    rcases List.eq_nil_or_concat' front with rfl | ⟨front, a, rfl⟩
    · -- Nothing is shown before the first segment.
      have hrest := (List.pairwise_cons.mp h.increasing).1
      have hnone : clipAt ([] ++ b :: rest) (b.startFrame - 1) = none := by
        apply clipAt_eq_none
        intro q hq
        rcases List.mem_cons.mp hq with rfl | hq
        · omega
        · have hq := hrest q hq
          omega
      rw [hnone] at hbefore
      cases hbefore
    · rw [← List.append_cons] at h hbefore hat ⊢
      obtain ⟨hmeet, -, hbefore', hat'⟩ := h.clipAt_meeting
      rw [hbefore', Option.some.injEq] at hbefore
      rw [hat', Option.some.injEq] at hat
      exact ⟨front, a, b, rest, rfl, hmeet, rfl, hbefore.trans hat.symm⟩

end Segments

section Runs

variable {rate : FrameRate ℝ} {s : Span ℝ} {spans : List (Span ℝ)} {r r' : Run ℝ} {n k : ℕ}

/-- Some span, of those given latest first, begins at a frame and changes the clip. -/
def ChangesAt (rate : FrameRate ℝ) (spans : List (Span ℝ)) (k : ℕ) : Prop :=
  ∃ later s earlier, spans = later ++ s :: earlier ∧ s.firstFrame rate = k ∧
    currentClip (s :: earlier) ≠ currentClip earlier

lemma changesAt_cons : ChangesAt rate (s :: spans) k ↔
    ChangesAt rate spans k ∨
      s.firstFrame rate = k ∧ currentClip (s :: spans) ≠ currentClip spans := by
  constructor
  · rintro ⟨_ | ⟨q, later⟩, s', earlier, hspans, hfirst, hother⟩
    · cases hspans
      exact Or.inr ⟨hfirst, hother⟩
    · cases hspans
      exact Or.inl ⟨later, s', earlier, rfl, hfirst, hother⟩
  · rintro (⟨later, s', earlier, rfl, hfirst, hother⟩ | ⟨hfirst, hother⟩)
    · exact ⟨s :: later, s', earlier, rfl, hfirst, hother⟩
    · exact ⟨[], s, spans, rfl, hfirst, hother⟩

/-- A clip is changed within a frame and back again: the frame shows what the one before it
does. -/
structure InterruptedAt (rate : FrameRate ℝ) (spans : List (Span ℝ)) (n : ℕ) : Prop where
  pos : 0 < n
  resumed : ∃ c, shownClip rate (n - 1) spans = some c ∧ shownClip rate n spans = some c
  changes : ChangesAt rate spans n

/-- The segments of a run begin where its spans change the clip. -/
def Begun (rate : FrameRate ℝ) (r : Run ℝ) : Prop :=
  ∀ k, BeginsAt r.animation.keys.toList k ↔ ChangesAt rate r.spans k

lemma start_begun (a : Actor ℝ) : Begun rate (Run.start a) := by
  intro k
  constructor
  · rintro ⟨q, hq, -⟩
    exact absurd hq List.not_mem_nil
  · rintro ⟨later, s, earlier, hspans, -⟩
    exact absurd hspans.symm (List.append_ne_nil_of_right_ne_nil later (List.cons_ne_nil s earlier))

lemma Begun.play (hb : Begun rate r) (h : Animated rate r) (hfps : 0 < rate.fps)
    (hstart : s.start = r.cursor) (hduration : 0 ≤ s.duration) : Begun rate (r.play rate s) := by
  obtain ⟨hfirst, -, hle⟩ := frames_of_start hfps hstart hduration
  have hcurrent : currentClip (s :: r.spans) = s.clip.or r.clip := by
    rw [h.clip_eq]
    rfl
  have hleads := h.leads
  rw [← hfirst] at hleads
  intro k
  rw [play_spans, changesAt_cons, hcurrent, ← h.clip_eq, play_animation]
  cases hclip : s.clip.or r.clip with
  | none =>
    have hnone := (Option.or_eq_none_iff.mp hclip).2
    simp [hb k, hnone]
  | some c =>
    dsimp only
    rw [hleads.beginsAt_extendOrPush hle, hb k, ne_comm]

lemma Begun.advances (hb : Begun rate r) (h : Animated rate r) (hfps : 0 < rate.fps)
    (ha : Advances rate r r') : Begun rate r' := by
  induction ha with
  | refl => exact hb
  | tail hq hstep ih =>
    cases hstep with
    | play s hstart hduration => exact ih.play (h.advances hfps hq) hfps hstart hduration
    | note lane index parked hparked => exact ih

lemma Animated.splitAt_iff (h : Animated rate r) (hb : Begun rate r) :
    SplitAt r.animation.keys.toList n ↔ InterruptedAt rate r.spans n := by
  rw [h.leads.tiled.splitAt_iff, h.shown, h.shown, hb n]
  exact ⟨fun ⟨hpos, hsame, hchanges⟩ => ⟨hpos, hsame, hchanges⟩,
    fun hat => ⟨hat.pos, hat.resumed, hat.changes⟩⟩

end Runs

section Plans

variable {m : Movie ℝ} {o : PlanOptions ℝ} {reel : Reel ℝ}

lemma played_begun (hv : Valid m) {last : ℕ} {s : Session ℝ} (h : played o m = .ok (last, s)) :
    ∀ r ∈ s.runs, Begun m.fps r := by
  intro r hr
  exact (start_begun r.actor).advances (start_animated r.actor) hv.rate_pos
    ((played_follows hv h).advances_start hr)

/-- The segments of an actor are merged, but where a clip is interrupted within a frame. -/
theorem plan_merges_segments (h : m.plan o = .ok reel) :
    ∃ s, played o m = .ok (reel.lastFrame, s) ∧ s.runs.map Run.actor = m.actors ∧
      List.Forall₂ (fun (r : Run ℝ) (a : ActorReel ℝ) => a.actor = r.actor ∧
        Executed (m.commandsFor r.actor.name) r.spans r.cursor ∧
        (∀ n, SplitAt a.animation.keys.toList n ↔ InterruptedAt m.fps r.spans n) ∧
        (Merged a.animation.keys.toList ↔ ∀ n, ¬InterruptedAt m.fps r.spans n))
        s.runs reel.actors := by
  have hv := valid_of_issues_nil (issues_nil_of_plan h)
  obtain ⟨s, hplayed, hactors, -, hreels⟩ := plan_actors h
  refine ⟨s, hplayed, hactors, hreels.imp ?_⟩
  rintro r _ ⟨hr, rfl⟩
  have hsplit (n : ℕ) : SplitAt r.animation.keys.toList n ↔ InterruptedAt m.fps r.spans n :=
    (played_animated hv hplayed r hr).splitAt_iff (played_begun hv hplayed r hr)
  refine ⟨rfl, played_executed hv hplayed r hr, hsplit, ?_⟩
  rw [merged_iff]
  exact forall_congr' fun n => not_congr (hsplit n)

end Plans

section Hiccup

variable {o : PlanOptions ℝ}

noncomputable def walkClip : Clip ℝ := Clip.named "Walk"

/-- Two seconds of a clip, with another in between that takes no time. -/
noncomputable def hiccup : Movie ℝ :=
  solo "hiccup" [.stay ⟨.lasting (.seconds 1), some jog⟩,
    .stay ⟨.lasting (.seconds 0), some walkClip⟩, .stay ⟨.lasting (.seconds 1), some jog⟩]

lemma hiccup_issues : hiccup.issues = [] := by
  apply solo_issues
  simp only [List.forall_mem_cons]
  exact ⟨⟨fun _ _ => rfl, rfl⟩, ⟨fun _ _ => rfl, rfl⟩, ⟨fun _ _ => rfl, rfl⟩,
    fun _ hc => absurd hc List.not_mem_nil⟩

lemma hiccup_walk : ∃ s a pose pose' pose'', walk o hiccup = .ok s ∧ Alone hiccup o s a ∧
    a.spans = [⟨1, 1, fun _ => pose'', some jog⟩, ⟨1, 0, fun _ => pose', some walkClip⟩,
      ⟨0, 1, fun _ => pose, some jog⟩] := by
  have hv : Valid hiccup := valid_of_issues_nil hiccup_issues
  have hstart : (Run.start (Actor.named "A") : Run ℝ).cursor = 0 := zero_real
  have h₀ : Alone hiccup o (Session.start hiccup o) (Run.start (Actor.named "A")) :=
    ⟨.refl _, rfl, rfl, rfl, rfl⟩
  obtain ⟨s₁, a₁, hfirst, h₁, hcursor₁, hspans₁⟩ := h₀.lasts hv zero_le_one (some jog)
  obtain ⟨s₂, a₂, hsecond, h₂, hcursor₂, hspans₂⟩ := h₁.lasts hv le_rfl (some walkClip)
  obtain ⟨s₃, a₃, hthird, h₃, -, hspans₃⟩ := h₂.lasts hv zero_le_one (some jog)
  rw [hcursor₂, hspans₂, hcursor₁, hspans₁, hstart, zero_add, add_zero] at hspans₃
  exact ⟨s₃, a₃, _, _, _, bind_eq_ok.mpr ⟨s₁, hfirst, bind_eq_ok.mpr ⟨s₂, hsecond,
    bind_eq_ok.mpr ⟨s₃, hthird, rfl⟩⟩⟩, h₃, hspans₃⟩

/-- The second frame shows the clip of the first, where the other one has its moment. -/
lemma hiccup_interrupted (pose pose' pose'' : Pose ℝ) :
    InterruptedAt hiccup.fps [⟨1, 1, fun _ => pose'', some jog⟩,
      ⟨1, 0, fun _ => pose', some walkClip⟩, ⟨0, 1, fun _ => pose, some jog⟩] 1 := by
  have hzero : hiccup.fps.frameAt 0 = 0 := frameAt_zero
  have hone : hiccup.fps.frameAt 1 = 1 := by
    exact_mod_cast frameAt_natCast (show hiccup.fps.fps = 1 from rfl) 1
  have htwo : hiccup.fps.frameAt (1 + 1) = 2 := by
    rw [one_add_one_eq_two]
    exact_mod_cast frameAt_natCast (show hiccup.fps.fps = 1 from rfl) 2
  have hbehind (s : Span ℝ) (hstart : s.start = 1) : ¬Touches hiccup.fps 0 s := by
    rintro ⟨hle, -⟩
    rw [Span.firstFrame, hstart, hone] at hle
    exact absurd hle (by decide)
  refine ⟨one_pos, ⟨jog, ?_, ?_⟩, [_], _, _, rfl, hone, ?_⟩
  · have hfirst : Touches hiccup.fps 0 ⟨0, 1, fun _ => pose, some jog⟩ :=
      ⟨hzero.le, Nat.zero_le _⟩
    rw [Nat.sub_self, shownClip, if_neg (hbehind _ rfl), shownClip, if_neg (hbehind _ rfl),
      shownClip, if_pos hfirst]
    rfl
  · have hlast : Touches hiccup.fps 1 ⟨1, 1, fun _ => pose'', some jog⟩ :=
      ⟨hone.le, one_le_two.trans htwo.ge⟩
    rw [shownClip, if_pos hlast]
    rfl
  · intro hsame
    have hname : "Walk" = "Jog" := congrArg Clip.name (Option.some.inj hsame)
    exact absurd hname (by decide)

lemma hiccup_played : ∃ reel s r, hiccup.plan Settings.standard.options = .ok reel ∧
    played Settings.standard.options hiccup = .ok (reel.lastFrame, s) ∧ s.runs = [r] ∧
    (∃ a ∈ reel.actors, a.animation = r.animation) ∧ InterruptedAt hiccup.fps r.spans 1 := by
  obtain ⟨s, r, pose, pose', pose'', hwalk, halone, hspans⟩ :=
    hiccup_walk (o := Settings.standard.options)
  obtain ⟨reel, s', hplan, hplayed, hruns, hmem⟩ := halone.plan hiccup_issues rfl hwalk
  refine ⟨reel, s', r, hplan, hplayed, hruns, ⟨_, hmem, rfl⟩, ?_⟩
  rw [hspans]
  exact hiccup_interrupted pose pose' pose''

/-- The clip is resumed in a segment of its own. -/
theorem hiccup_merges_segments : ∃ reel, hiccup.plan Settings.standard.options = .ok reel ∧
    (∃ s, played Settings.standard.options hiccup = .ok (reel.lastFrame, s) ∧
      s.runs.map Run.actor = hiccup.actors ∧
      List.Forall₂ (fun (r : Run ℝ) (a : ActorReel ℝ) => a.actor = r.actor ∧
        Executed (hiccup.commandsFor r.actor.name) r.spans r.cursor ∧
        (∀ n, SplitAt a.animation.keys.toList n ↔ InterruptedAt hiccup.fps r.spans n) ∧
        (Merged a.animation.keys.toList ↔ ∀ n, ¬InterruptedAt hiccup.fps r.spans n))
        s.runs reel.actors) ∧
    ∃ a ∈ reel.actors, SplitAt a.animation.keys.toList 1 := by
  obtain ⟨reel, s, r, hplan, hplayed, hruns, -, hat⟩ := hiccup_played
  have hmerges := plan_merges_segments hplan
  refine ⟨reel, hplan, hmerges, ?_⟩
  obtain ⟨s', hplayed', -, hreels⟩ := hmerges
  rw [hplayed] at hplayed'
  cases hplayed'
  obtain ⟨a, ha, -, -, hsplit, -⟩ := mem_of_forall₂_left hreels (a := r) (by simp [hruns])
  exact ⟨a, ha, (hsplit 1).mpr hat⟩

/-- Segments of a plan that meet with one clip. -/
theorem hiccup_unmerged : ∃ reel, hiccup.plan Settings.standard.options = .ok reel ∧
    ∃ a ∈ reel.actors, ¬Merged a.animation.keys.toList := by
  obtain ⟨reel, s, r, hplan, hplayed, hruns, ⟨a, ha, hanimation⟩, hat⟩ := hiccup_played
  have hv : Valid hiccup := valid_of_issues_nil hiccup_issues
  have hr : r ∈ s.runs := by simp [hruns]
  refine ⟨reel, hplan, a, ha, ?_⟩
  rw [merged_iff, hanimation]
  intro hnone
  apply hnone 1
  rw [(played_animated hv hplayed r hr).splitAt_iff (played_begun hv hplayed r hr)]
  exact hat

end Hiccup

end Stagecraft.Proofs
