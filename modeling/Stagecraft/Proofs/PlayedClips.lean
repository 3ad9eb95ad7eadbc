import Stagecraft.Proofs.KeyedSpans
import Stagecraft.Proofs.OrderedTracks
import Stagecraft.Proofs.SoloMovies

/-!
# Played clips

A span begins a clip of its own, or goes on with the one that was playing. The animation of an
actor is told from its spans: the clip at a frame is the one that plays in the last span that
touches the frame. The segments follow one another without a gap, each from the frame where the one
before it ends; a segment that would begin where it ends gives way to the next.
-/

namespace Stagecraft.Proofs

section Pushing

variable {κ : Type} [Keyed κ] {t : Track κ} {front : List κ} {a key : κ}

lemma push_behind (h : t.keys.toList = front ++ [a]) (hlt : Keyed.frame a < Keyed.frame key) :
    (t.push key).keys.toList = front ++ [a, key] := by
  obtain ⟨⟨keys⟩⟩ := t
  cases h
  simp [Track.push, hlt]

/-- A key at the frame of the last one takes its place. -/
lemma push_over (h : t.keys.toList = front ++ [a]) (heq : Keyed.frame a = Keyed.frame key)
    (hfront : ∀ b ∈ front, Keyed.frame b < Keyed.frame key) :
    (t.push key).keys.toList = front ++ [key] := by
  have hkeys : t.keys.toList = front ++ (some a).toList ++ [] := by simpa using h
  exact push_between hkeys hfront (fun b hb => Option.mem_some.mp hb ▸ heq) nofun

end Pushing

section Segments

variable {t : AnimationTrack ℝ} {segments front : List (Segment ℝ)} {a : Segment ℝ}
  {clip : Option (Clip ℝ)} {c : Clip ℝ} {n m k f : ℕ}

lemma clip_beq_iff (c c' : Clip ℝ) :
    @BEq.beq _ (@instBEqClip ℝ Scalar.toBEq) c c' = true ↔ c = c' := by
  obtain ⟨name, speed⟩ := c
  obtain ⟨name', speed'⟩ := c'
  have h : @BEq.beq _ (@instBEqClip ℝ Scalar.toBEq) ⟨name, speed⟩ ⟨name', speed'⟩ =
      (name == name' && decide (speed = speed')) := rfl
  rw [h]
  simp

/-- The clip that segments show at a frame. -/
def clipAt (segments : List (Segment ℝ)) (f : ℕ) : Option (Clip ℝ) :=
  (segments.reverse.find? fun a => a.startFrame ≤ f && f ≤ a.endFrame).map Segment.clip

lemma clipAt_concat (segments : List (Segment ℝ)) (a : Segment ℝ) (f : ℕ) :
    clipAt (segments ++ [a]) f =
      if a.startFrame ≤ f ∧ f ≤ a.endFrame then some a.clip else clipAt segments f := by
  unfold clipAt
  rw [List.reverse_concat, List.find?_cons]
  by_cases h : a.startFrame ≤ f ∧ f ≤ a.endFrame
  · simp [h]
  · have hout : (decide (a.startFrame ≤ f) && decide (f ≤ a.endFrame)) = false := by
      simpa using h
    rw [if_neg h, hout]

/-- Segments that follow one another without a gap, each from the frame where the one before it
ends. -/
structure Tiled (segments : List (Segment ℝ)) : Prop where
  increasing : segments.Pairwise fun a b => a.startFrame < b.startFrame
  ordered : ∀ a ∈ segments, a.startFrame ≤ a.endFrame
  joined : segments.IsChain fun a b => b.startFrame = a.endFrame

lemma tiled_concat_iff : Tiled (front ++ [a]) ↔
    Tiled front ∧ a.startFrame ≤ a.endFrame ∧ (∀ b ∈ front, b.startFrame < a.startFrame) ∧
      ∀ b ∈ front.getLast?, a.startFrame = b.endFrame := by
  constructor
  · rintro ⟨hincreasing, hordered, hjoined⟩
    obtain ⟨hfront, -, hbehind⟩ := List.pairwise_append.mp hincreasing
    obtain ⟨hchain, -, hjoin⟩ := List.isChain_append.mp hjoined
    exact ⟨⟨hfront, fun b hb => hordered b (List.mem_append_left _ hb), hchain⟩,
      hordered a (by simp), fun b hb => hbehind b hb a (by simp),
      fun b hb => hjoin b hb a (by simp)⟩
  · rintro ⟨⟨hincreasing, hordered, hjoined⟩, hle, hbehind, hjoin⟩
    refine ⟨List.pairwise_append.mpr ⟨hincreasing, List.pairwise_singleton _ _, ?_⟩, ?_,
      hjoined.append (List.isChain_singleton a) ?_⟩
    · simpa using hbehind
    · simpa [or_imp, forall_and] using ⟨hordered, hle⟩
    · simpa using hjoin

/-- Segments up to a frame, the last of them with the clip that is playing. -/
structure LeadsTo (segments : List (Segment ℝ)) (clip : Option (Clip ℝ)) (n : ℕ) : Prop where
  tiled : Tiled segments
  last_eq : segments.getLast?.map (fun a => (a.endFrame, a.clip)) = clip.map fun c => (n, c)

lemma LeadsTo.end_eq (h : LeadsTo segments clip n) (ha : a ∈ segments.getLast?) :
    a.endFrame = n := by
  have hlast := h.last_eq
  rw [Option.mem_def.mp ha, Option.map_some, eq_comm, Option.map_eq_some_iff] at hlast
  obtain ⟨c, rfl, hc⟩ := hlast
  cases hc
  rfl

lemma leadsTo_nil (n : ℕ) : LeadsTo [] none n :=
  ⟨⟨.nil, fun _ ha => absurd ha List.not_mem_nil, .nil⟩, rfl⟩

lemma LeadsTo.eq_nil (h : LeadsTo segments none n) : segments = [] := by
  simpa using h.last_eq

lemma extendOrPush_nil (h : t.keys.toList = []) (q : Segment ℝ) :
    (t.extendOrPush q).keys.toList = [q] := by
  obtain ⟨⟨keys⟩⟩ := t
  cases h
  rfl

lemma extendOrPush_same (h : t.keys.toList = front ++ [a]) {q : Segment ℝ} (hclip : a.clip = q.clip)
    (hle : q.startFrame ≤ a.endFrame) : (t.extendOrPush q).keys.toList =
      front ++ [{ a with endFrame := max a.endFrame q.endFrame }] := by
  obtain ⟨⟨keys⟩⟩ := t
  cases h
  have hsame := (clip_beq_iff _ _).mpr hclip
  simp [Track.extendOrPush, Track.last?, hsame, hle]

lemma extendOrPush_other (h : t.keys.toList = front ++ [a]) {q : Segment ℝ}
    (hclip : a.clip ≠ q.clip) : t.extendOrPush q = t.push q := by
  obtain ⟨⟨keys⟩⟩ := t
  cases h
  have hother := mt (clip_beq_iff _ _).mp hclip
  simp [Track.extendOrPush, Track.last?, hother]

/-- All that a clip over the frames from `n` to `m` can make of segments: the last of them goes on
as a segment of that clip, or a new one follows. -/
inductive Extended (segments : List (Segment ℝ)) (n m : ℕ) (c : Clip ℝ) : List (Segment ℝ) → Prop
  | prolongs {front : List (Segment ℝ)} {a : Segment ℝ} (hlast : segments = front ++ [a])
    (hsame : a.clip = c ∨ a.startFrame = n) :
    Extended segments n m c (front ++ [⟨a.startFrame, m, c⟩])
  | follows (hbehind : ∀ b ∈ segments, b.startFrame < n) :
    Extended segments n m c (segments ++ [⟨n, m, c⟩])

/-- Where the segment of a clip begins is settled by where the clip does, not by how long it
plays. -/
lemma LeadsTo.exists_extended (h : LeadsTo t.keys.toList clip n) (c : Clip ℝ) :
    ∃ front start, ∀ m, n ≤ m →
      (t.extendOrPush ⟨n, m, c⟩).keys.toList = front ++ [⟨start, m, c⟩] ∧
        Extended t.keys.toList n m c (front ++ [⟨start, m, c⟩]) := by
  rcases List.eq_nil_or_concat' t.keys.toList with hnil | ⟨front, a, hlast⟩
  · refine ⟨[], n, fun m _ => ⟨extendOrPush_nil hnil _, ?_⟩⟩
    rw [hnil]
    exact .follows fun b hb => absurd hb List.not_mem_nil
  have hend : a.endFrame = n := h.end_eq (by simp [hlast])
  have htiled := h.tiled
  rw [hlast] at htiled
  obtain ⟨-, hordered, hbehind, -⟩ := tiled_concat_iff.mp htiled
  have hstart : a.startFrame ≤ n := hordered.trans_eq hend
  by_cases hclip : a.clip = c
  · refine ⟨front, a.startFrame, fun m hle => ⟨?_, .prolongs hlast (Or.inl hclip)⟩⟩
    rw [extendOrPush_same hlast (q := ⟨n, m, c⟩) hclip hend.ge]
    dsimp only
    rw [hend, max_eq_right hle, hclip]
  rcases hstart.lt_or_eq with hlt | heq
  · refine ⟨front ++ [a], n, fun m _ => ⟨?_, ?_⟩⟩
    · rw [extendOrPush_other hlast (q := ⟨n, m, c⟩) hclip, push_behind hlast hlt]
      simp
    · rw [← hlast]
      refine .follows fun b hb => ?_
      rw [hlast, List.mem_append, List.mem_singleton] at hb
      rcases hb with hb | rfl
      · exact (hbehind b hb).trans hlt
      · exact hlt
  · have hfront : ∀ b ∈ front, b.startFrame < n := fun b hb => (hbehind b hb).trans_eq heq
    refine ⟨front, a.startFrame, fun m _ => ⟨?_, .prolongs hlast (Or.inr heq)⟩⟩
    rw [extendOrPush_other hlast (q := ⟨n, m, c⟩) hclip, push_over hlast heq hfront, heq]

lemma LeadsTo.extendOrPush (h : LeadsTo t.keys.toList clip n) (hle : n ≤ m) (c : Clip ℝ) :
    Extended t.keys.toList n m c (t.extendOrPush ⟨n, m, c⟩).keys.toList := by
  obtain ⟨front, start, hextends⟩ := h.exists_extended c
  obtain ⟨hkeys, hextended⟩ := hextends m hle
  rw [hkeys]
  exact hextended

/-- A clip that goes on where it was left plays as if it had not been left. -/
lemma LeadsTo.extendOrPush_extendOrPush (h : LeadsTo t.keys.toList clip n) (hnm : n ≤ m)
    (hmk : m ≤ k) (c : Clip ℝ) :
    (t.extendOrPush ⟨n, m, c⟩).extendOrPush ⟨m, k, c⟩ = t.extendOrPush ⟨n, k, c⟩ := by
  obtain ⟨front, start, hextends⟩ := h.exists_extended c
  have hfirst := (hextends m hnm).1
  apply track_ext
  rw [extendOrPush_same hfirst (q := ⟨m, k, c⟩) rfl le_rfl, (hextends k (hnm.trans hmk)).1]
  dsimp only
  rw [max_eq_right hmk]

lemma LeadsTo.extended (h : LeadsTo segments clip n) (hle : n ≤ m) {segments' : List (Segment ℝ)}
    (he : Extended segments n m c segments') : LeadsTo segments' (some c) m := by
  refine ⟨?_, ?_⟩
  · cases he with
    | @prolongs front a hlast hsame =>
      have hend : a.endFrame = n := h.end_eq (by simp [hlast])
      have htiled := h.tiled
      rw [hlast, tiled_concat_iff] at htiled
      obtain ⟨hfront, hordered, hbehind, hjoin⟩ := htiled
      exact tiled_concat_iff.mpr ⟨hfront, (hordered.trans_eq hend).trans hle, hbehind, hjoin⟩
    | follows hbehind =>
      exact tiled_concat_iff.mpr ⟨h.tiled, hle, hbehind, fun b hb => (h.end_eq hb).symm⟩
  · cases he <;> simp

lemma LeadsTo.clipAt_extended (h : LeadsTo segments clip n) (hle : n ≤ m)
    {segments' : List (Segment ℝ)} (he : Extended segments n m c segments') (f : ℕ) :
    clipAt segments' f = if n ≤ f ∧ f ≤ m then some c else clipAt segments f := by
  cases he with
  | follows hbehind => exact clipAt_concat segments ⟨n, m, c⟩ f
  | @prolongs front a hlast hsame =>
    have hend : a.endFrame = n := h.end_eq (by simp [hlast])
    have hordered := h.tiled.ordered a (by simp [hlast])
    rw [hend] at hordered
    rw [hlast, clipAt_concat, clipAt_concat, hend]
    dsimp only
    rcases hsame with rfl | hstart
    · split_ifs <;> first | rfl | omega
    · -- The segment was no longer than a frame, which the new clip holds.
      rw [hstart]
      split_ifs <;> first | rfl | omega

end Segments

section Clips

variable {K : Type} [Scalar K]

/-- The clip that plays in the latest of some spans: that of the last one with a clip of its own. -/
def currentClip : List (Span K) → Option (Clip K)
  | [] => none
  | s :: earlier => s.clip.or (currentClip earlier)

lemma sample_clips (rate : FrameRate K) (s : Span K) (r : Run K) :
    (r.sample rate s).clip = r.clip ∧ (r.sample rate s).animation = r.animation := by
  rw [sample_eq_keyAll]
  obtain ⟨yaw, track, hkey⟩ := keyAll_eq (fun f => s.pose (s.momentAt rate (s.lastFrame rate) f))
    (List.range' (s.firstFrame rate) (s.lastFrame rate + 1 - s.firstFrame rate)) r
  rw [hkey]
  exact ⟨rfl, rfl⟩

lemma play_clip (rate : FrameRate K) (s : Span K) (r : Run K) :
    (r.play rate s).clip = s.clip.or r.clip := by
  obtain ⟨hclip, -⟩ := sample_clips rate s r
  unfold Run.play Run.animate
  rw [hclip]
  cases h : s.clip.or r.clip with
  | none => exact hclip.trans (Option.or_eq_none_iff.mp h).2
  | some c => rfl

lemma play_animation (rate : FrameRate K) (s : Span K) (r : Run K) :
    (r.play rate s).animation = match s.clip.or r.clip with
      | none => r.animation
      | some c => r.animation.extendOrPush ⟨s.firstFrame rate, s.lastFrame rate, c⟩ := by
  obtain ⟨hclip, hanimation⟩ := sample_clips rate s r
  unfold Run.play Run.animate
  rw [hclip]
  cases s.clip.or r.clip with
  | none => exact hanimation
  | some c => exact congrArg (Track.extendOrPush · _) hanimation

end Clips

section Runs

variable {rate : FrameRate ℝ} {s : Span ℝ} {spans later : List (Span ℝ)} {r r' : Run ℝ} {f : ℕ}

/-- The clip of some spans, latest first, at a frame: the one that plays in the last span that
touches the frame. -/
noncomputable def shownClip (rate : FrameRate ℝ) (f : ℕ) : List (Span ℝ) → Option (Clip ℝ)
  | [] => none
  | s :: earlier =>
    if Touches rate f s then currentClip (s :: earlier) else shownClip rate f earlier

lemma shownClip_eq_none (h : currentClip spans = none) : shownClip rate f spans = none := by
  induction spans with
  | nil => rfl
  | cons s earlier ih =>
    unfold shownClip
    split
    · exact h
    · exact ih (Option.or_eq_none_iff.mp h).2

/-- What holds of a run at all times: its segments lead to the cursor and show the clips of its
spans, that follow one another up to there. -/
structure Animated (rate : FrameRate ℝ) (r : Run ℝ) : Prop where
  clip_eq : r.clip = currentClip r.spans
  leads : LeadsTo r.animation.keys.toList r.clip (rate.frameAt r.cursor)
  shown : ∀ f, clipAt r.animation.keys.toList f = shownClip rate f r.spans
  reached : ∀ s ∈ r.spans, s.firstFrame rate ≤ s.lastFrame rate ∧
    s.lastFrame rate ≤ rate.frameAt r.cursor
  inOrder : r.spans.Pairwise fun s q => q.lastFrame rate ≤ s.firstFrame rate

lemma start_animated (a : Actor ℝ) : Animated rate (Run.start a) :=
  ⟨rfl, leadsTo_nil _, fun _ => rfl, fun _ hs => absurd hs List.not_mem_nil, .nil⟩

/-- A span extends the segments by the clip that plays in it. -/
lemma Animated.play_shows (h : Animated rate r) (hle : s.firstFrame rate ≤ s.lastFrame rate)
    (hfirst : s.firstFrame rate = rate.frameAt r.cursor) :
    LeadsTo (r.play rate s).animation.keys.toList (s.clip.or r.clip) (s.lastFrame rate) ∧
      ∀ f, clipAt (r.play rate s).animation.keys.toList f = shownClip rate f (s :: r.spans) := by
  have hcurrent : currentClip (s :: r.spans) = s.clip.or r.clip := by
    rw [h.clip_eq]
    rfl
  have hleads := h.leads
  rw [← hfirst] at hleads
  rw [play_animation]
  cases hclip : s.clip.or r.clip with
  | none =>
    rw [hclip] at hcurrent
    rw [(Option.or_eq_none_iff.mp hclip).2] at hleads
    dsimp only
    rw [hleads.eq_nil]
    exact ⟨leadsTo_nil _, fun f => (shownClip_eq_none hcurrent).symm⟩
  | some c =>
    have hextends := hleads.extendOrPush hle c
    refine ⟨hleads.extended hle hextends, fun f => ?_⟩
    rw [hleads.clipAt_extended hle hextends, h.shown, shownClip, hcurrent, hclip]
    rfl

lemma Animated.play (h : Animated rate r) (hfps : 0 < rate.fps) (hstart : s.start = r.cursor)
    (hduration : 0 ≤ s.duration) : Animated rate (r.play rate s) := by
  obtain ⟨hfirst, hlast, hle⟩ := frames_of_start hfps hstart hduration
  obtain ⟨hleads, hshown⟩ := h.play_shows hle hfirst
  refine ⟨?_, ?_, ?_, ?_, ?_⟩
  · rw [play_clip, play_spans, h.clip_eq]
    rfl
  · rw [play_clip, play_cursor, ← hlast]
    exact hleads
  · rw [play_spans]
    exact hshown
  · rw [play_spans, play_cursor, ← hlast, List.forall_mem_cons]
    refine ⟨⟨hle, le_rfl⟩, fun q hq => ?_⟩
    obtain ⟨hq, hcursor⟩ := h.reached q hq
    exact ⟨hq, (hcursor.trans_eq hfirst.symm).trans hle⟩
  · rw [play_spans, List.pairwise_cons, hfirst]
    exact ⟨fun q hq => (h.reached q hq).2, h.inOrder⟩

lemma Animated.advances (h : Animated rate r) (hfps : 0 < rate.fps) (ha : Advances rate r r') :
    Animated rate r' := by
  induction ha with
  | refl => exact h
  | tail hq hstep ih =>
    cases hstep with
    | play s hstart hduration => exact ih.play hfps hstart hduration
    | note lane index parked hparked =>
      exact ⟨ih.clip_eq, ih.leads, ih.shown, ih.reached, ih.inOrder⟩

end Runs

section Commands

variable {K : Type} [Scalar K] {r r' : Run K}

/-- Spans, latest first, by which an actor executes its commands up to a time. Each command is a
span with its clip, unless it is a stay until a moment that is past. A gap is filled by a span
without a clip. -/
inductive Executed : List (Command K) → List (Span K) → K → Prop
  | start : Executed [] [] 0
  | fill {commands : List (Command K)} {spans : List (Span K)} {cursor : K} {s : Span K}
    (h : Executed commands spans cursor) (hstart : s.start = cursor) (hclip : s.clip = none) :
    Executed commands (s :: spans) (cursor + s.duration)
  | play {commands : List (Command K)} {spans : List (Span K)} {cursor : K} {c : Command K}
    {s : Span K} (h : Executed commands spans cursor) (hnext : ¬Passed cursor c)
    (hstart : s.start = cursor) (hclip : s.clip = c.animation) :
    Executed (commands ++ [c]) (s :: spans) (cursor + s.duration)
  | pass {commands : List (Command K)} {spans : List (Span K)} {cursor : K} {c : Command K}
    (h : Executed commands spans cursor) (hpast : Passed cursor c) :
    Executed (commands ++ [c]) spans cursor

/-- The stay to the end that is still to be played. -/
def pending (r : Run K) : List (Command K) :=
  r.parked.toList.map fun p => .stay ⟨.tillEnd, p.clip⟩

/-- A run has executed its commands up to one that is pending. -/
def ExecutedBy (steps : List (Step K)) (r : Run K) : Prop :=
  ∃ commands, commandsIn r.actor.name steps = commands ++ pending r ∧
    Executed commands r.spans r.cursor

lemma ExecutedBy.join {front : List (Step K)} (h : ExecutedBy front r) (rate : FrameRate K)
    (moment : K) :
    ExecutedBy (front ++ [.joinActor r.actor.name]) (r.holdUntil rate moment none) := by
  obtain ⟨commands, hcommands, hexecuted⟩ := h
  refine ⟨commands, ?_, ?_⟩
  · have hjoin : ∀ c : Command K, Step.joinActor r.actor.name ≠ .command r.actor.name c :=
      fun c hc => by cases hc
    rw [(holdUntil_kept rate moment none r).1, commandsIn_other hjoin, hcommands, pending, pending,
      holdUntil_parked]
  · unfold Run.holdUntil
    split
    · exact hexecuted
    · unfold Run.hold
      rw [play_spans, play_cursor]
      exact hexecuted.fill rfl rfl

lemma ExecutedBy.command {front : List (Step K)} {s : Session K} {index : ℕ} {c : Command K}
    {findings : List (Finding K)} (h : ExecutedBy front r) (hparked : r.parked = none)
    (hobey : obey s index { r with nextIndex := r.nextIndex + 1 } c = .ok (r', findings)) :
    ExecutedBy (front ++ [.command r.actor.name c]) r' := by
  obtain ⟨commands, hcommands, hexecuted⟩ := h
  have hnone : pending r = [] := by
    rw [pending, hparked]
    rfl
  have hnow : commandsIn r.actor.name (front ++ [.command r.actor.name c]) = commands ++ [c] := by
    rw [commandsIn_command, hcommands, hnone, List.append_nil]
  cases obey_obeyed hobey with
  | plays hnext hs lane =>
    refine ⟨commands ++ [c], ?_, ?_⟩
    · simp [hnow, pending, hparked]
    · simpa using hexecuted.play hnext hs.start_eq hs.clip_eq
  | passes hpast =>
    refine ⟨commands ++ [c], ?_, hexecuted.pass hpast⟩
    simp [hnow, pending, hparked]
  | parks clip => exact ⟨commands, hnow, hexecuted⟩

theorem executedBy_invariant : RunInvariant (K := K) ExecutedBy where
  start a := ⟨[], rfl, .start⟩
  other h hstep := by
    obtain ⟨commands, hcommands, hexecuted⟩ := h
    exact ⟨commands, (commandsIn_other hstep).trans hcommands, hexecuted⟩
  join h rate moment := h.join rate moment
  command h hparked hobey := h.command hparked hobey

/-- A stay to the end that is pending is played from the cursor on. -/
lemma ExecutedBy.finish {steps : List (Step K)} (h : ExecutedBy steps r) (rate : FrameRate K)
    (last : ℕ) : Executed (commandsIn r.actor.name steps) (r.finish rate last).1.spans
      (r.finish rate last).1.cursor := by
  obtain ⟨commands, hcommands, hexecuted⟩ := h
  cases hparked : r.parked with
  | none =>
    rw [finish_none hparked]
    simpa [hcommands, pending, hparked] using hexecuted
  | some p =>
    have hnext : ¬Passed r.cursor (.stay ⟨.tillEnd, p.clip⟩) := fun ⟨_, _, hc, _⟩ => by cases hc
    rw [finish_some hparked]
    unfold Run.hold
    simpa [hcommands, pending, hparked] using hexecuted.play hnext rfl rfl

end Commands

section Plans

variable {m : Movie ℝ} {o : PlanOptions ℝ} {reel : Reel ℝ}

lemma played_executed (hv : Valid m) {last : ℕ} {s : Session ℝ} (h : played o m = .ok (last, s)) :
    ∀ r ∈ s.runs, Executed (m.commandsFor r.actor.name) r.spans r.cursor := by
  obtain ⟨s₀, hwalk, hruns, -⟩ := played_runs hv h
  rw [hruns]
  intro r hr
  obtain ⟨q, hq, rfl⟩ := List.mem_map.mp hr
  rw [finish_actor, ← commandsIn_scriptSteps]
  exact (executedBy_invariant.walk_runs hwalk q hq).finish m.fps last

lemma played_animated (hv : Valid m) {last : ℕ} {s : Session ℝ} (h : played o m = .ok (last, s)) :
    ∀ r ∈ s.runs, Animated m.fps r := by
  intro r hr
  exact (start_animated r.actor).advances hv.rate_pos ((played_follows hv h).advances_start hr)

end Plans

section Warmup

variable {o : PlanOptions ℝ}

noncomputable def jog : Clip ℝ := Clip.named "Jog"

/-- A second with a clip, and another that does not say which. -/
noncomputable def warmup : Movie ℝ :=
  solo "warmup" [.stay ⟨.lasting (.seconds 1), some jog⟩, .stay ⟨.lasting (.seconds 1), none⟩]

lemma warmup_issues : warmup.issues = [] := by
  apply solo_issues
  simp only [List.forall_mem_cons]
  exact ⟨⟨fun _ _ => rfl, rfl⟩, ⟨fun _ _ => rfl, rfl⟩, fun _ hc => absurd hc List.not_mem_nil⟩

/-- A stay of some seconds is a span at the pose where it begins. -/
lemma Alone.lasts {m : Movie ℝ} {s : Session ℝ} {a : Run ℝ} (h : Alone m o s a) (hv : Valid m)
    {seconds : ℝ} (hseconds : 0 ≤ seconds) (clip : Option (Clip ℝ)) :
    ∃ s' a', s.block (.actor ⟨"A", [.stay ⟨.lasting (.seconds seconds), clip⟩]⟩) = .ok s' ∧
      Alone m o s' a' ∧ a'.cursor = a.cursor + seconds ∧
      a'.spans = ⟨a.cursor, seconds, fun _ => a.pose, clip⟩ :: a.spans := by
  have hinternal : (TimeSpan.seconds seconds : TimeSpan ℝ).internal = seconds := seconds_real _
  let q : Span ℝ := ⟨a.cursor, seconds, fun _ => a.pose, clip⟩
  let a₀ : Run ℝ := { a with nextIndex := a.nextIndex + 1 }
  have hobey : Proofs.obey s a.nextIndex a₀ (.stay ⟨.lasting (.seconds seconds), clip⟩) =
      .ok (a₀.play s.movie.fps q, []) := by
    change Except.ok (a₀.stay s.movie.fps a.nextIndex ⟨.lasting (.seconds seconds), clip⟩, []) = _
    rw [stay_lasting (hseconds.trans_eq hinternal.symm), hinternal]
    rfl
  obtain ⟨s', hblock, h'⟩ := h.obey hv hobey ((play_parked _ _ _).trans h.parked_eq)
  exact ⟨s', _, hblock, h', play_cursor _ _ _, play_spans _ _ _⟩

lemma warmup_walk : ∃ s a pose pose', walk o warmup = .ok s ∧ Alone warmup o s a ∧
    a.spans = [⟨1, 1, fun _ => pose', none⟩, ⟨0, 1, fun _ => pose, some jog⟩] := by
  have hstart : (Run.start (Actor.named "A") : Run ℝ).cursor = 0 := zero_real
  have hv : Valid warmup := valid_of_issues_nil warmup_issues
  have h₀ : Alone warmup o (Session.start warmup o) (Run.start (Actor.named "A")) :=
    ⟨.refl _, rfl, rfl, rfl, rfl⟩
  obtain ⟨s₁, a₁, hfirst, h₁, hcursor, hspans₁⟩ := h₀.lasts hv zero_le_one (some jog)
  obtain ⟨s₂, a₂, hsecond, h₂, -, hspans₂⟩ := h₁.lasts hv zero_le_one none
  rw [hcursor, hspans₁, hstart, zero_add] at hspans₂
  exact ⟨s₂, a₂, _, _, bind_eq_ok.mpr ⟨s₁, hfirst, bind_eq_ok.mpr ⟨s₂, hsecond, rfl⟩⟩, h₂, hspans₂⟩

end Warmup

end Stagecraft.Proofs
