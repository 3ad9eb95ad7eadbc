import Stagecraft.Proofs.ShortTurns
import Stagecraft.Proofs.TillEndStays

/-!
# Keyed spans

The track of an actor is told from the spans it played. A key shows the last span that touches its
frame: the end of that span on its last frame, and on the frames before the moment that the frame
begins. The spans are those of the commands in their order, with holds in between; they start at
the declared pose and lead on from one another.
-/

namespace Stagecraft.Proofs

section Chains

variable {K : Type} [Scalar K] {m : Movie K} {o : PlanOptions K} {rate : FrameRate K}
  {a : Actor K} {r r' : Run K} {commands : List (Command K)}

/-- The span of a command that is obeyed at a pose and a time. -/
inductive Obeys (pose : Pose K) (cursor : K) : Command K → Span K → Prop
  | move {c : MoveCommand K} {motion : ResolvedMotion K} (hmotion : c.motion.resolve = .ok motion)
    (drift : Option (Drift K)) :
    Obeys pose cursor (.move c) ⟨cursor, motion.profile.duration,
      Run.movePose pose (c.direction.heading pose.yaw c.directionOffset) motion.profile drift,
      c.animation⟩
  | face {c : FaceCommand K} (yaw : K) :
    Obeys pose cursor (.face c) ⟨cursor, Scalar.larger c.duration.internal 0,
      Run.turnPose pose (shortestYaw pose.yaw yaw) (Scalar.larger c.duration.internal 0),
      c.animation⟩
  | lasting (span : TimeSpan K) (clip : Option (Clip K)) :
    Obeys pose cursor (.stay ⟨.lasting span, clip⟩)
      ⟨cursor, Scalar.larger span.internal 0, fun _ => pose, clip⟩
  | waiting (moment : TimeSpan K) (clip : Option (Clip K)) :
    Obeys pose cursor (.stay ⟨.waiting moment, clip⟩)
      ⟨cursor, moment.internal - cursor, fun _ => pose, clip⟩
  | follow {c : FollowCommand K} {motion : ResolvedMotion K} {range : K}
    (hmotion : (Run.followMotion c.motion range).resolve = .ok motion) (curve : Curve K)
    (origin sign : K) :
    Obeys pose cursor (.follow c) ⟨cursor, motion.profile.duration,
      Run.followPose pose curve origin sign motion.profile, c.animation⟩

lemma Obeys.start_eq {pose : Pose K} {cursor : K} {c : Command K} {s : Span K}
    (h : Obeys pose cursor c s) : s.start = cursor := by
  cases h <;> rfl

/-- The span of a command plays the clip of the command. -/
lemma Obeys.clip_eq {pose : Pose K} {cursor : K} {c : Command K} {s : Span K}
    (h : Obeys pose cursor c s) : s.clip = c.animation := by
  cases h <;> rfl

/-- A stay until a moment that is past. -/
def Passed (cursor : K) (c : Command K) : Prop :=
  ∃ moment clip, c = .stay ⟨.waiting moment, clip⟩ ∧ moment.internal ≤ cursor + Scalar.tolerance

/-- All that a command can make of a run: its span is played, or it is a stay without a span, that
is passed over or parked. -/
inductive Obeyed (rate : FrameRate K) (index : ℕ) (r : Run K) : Command K → Run K → Prop
  | plays {c : Command K} {s : Span K} (hnext : ¬Passed r.cursor c) (hs : Obeys r.pose r.cursor c s)
    (lane : Option (K × Lane K)) : Obeyed rate index r c { r.play rate s with lane := lane }
  | passes {c : Command K} (hpast : Passed r.cursor c) : Obeyed rate index r c r
  | parks (clip : Option (Clip K)) : Obeyed rate index r (.stay ⟨.tillEnd, clip⟩)
    { r with parked := some ⟨index, r.cursor, clip⟩ }

lemma stay_obeyed (rate : FrameRate K) (index : ℕ) (r : Run K) (c : StayCommand K) :
    Obeyed rate index r (.stay c) (r.stay rate index c) := by
  obtain ⟨length, clip⟩ := c
  cases length with
  | lasting span =>
    refine .plays ?_ (.lasting span clip) _
    exact fun ⟨_, _, hc, _⟩ => by cases hc
  | waiting moment =>
    change Obeyed rate index r _ (r.holdUntil rate moment.internal clip)
    unfold Run.holdUntil
    split
    next hpast => exact .passes ⟨moment, clip, rfl, hpast⟩
    next hnext =>
      refine .plays ?_ (.waiting moment clip) _
      rintro ⟨_, _, hc, hpast⟩
      cases hc
      exact hnext hpast
  | tillEnd => exact .parks clip

lemma obey_obeyed {s : Session K} {index : ℕ} {c : Command K} {findings : List (Finding K)}
    (h : obey s index r c = .ok (r', findings)) : Obeyed s.movie.fps index r c r' := by
  cases c with
  | move c =>
    obtain ⟨motion, drift, lane, hmotion, rfl⟩ := move_ok h
    exact .plays (fun ⟨_, _, hc, _⟩ => by cases hc) (.move hmotion drift) lane
  | face c =>
    obtain ⟨yaw?, -, rfl⟩ := obey_face_ok h
    exact .plays (fun ⟨_, _, hc, _⟩ => by cases hc) (.face _) _
  | stay c =>
    cases h
    exact stay_obeyed s.movie.fps index r c
  | follow c =>
    obtain ⟨curve, -, hfollow⟩ := bind_eq_ok.mp h
    obtain ⟨range, motion, origin, sign, hmotion, rfl⟩ := follow_ok hfollow
    exact .plays (fun ⟨_, _, hc, _⟩ => by cases hc) (.follow hmotion curve origin sign) none

/-- Spans, latest first, that lead an actor by its commands from its declared pose to a pose at a
time. It may hold its pose between commands, and a stay may take no span: one until a moment that
is past, and one to the end. -/
inductive Chained (a : Actor K) : List (Command K) → List (Span K) → K → Pose K → Prop
  | declared : Chained a [] [] 0 ⟨a.location, a.initialYaw, 0⟩
  | wait {commands : List (Command K)} {spans : List (Span K)} {cursor : K} {pose : Pose K}
    (h : Chained a commands spans cursor pose) (duration : K) (clip : Option (Clip K)) :
    Chained a commands (⟨cursor, duration, fun _ => pose, clip⟩ :: spans) (cursor + duration) pose
  | obey {commands : List (Command K)} {spans : List (Span K)} {cursor : K} {pose : Pose K}
    {c : Command K} {s : Span K} (h : Chained a commands spans cursor pose)
    (hs : Obeys pose cursor c s) :
    Chained a (commands ++ [c]) (s :: spans) (cursor + s.duration) (s.pose s.duration)
  | past {commands : List (Command K)} {spans : List (Span K)} {cursor : K} {pose : Pose K}
    {moment : TimeSpan K} (h : Chained a commands spans cursor pose)
    (hpast : moment.internal ≤ cursor + Scalar.tolerance) (clip : Option (Clip K)) :
    Chained a (commands ++ [.stay ⟨.waiting moment, clip⟩]) spans cursor pose
  | park {commands : List (Command K)} {spans : List (Span K)} {cursor : K} {pose : Pose K}
    (h : Chained a commands spans cursor pose) (clip : Option (Clip K)) :
    Chained a (commands ++ [.stay ⟨.tillEnd, clip⟩]) spans cursor pose

/-- The spans of a run lead by some commands to where it is. -/
def RunChained (commands : List (Command K)) (r : Run K) : Prop :=
  Chained r.actor commands r.spans r.cursor r.pose

lemma start_chained (a : Actor K) : RunChained [] (Run.start a) := .declared

lemma hold_chained (h : RunChained commands r) (duration : K) (clip : Option (Clip K)) :
    RunChained commands (r.hold rate duration clip) := by
  unfold RunChained Run.hold
  rw [play_actor, play_spans, play_cursor, play_pose]
  exact .wait h duration clip

lemma holdUntil_chained (h : RunChained commands r) (moment : K) (clip : Option (Clip K)) :
    RunChained commands (r.holdUntil rate moment clip) := by
  unfold Run.holdUntil
  split
  · exact h
  · exact hold_chained h _ clip

lemma finish_chained (h : RunChained commands r) (last : ℕ) :
    RunChained commands (r.finish rate last).1 := by
  unfold Run.finish
  cases r.parked with
  | none => exact h
  | some p => exact hold_chained (r := { r with parked := none }) h _ p.clip

lemma play_chained {c : Command K} {s : Span K} (h : RunChained commands r)
    (hs : Obeys r.pose r.cursor c s) : RunChained (commands ++ [c]) (r.play rate s) := by
  unfold RunChained
  rw [play_actor, play_spans, play_cursor, play_pose]
  exact .obey h hs

lemma obey_chained {s : Session K} {index : ℕ} {c : Command K} {findings : List (Finding K)}
    (h : RunChained commands r) (hobey : obey s index r c = .ok (r', findings)) :
    RunChained (commands ++ [c]) r' := by
  cases obey_obeyed hobey with
  | plays hnext hs lane => exact play_chained h hs
  | passes hpast =>
    obtain ⟨moment, clip, rfl, hpast⟩ := hpast
    exact .past h hpast clip
  | parks clip => exact .park h clip

/-- The spans of every actor lead by its commands to where it is. -/
theorem chained_invariant : RunInvariant fun (front : List (Step K)) r =>
    RunChained (commandsIn r.actor.name front) r where
  start := start_chained
  other h hstep := by
    rw [commandsIn_other hstep]
    exact h
  join {front r} h rate moment := by
    rw [(holdUntil_kept _ _ _ r).1, commandsIn_other fun _ hc => by cases hc]
    exact holdUntil_chained h _ _
  command {front r r' s c findings} h _ hobey := by
    have hcounted : RunChained (commandsIn r.actor.name front)
        { r with nextIndex := r.nextIndex + 1 } := h
    rw [(obey_kept hobey).1, commandsIn_command]
    exact obey_chained hcounted hobey

theorem walk_chained {s : Session K} (h : walk o m = .ok s) :
    ∀ r ∈ s.runs, RunChained (m.commandsFor r.actor.name) r := by
  intro r hr
  rw [← commandsIn_scriptSteps]
  exact chained_invariant.walk_runs h r hr

end Chains

section Moments

variable {rate : FrameRate ℝ} {s : Span ℝ} {f last : ℕ}

/-- A frame after the one where a span starts begins after the span does. -/
lemma start_le_of_firstFrame_lt (hfps : 0 < rate.fps) (hstart : 0 ≤ s.start)
    (hf : s.firstFrame rate < f) : s.start ≤ f / rate.fps := by
  have hnext : s.start * rate.fps + 1e-6 < (f - 1 : ℕ) + 1 := by
    rw [← frameAt_le_iff hstart]
    exact Nat.le_sub_one_of_lt hf
  have hcast : ((f - 1 : ℕ) : ℝ) + 1 = f := by
    rw [← Nat.cast_succ, Nat.succ_eq_add_one, Nat.sub_add_cancel (Nat.one_le_of_lt hf)]
  rw [le_div_iff₀ hfps]
  linarith

/-- A frame before the one where a span ends begins before the span is over. -/
lemma le_duration_of_lt_lastFrame (hfps : 0 < rate.fps) (hend : 0 ≤ s.start + s.duration)
    (hf : f < s.lastFrame rate) : f / rate.fps - s.start ≤ s.duration := by
  have hnext : ((f + 1 : ℕ) : ℝ) ≤ (s.start + s.duration) * rate.fps + 1e-6 :=
    (le_frameAt_iff hfps hend (f + 1)).mp hf
  have hle : (f : ℝ) / rate.fps ≤ s.start + s.duration := by
    rw [div_le_iff₀ hfps]
    push_cast at hnext
    linarith
  linarith

lemma momentAt_of_le (hle : f / rate.fps - s.start ≤ s.duration) (hf : f ≠ last) :
    s.momentAt rate last f = max 0 (f / rate.fps - s.start) := by
  unfold Span.momentAt Scalar.clamp
  rw [if_neg hf, zero_real, secondsAt_real, if_neg (not_lt.mpr hle)]
  split
  next h => exact (max_eq_left h.le).symm
  next h => exact (max_eq_right (not_lt.mp h)).symm

/-- At its end a span is over, also when it takes no time. -/
lemma fraction_end (duration : ℝ) : Span.fraction duration duration = 1 := by
  unfold Span.fraction
  rw [tolerance_real]
  split
  next h => exact div_self (by linarith)
  next => exact one_real

lemma fraction_start {duration : ℝ} (h : 1e-9 < duration) : Span.fraction duration 0 = 0 := by
  unfold Span.fraction
  rw [tolerance_real, if_pos h, zero_div]

end Moments

section Keys

/-- A key shows a pose; its yaw is that of the mesh, up to full turns. -/
def ShowsPose (offset : ℝ) (p : Pose ℝ) (k : TransformKey ℝ) : Prop :=
  k.transform.location = p.location ∧ k.transform.rotation.pitch = p.pitch ∧
    ∃ turns : ℤ, k.transform.rotation.yaw = p.yaw + offset + 360 * turns

lemma keyOf_shows (offset current : ℝ) (f : ℕ) (p : Pose ℝ) :
    ShowsPose offset p (keyOf offset current f p) :=
  ⟨rfl, rfl, unwrapYaw_real current (p.yaw + offset)⟩

end Keys

section Touching

variable {rate : FrameRate ℝ} {s s' : Span ℝ} {spans : List (Span ℝ)} {f : ℕ}

/-- A span that is played from a cursor touches the frames from that of the cursor to the one where
it leads. -/
lemma frames_of_start {cursor : ℝ} (hfps : 0 < rate.fps) (hstart : s.start = cursor)
    (hduration : 0 ≤ s.duration) : s.firstFrame rate = rate.frameAt cursor ∧
      s.lastFrame rate = rate.frameAt (cursor + s.duration) ∧
      s.firstFrame rate ≤ s.lastFrame rate := by
  subst hstart
  exact ⟨rfl, rfl, frameAt_mono hfps (by linarith)⟩

/-- A frame lies between the frames where a span starts and ends. -/
def Touches (rate : FrameRate ℝ) (f : ℕ) (s : Span ℝ) : Prop :=
  s.firstFrame rate ≤ f ∧ f ≤ s.lastFrame rate

noncomputable instance : Decidable (Touches rate f s) :=
  inferInstanceAs (Decidable (s.firstFrame rate ≤ f ∧ f ≤ s.lastFrame rate))

/-- The last of some spans, latest first, that touch a frame. -/
def LastTouch (rate : FrameRate ℝ) (f : ℕ) (spans : List (Span ℝ)) (s : Span ℝ) : Prop :=
  ∃ later earlier, spans = later ++ s :: earlier ∧ Touches rate f s ∧
    ∀ s' ∈ later, ¬Touches rate f s'

lemma lastTouch_here (h : Touches rate f s) : LastTouch rate f (s :: spans) s :=
  ⟨[], spans, rfl, h, fun _ hs' => absurd hs' List.not_mem_nil⟩

lemma LastTouch.before (h : LastTouch rate f spans s) (hs' : ¬Touches rate f s') :
    LastTouch rate f (s' :: spans) s := by
  obtain ⟨later, earlier, rfl, hs, hlater⟩ := h
  refine ⟨s' :: later, earlier, rfl, hs, ?_⟩
  intro q hq
  rcases List.mem_cons.mp hq with rfl | hq
  · exact hs'
  · exact hlater q hq

/-- What holds of a run at all times: its keys show the last spans that touch their frames. -/
structure Sampled (rate : FrameRate ℝ) (r : Run ℝ) : Prop where
  timed : ∀ s ∈ r.spans, 0 ≤ s.start ∧ 0 ≤ s.duration
  unplayed : r.spans = [] → r.cursor = 0 ∧ ∀ (i : ℕ) k, r.transform.keys[i]? = some k →
    ShowsPose r.actor.yawOffset ⟨r.actor.location, r.actor.initialYaw, 0⟩ k
  played : r.spans ≠ [] → ∀ (i : ℕ) k, r.transform.keys[i]? = some k → ∃ s,
    LastTouch rate i r.spans s ∧
    ShowsPose r.actor.yawOffset (s.pose (s.momentAt rate (s.lastFrame rate) i)) k

lemma start_sampled (a : Actor ℝ) : Sampled rate (Run.start a) := by
  refine ⟨fun s hs => absurd hs List.not_mem_nil, fun _ => ⟨zero_real, ?_⟩,
    fun h => absurd rfl h⟩
  intro i k hk
  rw [start_keys, List.getElem?_toArray] at hk
  obtain rfl := List.mem_singleton.mp (List.mem_of_getElem? hk)
  have hlevel : (Run.start a).pose = ⟨a.location, a.initialYaw, 0⟩ :=
    congrArg (Pose.mk a.location a.initialYaw) zero_real
  rw [hlevel]
  exact keyOf_shows _ _ _ _

lemma Sampled.play {r : Run ℝ} (h : Sampled rate r) (hr : OnTime rate r) (hfps : 0 < rate.fps)
    (hstart : s.start = r.cursor) (hduration : 0 ≤ s.duration) : Sampled rate (r.play rate s) := by
  have hkeyed := hr.play_keyed hfps hstart hduration
  have hspans : (r.play rate s).spans = s :: r.spans := play_spans rate s r
  obtain ⟨hfirst, hlast, -⟩ := frames_of_start hfps hstart hduration
  refine ⟨?_, fun hnone => ?_, fun _ i k hk => ?_⟩
  · rw [hspans, List.forall_mem_cons, hstart]
    exact ⟨⟨hr.cursor_nonneg, hduration⟩, h.timed⟩
  · rw [hspans] at hnone
    cases hnone
  · rw [hspans, play_actor]
    by_cases hi : i < rate.frameAt r.cursor
    · -- The span starts behind this frame, so it is as it was.
      have hplayed : r.spans ≠ [] := by
        intro hnone
        rw [(h.unplayed hnone).1, frameAt_zero] at hi
        exact absurd hi (Nat.not_lt_zero i)
      rw [hkeyed.kept i hi] at hk
      obtain ⟨q, hq, hshows⟩ := h.played hplayed i k hk
      refine ⟨q, hq.before ?_, hshows⟩
      rintro ⟨hle, -⟩
      rw [hfirst] at hle
      exact absurd hi (not_lt.mpr hle)
    · have hi := not_lt.mp hi
      have hend : i < rate.frameAt (r.cursor + s.duration) + 1 := by
        rw [← hkeyed.filled.size_eq]
        exact (Array.getElem?_eq_some_iff.mp hk).1
      obtain ⟨current, hkey⟩ := hkeyed.added i hi hend
      rw [hkey, Option.some.injEq] at hk
      subst hk
      refine ⟨s, lastTouch_here ⟨hfirst ▸ hi, ?_⟩, keyOf_shows _ _ _ _⟩
      rw [hlast]
      exact Nat.le_of_lt_succ hend

lemma Sampled.advances {r r' : Run ℝ} (h : Sampled rate r) (hr : OnTime rate r)
    (hfps : 0 < rate.fps) (ha : Advances rate r r') : Sampled rate r' := by
  induction ha with
  | refl => exact h
  | tail hq hstep ih =>
    cases hstep with
    | play s hstart hduration => exact ih.play (hr.advances hfps hq) hfps hstart hduration
    | note lane index parked hparked => exact ⟨ih.timed, ih.unplayed, ih.played⟩

end Touching

section Plans

variable {m : Movie ℝ} {o : PlanOptions ℝ} {reel : Reel ℝ}

/-- The keys of a track show the last spans that touch their frames. A span shows its end on its
last frame, and before that where it is when the frame begins; only on its first frame may that be
before it starts. Without a span there is the declared pose. -/
structure KeysShow (rate : FrameRate ℝ) (a : Actor ℝ) (spans : List (Span ℝ))
    (track : TransformTrack ℝ) : Prop where
  unplayed : spans = [] → trackFrames track = [0] ∧ ∀ k ∈ track.keys,
    ShowsPose a.yawOffset ⟨a.location, a.initialYaw, 0⟩ k
  played : spans ≠ [] → ∀ k ∈ track.keys, ∃ s, LastTouch rate k.frame spans s ∧
    (k.frame = s.lastFrame rate → ShowsPose a.yawOffset (s.pose s.duration) k) ∧
    (k.frame = s.firstFrame rate → k.frame < s.lastFrame rate →
      ShowsPose a.yawOffset (s.pose (max 0 (k.frame / rate.fps - s.start))) k) ∧
    (s.firstFrame rate < k.frame → k.frame < s.lastFrame rate →
      k.frame / rate.fps - s.start ∈ Set.Icc 0 s.duration ∧
      ShowsPose a.yawOffset (s.pose (k.frame / rate.fps - s.start)) k)

lemma Sampled.keysShow {rate : FrameRate ℝ} {r : Run ℝ} (h : Sampled rate r) (hr : OnTime rate r)
    (hfps : 0 < rate.fps) : KeysShow rate r.actor r.spans r.transform := by
  refine ⟨fun hnone => ⟨?_, fun k hk => ?_⟩, fun hplayed k hk => ?_⟩
  · have hfilled := hr.filled
    rw [(h.unplayed hnone).1, frameAt_zero] at hfilled
    exact hfilled
  · obtain ⟨i, hi⟩ := Array.mem_iff_getElem?.mp hk
    exact (h.unplayed hnone).2 i k hi
  · obtain ⟨i, hi⟩ := Array.mem_iff_getElem?.mp hk
    obtain ⟨s, hlast, hshows⟩ := h.played hplayed i k hi
    have hframe : k.frame = i := hr.filled.frame_eq hi
    rw [← hframe] at hlast hshows
    obtain ⟨later, earlier, hspans, htouch, hlater⟩ := hlast
    obtain ⟨hstart, hduration⟩ := h.timed s (by rw [hspans]; simp)
    have hmoment (hlt : k.frame < s.lastFrame rate) :
        s.momentAt rate (s.lastFrame rate) k.frame = max 0 (k.frame / rate.fps - s.start) :=
      momentAt_of_le (le_duration_of_lt_lastFrame hfps (by linarith) hlt) hlt.ne
    refine ⟨s, ⟨later, earlier, hspans, htouch, hlater⟩, fun hend => ?_, fun _ hlt => ?_,
      fun hfirst hlt => ?_⟩
    · rw [hend, momentAt_last] at hshows
      exact hshows
    · rw [hmoment hlt] at hshows
      exact hshows
    · have hle := start_le_of_firstFrame_lt hfps hstart hfirst
      rw [hmoment hlt, max_eq_right (sub_nonneg.mpr hle)] at hshows
      exact ⟨⟨sub_nonneg.mpr hle, le_duration_of_lt_lastFrame hfps (by linarith) hlt⟩, hshows⟩

lemma played_chained (hv : Valid m) {last : ℕ} {s : Session ℝ} (h : played o m = .ok (last, s)) :
    ∀ r ∈ s.runs, RunChained (m.commandsFor r.actor.name) r := by
  obtain ⟨s₀, hwalk, hruns, -⟩ := played_runs hv h
  rw [hruns]
  intro r hr
  obtain ⟨q, hq, rfl⟩ := List.mem_map.mp hr
  rw [finish_actor]
  exact finish_chained (walk_chained hwalk q hq) last

lemma played_sampled (hv : Valid m) {last : ℕ} {s : Session ℝ} (h : played o m = .ok (last, s)) :
    ∀ r ∈ s.runs, Sampled m.fps r := by
  intro r hr
  exact (start_sampled r.actor).advances (onTime_start r.actor) hv.rate_pos
    ((played_follows hv h).advances_start hr)

/-- The spans that an actor plays lead by its commands on from its declared pose, and its track
shows them. -/
theorem plan_keys_show_last_span (h : m.plan o = .ok reel) :
    ∃ s, played o m = .ok (reel.lastFrame, s) ∧ s.runs.map Run.actor = m.actors ∧
      List.Forall₂ (fun (r : Run ℝ) (a : ActorReel ℝ) => a.actor = r.actor ∧
        Chained r.actor (m.commandsFor r.actor.name) r.spans r.cursor r.pose ∧
        KeysShow m.fps r.actor r.spans a.transform) s.runs reel.actors := by
  have hv := valid_of_issues_nil (issues_nil_of_plan h)
  obtain ⟨s, hplayed, hshows⟩ := plan_ok h
  have hfollows := played_follows hv hplayed
  refine ⟨s, hplayed, hfollows.actors_eq.trans (start_actors m o), ?_⟩
  rw [hshows.actors_eq, List.forall₂_map_right_iff, List.forall₂_same]
  intro r hr
  have hsampled := played_sampled hv hplayed r hr
  exact ⟨rfl, played_chained hv hplayed r hr,
    hsampled.keysShow (hfollows.onTime hv hr) hv.rate_pos⟩

theorem overstay_keys_show_last_span :
    ∃ reel, overstay.plan Settings.standard.options = .ok reel ∧
      ∃ s, played Settings.standard.options overstay = .ok (reel.lastFrame, s) ∧
        s.runs.map Run.actor = overstay.actors ∧
        List.Forall₂ (fun (r : Run ℝ) (a : ActorReel ℝ) => a.actor = r.actor ∧
          Chained r.actor (overstay.commandsFor r.actor.name) r.spans r.cursor r.pose ∧
          KeysShow overstay.fps r.actor r.spans a.transform) s.runs reel.actors := by
  obtain ⟨reel, hplan, -⟩ := overstay_plan (o := Settings.standard.options)
  exact ⟨reel, hplan, plan_keys_show_last_span hplan⟩

end Plans

end Stagecraft.Proofs
