import Stagecraft.Proofs.KeyedSpans
import Stagecraft.Proofs.SoloMovies

/-!
# Turned yaws

Every yaw that is keyed follows the one before it by the short way round, on whatever frames the
two are. A track keeps one key a frame, so from one frame to the next its yaw turns by all the
turns of the spans that touch the frame, one after another. With one span that is a turn of at
most half a circle; with more it may be any number of full ones.
-/

namespace Stagecraft.Proofs

section Turning

variable {offset : ℝ}

/-- The turns in a row that lead from a yaw through others, each of them the short way round. -/
noncomputable def turned : ℝ → List ℝ → ℝ
  | _, [] => 0
  | y, z :: rest => shortestYaw y z + turned z rest

/-- The yaw of the mesh after yaws are keyed in a row. -/
noncomputable def keyedYaw (offset start : ℝ) (yaws : List ℝ) : ℝ :=
  yaws.foldl (fun e y => unwrapYaw e (y + offset)) start

lemma keyedYaw_concat (start : ℝ) (front : List ℝ) (y : ℝ) :
    keyedYaw offset start (front ++ [y]) = unwrapYaw (keyedYaw offset start front) (y + offset) :=
  List.foldl_concat _ _ _ _

/-- The mesh turns as the actor does. -/
lemma keyedYaw_eq (y : ℝ) (turns : ℤ) (yaws : List ℝ) :
    keyedYaw offset (y + offset + 360 * turns) yaws = y + offset + 360 * turns + turned y yaws := by
  induction yaws generalizing y turns with
  | nil => exact (add_zero _).symm
  | cons z rest ih =>
    obtain ⟨around, haround⟩ := unwrapYaw_real (y + offset + 360 * turns) (z + offset)
    have hstep : y + offset + 360 * turns + shortestYaw y z = z + offset + 360 * around := by
      rw [← haround, unwrapYaw, shortestYaw_mesh]
    have hrest := ih z around
    change keyedYaw offset (unwrapYaw (y + offset + 360 * turns) (z + offset)) rest = _
    rw [haround, hrest, turned, ← hstep]
    ring

lemma keyedYaw_last {start y : ℝ} {yaws : List ℝ} (h : yaws.getLast? = some y) :
    ∃ turns : ℤ, keyedYaw offset start yaws = y + offset + 360 * turns := by
  obtain ⟨front, rfl⟩ := List.getLast?_eq_some_iff.mp h
  rw [keyedYaw_concat]
  exact unwrapYaw_real _ _

lemma turned_le (y : ℝ) (yaws : List ℝ) : |turned y yaws| ≤ 180 * yaws.length := by
  induction yaws generalizing y with
  | nil => simp [turned]
  | cons z rest ih =>
    have hshort := abs_shortestYaw_le_half y z
    have hrest := ih z
    have hsum := abs_add_le (shortestYaw y z) (turned z rest)
    rw [turned, List.length_cons]
    push_cast
    linarith

end Turning

section Keys

variable {offset start emitted : ℝ} {yaws : ℕ → List ℝ} {n g : ℕ} {track : TransformTrack ℝ}

/-- The yaw of the key in front of a frame, and the one to start from before the first. -/
noncomputable def yawBefore (start : ℝ) (track : TransformTrack ℝ) : ℕ → ℝ
  | 0 => start
  | f + 1 => ((track.keys[f]?).map fun k => k.transform.rotation.yaw).getD start

lemma yawBefore_succ {k : TransformKey ℝ} (h : track.keys[g]? = some k) :
    yawBefore start track (g + 1) = k.transform.rotation.yaw := by
  rw [yawBefore, h]
  rfl

/-- What holds of a track when some yaws have been keyed at each frame: each key comes from the one
before it by those of its frame, and the last one was emitted last. -/
structure KeyedYaws (offset start : ℝ) (yaws : ℕ → List ℝ) (n : ℕ) (emitted : ℝ)
    (track : TransformTrack ℝ) : Prop where
  filled : Filled track (n + 1)
  keyed : ∀ i ≤ n, yaws i ≠ []
  ahead : ∀ i, n < i → yaws i = []
  yaw_eq : ∀ (i : ℕ) k, track.keys[i]? = some k →
    k.transform.rotation.yaw = keyedYaw offset (yawBefore start track i) (yaws i)
  emitted_eq : yawBefore start track (n + 1) = emitted

/-- The yaws of each frame, when one more is keyed. -/
def logged (yaws : ℕ → List ℝ) (g : ℕ) (y : ℝ) (i : ℕ) : List ℝ :=
  if i = g then yaws i ++ [y] else yaws i

/-- The yaws of each frame, when `k` frames from one on are keyed. -/
def loggedOver (yaws : ℕ → List ℝ) (g k : ℕ) (y : ℕ → ℝ) (i : ℕ) : List ℝ :=
  yaws i ++ if g ≤ i ∧ i < g + k then [y i] else []

lemma loggedOver_one (yaws : ℕ → List ℝ) (g : ℕ) (y : ℕ → ℝ) :
    loggedOver yaws g 1 y = logged yaws g (y g) := by
  funext i
  unfold loggedOver logged
  by_cases hi : i = g
  · subst hi
    rw [if_pos rfl, if_pos ⟨le_rfl, Nat.lt_succ_self i⟩]
  · rw [if_neg hi, if_neg (by omega), List.append_nil]

lemma loggedOver_succ (yaws : ℕ → List ℝ) (g k : ℕ) (y : ℕ → ℝ) :
    loggedOver yaws g (k + 1) y = loggedOver (logged yaws g (y g)) (g + 1) k y := by
  funext i
  unfold loggedOver logged
  by_cases hi : i = g
  · subst hi
    rw [if_pos rfl, if_pos (by omega), if_neg (by omega), List.append_nil]
  · rw [if_neg hi]
    by_cases hin : g ≤ i ∧ i < g + (k + 1)
    · rw [if_pos hin, if_pos (by omega)]
    · rw [if_neg hin, if_neg (by omega)]

/-- The last frame and the one behind it go on from what was emitted last. -/
lemma KeyedYaws.emitted_at (h : KeyedYaws offset start yaws n emitted track)
    (hg : g = n ∨ g = n + 1) :
    emitted = keyedYaw offset (yawBefore start track g) (yaws g) := by
  rcases hg with rfl | rfl
  · obtain ⟨k, hk, -⟩ := h.filled.exists_key (Nat.lt_succ_self g)
    rw [← h.emitted_eq, ← h.yaw_eq g k hk, yawBefore_succ hk]
  · rw [h.ahead (n + 1) (Nat.lt_succ_self n), h.emitted_eq]
    rfl

/-- A key goes to the last frame, in place of the one there, or to the next. -/
lemma push_getElem? (h : Filled track (n + 1)) (hg : g = n ∨ g = n + 1) {k : TransformKey ℝ}
    (hk : k.frame = g) : Filled (track.push k) (g + 1) ∧ (track.push k).keys[g]? = some k ∧
      ∀ i < g, (track.push k).keys[i]? = track.keys[i]? := by
  rcases hg with rfl | rfl
  · exact ⟨h.push_last_filled hk, h.push_last_getElem? hk⟩
  · exact ⟨h.push_next_filled hk, h.push_next_getElem? hk⟩

lemma KeyedYaws.key {r : Run ℝ} (hactor : r.actor.yawOffset = offset)
    (h : KeyedYaws offset start yaws n r.emittedYaw r.transform) (hg : g = n ∨ g = n + 1)
    (p : Pose ℝ) :
    KeyedYaws offset start (logged yaws g p.yaw) g (r.key g p).emittedYaw
      (r.key g p).transform := by
  subst hactor
  obtain ⟨hfilled, hlast, hkept⟩ := push_getElem? h.filled hg
    (k := keyOf r.actor.yawOffset r.emittedYaw g p) rfl
  have hbefore : ∀ i ≤ g, yawBefore start (r.key g p).transform i =
      yawBefore start r.transform i := by
    intro i hi
    cases i with
    | zero => rfl
    | succ i =>
      exact congrArg (fun k => (k.map fun k => k.transform.rotation.yaw).getD start) (hkept i hi)
  refine ⟨hfilled, fun i hi => ?_, fun i hi => ?_, fun i k hk => ?_, yawBefore_succ hlast⟩
  · unfold logged
    split
    next => exact List.append_ne_nil_of_right_ne_nil _ (List.cons_ne_nil _ _)
    next hne => exact h.keyed i (by omega)
  · rw [logged, if_neg hi.ne']
    exact h.ahead i (by omega)
  · have hi : i < g + 1 := by
      rw [← hfilled.size_eq]
      exact (Array.getElem?_eq_some_iff.mp hk).1
    rw [hbefore i (Nat.le_of_lt_succ hi), logged]
    rcases (Nat.le_of_lt_succ hi).eq_or_lt with rfl | hlt
    · have hkey := hlast.symm.trans hk
      rw [Option.some.injEq] at hkey
      rw [if_pos rfl, keyedYaw_concat, ← h.emitted_at hg, ← hkey]
      rfl
    · rw [if_neg hlt.ne]
      exact h.yaw_eq i k ((hkept i hlt).symm.trans hk)

/-- A stretch of frames is keyed from the last one or from the next. -/
lemma KeyedYaws.keyFrames (p : ℕ → Pose ℝ) {r : Run ℝ} (hactor : r.actor.yawOffset = offset)
    (h : KeyedYaws offset start yaws n r.emittedYaw r.transform) (hg : g = n ∨ g = n + 1) (k : ℕ) :
    KeyedYaws offset start (loggedOver yaws g (k + 1) fun i => (p i).yaw) (g + k)
      (keyAll p (List.range' g (k + 1)) r).emittedYaw
      (keyAll p (List.range' g (k + 1)) r).transform := by
  induction k generalizing n g yaws r with
  | zero =>
    rw [loggedOver_one]
    exact h.key hactor hg (p g)
  | succ k ih =>
    have hstep := h.key hactor hg (p g)
    have hrest := ih (r := r.key g (p g)) hactor hstep (Or.inr rfl)
    rw [List.range'_succ, loggedOver_succ, show g + (k + 1) = g + 1 + k by omega]
    exact hrest

end Keys

section Spans

variable {rate : FrameRate ℝ} {a : Actor ℝ} {s : Span ℝ} {spans : List (Span ℝ)} {f : ℕ}

/-- The yaw of a span at a frame that it touches. -/
noncomputable def shownYaw? (rate : FrameRate ℝ) (f : ℕ) (s : Span ℝ) : Option ℝ :=
  if Touches rate f s then some (s.pose (s.momentAt rate (s.lastFrame rate) f)).yaw else none

/-- The yaws of an actor at a frame in the order they are keyed: the declared one at the start, and
those of the spans, given latest first, that touch the frame. -/
noncomputable def yawsAt (rate : FrameRate ℝ) (a : Actor ℝ) (spans : List (Span ℝ)) (f : ℕ) :
    List ℝ :=
  (if f = 0 then [a.initialYaw] else []) ++ spans.reverse.filterMap (shownYaw? rate f)

lemma yawsAt_cons (rate : FrameRate ℝ) (a : Actor ℝ) (s : Span ℝ) (spans : List (Span ℝ)) :
    yawsAt rate a (s :: spans) f = yawsAt rate a spans f ++ (shownYaw? rate f s).toList := by
  unfold yawsAt
  rw [List.reverse_cons, List.filterMap_append, List.append_assoc]
  congr 2

/-- A span is keyed at the frames it touches. -/
lemma loggedOver_span (h : s.firstFrame rate ≤ s.lastFrame rate) :
    loggedOver (yawsAt rate a spans) (s.firstFrame rate)
      (s.lastFrame rate - s.firstFrame rate + 1)
      (fun i => (s.pose (s.momentAt rate (s.lastFrame rate) i)).yaw) =
      yawsAt rate a (s :: spans) := by
  funext i
  rw [yawsAt_cons]
  unfold loggedOver shownYaw?
  by_cases hi : Touches rate i s
  · have hin := hi
    obtain ⟨hfirst, hlast⟩ := hin
    rw [if_pos hi, if_pos (by omega)]
    rfl
  · have hout : ¬(s.firstFrame rate ≤ i ∧
        i < s.firstFrame rate + (s.lastFrame rate - s.firstFrame rate + 1)) := by
      rintro ⟨hfirst, hlast⟩
      exact hi ⟨hfirst, by omega⟩
    rw [if_neg hi, if_neg hout]
    rfl

/-- What holds of a run at all times: its track is keyed from the yaws of its spans. -/
def YawsKeyed (rate : FrameRate ℝ) (r : Run ℝ) : Prop :=
  KeyedYaws r.actor.yawOffset (r.actor.initialYaw + r.actor.yawOffset)
    (yawsAt rate r.actor r.spans) (rate.frameAt r.cursor) r.emittedYaw r.transform

lemma start_yawsKeyed (a : Actor ℝ) : YawsKeyed rate (Run.start a) := by
  have hkeys := start_keys a
  have hfilled : Filled (Run.start a).transform (rate.frameAt (Run.start a).cursor + 1) :=
    (onTime_start a).filled
  have hzero : rate.frameAt (Run.start a).cursor = 0 :=
    (congrArg rate.frameAt zero_real).trans frameAt_zero
  have hyaws (i : ℕ) : yawsAt rate (Run.start a).actor (Run.start a).spans i =
      if i = 0 then [a.initialYaw] else [] := List.append_nil _
  unfold YawsKeyed
  rw [hzero] at hfilled ⊢
  refine ⟨hfilled, fun i hi => ?_, fun i hi => ?_, fun i k hk => ?_, ?_⟩
  · rw [hyaws, if_pos (Nat.le_zero.mp hi)]
    exact List.cons_ne_nil _ _
  · rw [hyaws, if_neg hi.ne']
  · have hi : i = 0 := by
      have hlt := (Array.getElem?_eq_some_iff.mp hk).1
      rw [hfilled.size_eq] at hlt
      omega
    subst hi
    rw [hkeys] at hk
    cases hk
    rfl
  · rw [yawBefore, hkeys]
    rfl

lemma play_emittedYaw (rate : FrameRate ℝ) (s : Span ℝ) (r : Run ℝ) :
    (r.play rate s).emittedYaw = (r.sample rate s).emittedYaw := by
  obtain ⟨clip, animation, h⟩ := animate_eq rate s (r.sample rate s)
  unfold Run.play
  rw [h]

lemma YawsKeyed.play {r : Run ℝ} (h : YawsKeyed rate r) (hfps : 0 < rate.fps)
    (hstart : s.start = r.cursor) (hduration : 0 ≤ s.duration) :
    YawsKeyed rate (r.play rate s) := by
  obtain ⟨hfirst, hlast, hle⟩ := frames_of_start hfps hstart hduration
  have hkeyed := KeyedYaws.keyFrames (fun i => s.pose (s.momentAt rate (s.lastFrame rate) i))
    rfl h (Or.inl hfirst) (s.lastFrame rate - s.firstFrame rate)
  rw [loggedOver_span hle, Nat.add_sub_cancel' hle] at hkeyed
  unfold YawsKeyed
  rw [play_actor, play_spans, play_cursor, play_emittedYaw, play_transform, ← hlast,
    sample_eq_keyAll, Nat.sub_add_comm hle]
  exact hkeyed

lemma YawsKeyed.advances {r r' : Run ℝ} (h : YawsKeyed rate r) (hfps : 0 < rate.fps)
    (ha : Advances rate r r') : YawsKeyed rate r' := by
  induction ha with
  | refl => exact h
  | tail _ hstep ih =>
    cases hstep with
    | play s hstart hduration => exact ih.play hfps hstart hduration
    | note lane index parked hparked => exact ih

/-- How the yaw of a track goes on from key to key. A key has the last yaw of its frame, up to full
turns; the next one is ahead of it by the turns that lead from there through all the yaws of its
own frame, which is a turn of at most half a circle for each of them. -/
structure TurnsByYaws (rate : FrameRate ℝ) (a : Actor ℝ) (spans : List (Span ℝ))
    (track : TransformTrack ℝ) : Prop where
  shown : ∀ (f : ℕ) k, track.keys[f]? = some k → k.frame = f ∧
    ∃ y, (yawsAt rate a spans f).getLast? = some y ∧
      ∃ turns : ℤ, k.transform.rotation.yaw = y + a.yawOffset + 360 * turns
  turns : ∀ (f : ℕ) k k', track.keys[f]? = some k → track.keys[f + 1]? = some k' →
    ∃ y, (yawsAt rate a spans f).getLast? = some y ∧
      k'.transform.rotation.yaw - k.transform.rotation.yaw =
        turned y (yawsAt rate a spans (f + 1))
  near : ∀ (f : ℕ) k k', track.keys[f]? = some k → track.keys[f + 1]? = some k' →
    |k'.transform.rotation.yaw - k.transform.rotation.yaw| ≤
      180 * (yawsAt rate a spans (f + 1)).length

lemma YawsKeyed.turnsByYaws {r : Run ℝ} (h : YawsKeyed rate r) :
    TurnsByYaws rate r.actor r.spans r.transform := by
  have hshown (f : ℕ) (k : TransformKey ℝ) (hk : r.transform.keys[f]? = some k) :
      ∃ y, (yawsAt rate r.actor r.spans f).getLast? = some y ∧
        ∃ turns : ℤ, k.transform.rotation.yaw = y + r.actor.yawOffset + 360 * turns := by
    have hf : f < rate.frameAt r.cursor + 1 := by
      rw [← h.filled.size_eq]
      exact (Array.getElem?_eq_some_iff.mp hk).1
    have hyaws := h.keyed f (Nat.le_of_lt_succ hf)
    refine ⟨_, List.getLast?_eq_some_getLast hyaws, ?_⟩
    rw [h.yaw_eq f k hk]
    exact keyedYaw_last (List.getLast?_eq_some_getLast hyaws)
  have hturns (f : ℕ) (k k' : TransformKey ℝ) (hk : r.transform.keys[f]? = some k)
      (hk' : r.transform.keys[f + 1]? = some k') :
      ∃ y, (yawsAt rate r.actor r.spans f).getLast? = some y ∧
        k'.transform.rotation.yaw - k.transform.rotation.yaw =
          turned y (yawsAt rate r.actor r.spans (f + 1)) := by
    obtain ⟨y, hy, around, hyaw⟩ := hshown f k hk
    refine ⟨y, hy, ?_⟩
    rw [h.yaw_eq (f + 1) k' hk', yawBefore_succ hk, hyaw, keyedYaw_eq]
    exact add_sub_cancel_left _ _
  refine ⟨fun f k hk => ⟨h.filled.frame_eq hk, hshown f k hk⟩, hturns, fun f k k' hk hk' => ?_⟩
  obtain ⟨y, -, hyaw⟩ := hturns f k k' hk hk'
  rw [hyaw]
  exact turned_le y _

end Spans

section Plans

variable {m : Movie ℝ} {o : PlanOptions ℝ} {reel : Reel ℝ}

lemma played_turnsByYaws (hv : Valid m) {s : Session ℝ} (hs : Follows (Session.start m o) s)
    {r : Run ℝ} (hr : r ∈ s.runs) : TurnsByYaws m.fps r.actor r.spans r.transform :=
  ((start_yawsKeyed r.actor).advances hv.rate_pos (hs.advances_start hr)).turnsByYaws

/-- The tracks of a plan turn by the yaws of the spans that its actors play. A track jumps from one
frame to the next where several spans touch the later one and their turns add up. -/
theorem plan_turns_by_yaws (h : m.plan o = .ok reel) :
    ∃ s, played o m = .ok (reel.lastFrame, s) ∧ s.runs.map Run.actor = m.actors ∧
      List.Forall₂ (fun (r : Run ℝ) (a : ActorReel ℝ) => a.actor = r.actor ∧
        Chained r.actor (m.commandsFor r.actor.name) r.spans r.cursor r.pose ∧
        TurnsByYaws m.fps r.actor r.spans a.transform) s.runs reel.actors := by
  have hv := valid_of_issues_nil (issues_nil_of_plan h)
  obtain ⟨s, hplayed, hactors, hfollows, hreels⟩ := plan_actors h
  refine ⟨s, hplayed, hactors, hreels.imp ?_⟩
  rintro r a ⟨hr, rfl⟩
  exact ⟨rfl, played_chained hv hplayed r hr, played_turnsByYaws hv hfollows hr⟩

end Plans

section Pirouette

variable {o : PlanOptions ℝ}

def turnTo (degrees seconds : ℝ) : FaceCommand ℝ := ⟨.yaw degrees, .seconds seconds, none⟩

/-- A third of a circle in a second, and two more at once. -/
noncomputable def pirouette : Movie ℝ :=
  { Movie.empty "pirouette" 1 with
    actors := [Actor.named "A"]
    script :=
      [.actor ⟨"A", [.face (turnTo 120 1)]⟩, .actor ⟨"A", [.face (turnTo 240 0)]⟩,
        .actor ⟨"A", [.face (turnTo 0 0)]⟩] }

lemma pirouette_issues : pirouette.issues = [] := by
  have hsolo : pirouette = solo "pirouette"
      [.face (turnTo 120 1), .face (turnTo 240 0), .face (turnTo 0 0)] := rfl
  rw [hsolo]
  apply solo_issues
  simp only [List.forall_mem_cons]
  exact ⟨⟨fun _ _ => rfl, rfl⟩, ⟨fun _ _ => rfl, rfl⟩, ⟨fun _ _ => rfl, rfl⟩,
    fun _ hc => absurd hc List.not_mem_nil⟩

/-- A span that turns evenly from a yaw. -/
structure TurnSpan (start duration y turn : ℝ) (s : Span ℝ) : Prop where
  start_eq : s.start = start
  duration_eq : s.duration = duration
  yaw_eq : ∀ t, (s.pose t).yaw = y + turn * Span.fraction duration t

lemma TurnSpan.shownYaw?_last {start duration y turn : ℝ} {s : Span ℝ}
    (h : TurnSpan start duration y turn s) (rate : FrameRate ℝ)
    (hle : rate.frameAt start ≤ rate.frameAt (start + duration)) :
    shownYaw? rate (rate.frameAt (start + duration)) s = some (y + turn) := by
  have hlast : s.lastFrame rate = rate.frameAt (start + duration) := by
    rw [Span.lastFrame, h.start_eq, h.duration_eq]
  have htouch : Touches rate (rate.frameAt (start + duration)) s := by
    refine ⟨?_, hlast.ge⟩
    rw [Span.firstFrame, h.start_eq]
    exact hle
  rw [shownYaw?, if_pos htouch, ← hlast, momentAt_last, h.yaw_eq, h.duration_eq, fraction_end,
    mul_one]

lemma pirouette_turns {s : Session ℝ} {a : Run ℝ} (h : Alone pirouette o s a)
    {degrees seconds turn : ℝ} (hseconds : 0 ≤ seconds)
    (hturn : shortestYaw a.pose.yaw degrees = turn) :
    ∃ s' a' q, s.block (.actor ⟨"A", [.face (turnTo degrees seconds)]⟩) = .ok s' ∧
      Alone pirouette o s' a' ∧ a'.cursor = a.cursor + seconds ∧
      a'.pose.yaw = a.pose.yaw + turn ∧ a'.spans = q :: a.spans ∧
      TurnSpan a.cursor seconds a.pose.yaw turn q := by
  have hlong : Scalar.larger (turnTo degrees seconds).duration.internal
      (@OfNat.ofNat ℝ 0 Scalar.instOfNat) = seconds := by
    rw [turnTo, seconds_real, larger_zero_of_nonneg hseconds]
  let q : Span ℝ := ⟨a.cursor, seconds, Run.turnPose a.pose turn seconds, none⟩
  let a₀ : Run ℝ := { a with nextIndex := a.nextIndex + 1 }
  have hobey : obey s a.nextIndex a₀ (.face (turnTo degrees seconds)) =
      .ok (a₀.play s.movie.fps q, []) := by
    have hface : a₀.face s.movie.fps (turnTo degrees seconds) degrees =
        a₀.play s.movie.fps q := by
      unfold Run.face
      rw [hlong]
      exact congrArg (fun turn => a₀.play s.movie.fps ⟨a.cursor, seconds,
        Run.turnPose a.pose turn seconds, none⟩) hturn
    change Except.ok (a₀.face s.movie.fps (turnTo degrees seconds) degrees, []) = _
    rw [hface]
  obtain ⟨s', hblock, h'⟩ := h.obey (valid_of_issues_nil pirouette_issues) hobey
    ((play_parked _ _ _).trans h.parked_eq)
  refine ⟨s', _, q, hblock, h', play_cursor _ _ _, ?_, play_spans _ _ _, rfl, rfl, fun t => rfl⟩
  rw [play_pose]
  change a.pose.yaw + turn * Span.fraction seconds seconds = _
  rw [fraction_end, mul_one]

/-- All three turns are played, each from where the one before it led. -/
lemma pirouette_walk : ∃ s a q₁ q₂ q₃, walk o pirouette = .ok s ∧ Alone pirouette o s a ∧
    a.cursor = 1 ∧ a.spans = [q₃, q₂, q₁] ∧
    TurnSpan 0 1 0 120 q₁ ∧ TurnSpan 1 0 120 120 q₂ ∧ TurnSpan 1 0 240 120 q₃ := by
  have hcursor : (Run.start (Actor.named "A") : Run ℝ).cursor = 0 := zero_real
  have hyaw : (Run.start (Actor.named "A") : Run ℝ).pose.yaw = 0 := zero_real
  have hshort : (120 : ℝ) ∈ Set.Ioc (-180 : ℝ) 180 := by
    constructor <;> norm_num
  have hturn₁ : shortestYaw (Run.start (Actor.named "A") : Run ℝ).pose.yaw 120 = 120 :=
    shortestYaw_eq hshort 0 (by rw [hyaw]; norm_num)
  obtain ⟨s₁, a₁, q₁, hfirst, h₁, hcursor₁, hyaw₁, hspans₁, hq₁⟩ :=
    pirouette_turns (o := o) ⟨.refl _, rfl, rfl, rfl, rfl⟩ zero_le_one hturn₁
  rw [hyaw, zero_add] at hyaw₁
  rw [hcursor, zero_add] at hcursor₁
  have hturn₂ : shortestYaw a₁.pose.yaw 240 = 120 :=
    shortestYaw_eq hshort 0 (by rw [hyaw₁]; norm_num)
  obtain ⟨s₂, a₂, q₂, hsecond, h₂, hcursor₂, hyaw₂, hspans₂, hq₂⟩ :=
    pirouette_turns h₁ le_rfl hturn₂
  norm_num [hyaw₁] at hyaw₂
  rw [hcursor₁, add_zero] at hcursor₂
  have hturn₃ : shortestYaw a₂.pose.yaw 0 = 120 :=
    shortestYaw_eq hshort (-1) (by rw [hyaw₂]; norm_num)
  obtain ⟨s₃, a₃, q₃, hthird, h₃, hcursor₃, -, hspans₃, hq₃⟩ := pirouette_turns h₂ le_rfl hturn₃
  rw [hcursor₂, add_zero] at hcursor₃
  refine ⟨s₃, a₃, q₁, q₂, q₃, ?_, h₃, hcursor₃, by rw [hspans₃, hspans₂, hspans₁]; rfl, ?_, ?_, ?_⟩
  · exact bind_eq_ok.mpr
      ⟨s₁, hfirst, bind_eq_ok.mpr ⟨s₂, hsecond, bind_eq_ok.mpr ⟨s₃, hthird, rfl⟩⟩⟩
  · rw [hcursor, hyaw] at hq₁
    exact hq₁
  · rw [hcursor₁, hyaw₁] at hq₂
    exact hq₂
  · rw [hcursor₂, hyaw₂] at hq₃
    exact hq₃

/-- On the later frame the yaws of all three turns are keyed. -/
lemma pirouette_yawsAt {a : Actor ℝ} {q₁ q₂ q₃ : Span ℝ} (h₁ : TurnSpan 0 1 0 120 q₁)
    (h₂ : TurnSpan 1 0 120 120 q₂) (h₃ : TurnSpan 1 0 240 120 q₃) :
    yawsAt pirouette.fps a [q₃, q₂, q₁] 0 = [a.initialYaw, 0] ∧
      yawsAt pirouette.fps a [q₃, q₂, q₁] 1 = [120, 240, 360] := by
  have hfps : pirouette.fps.fps = 1 := rfl
  have hzero : pirouette.fps.frameAt 0 = 0 := frameAt_zero
  have hone : pirouette.fps.frameAt 1 = 1 := by
    exact_mod_cast frameAt_natCast hfps 1
  have hlast₁ := h₁.shownYaw?_last pirouette.fps (by rw [zero_add, hzero]; exact Nat.zero_le _)
  have hlast₂ := h₂.shownYaw?_last pirouette.fps (by rw [add_zero])
  have hlast₃ := h₃.shownYaw?_last pirouette.fps (by rw [add_zero])
  rw [zero_add, hone] at hlast₁
  rw [add_zero, hone] at hlast₂ hlast₃
  have hfirst₁ : shownYaw? pirouette.fps 0 q₁ = some 0 := by
    have hend : q₁.lastFrame pirouette.fps = 1 := by
      rw [Span.lastFrame, h₁.start_eq, h₁.duration_eq, zero_add, hone]
    have hstart : q₁.firstFrame pirouette.fps = 0 := by
      rw [Span.firstFrame, h₁.start_eq, hzero]
    have hmoment : q₁.momentAt pirouette.fps 1 0 = 0 := by
      rw [momentAt_of_le, h₁.start_eq]
      · simp
      · rw [h₁.start_eq, h₁.duration_eq]
        simp
      · exact zero_ne_one
    rw [shownYaw?, if_pos ⟨hstart.le, Nat.zero_le _⟩, hend, hmoment, h₁.yaw_eq,
      fraction_start (by norm_num)]
    norm_num
  have hlate {y : ℝ} {q : Span ℝ} (h : TurnSpan 1 0 y 120 q) :
      shownYaw? pirouette.fps 0 q = none := by
    have hout : ¬Touches pirouette.fps 0 q := by
      rintro ⟨hfirst, -⟩
      rw [Span.firstFrame, h.start_eq, hone] at hfirst
      exact absurd hfirst (by omega)
    rw [shownYaw?, if_neg hout]
  unfold yawsAt
  constructor
  · simp [hfirst₁, hlate h₂, hlate h₃]
  · simp [hlast₁, hlast₂, hlast₃]
    norm_num

theorem pirouette_turns_by_yaws :
    ∃ reel, pirouette.plan Settings.standard.options = .ok reel ∧
      ∃ s, played Settings.standard.options pirouette = .ok (reel.lastFrame, s) ∧
        s.runs.map Run.actor = pirouette.actors ∧
        List.Forall₂ (fun (r : Run ℝ) (a : ActorReel ℝ) => a.actor = r.actor ∧
          Chained r.actor (pirouette.commandsFor r.actor.name) r.spans r.cursor r.pose ∧
          TurnsByYaws pirouette.fps r.actor r.spans a.transform) s.runs reel.actors := by
  obtain ⟨s, a, q₁, q₂, q₃, hwalk, halone, -⟩ := pirouette_walk (o := Settings.standard.options)
  obtain ⟨reel, s', hplan, -⟩ := halone.plan pirouette_issues rfl hwalk
  exact ⟨reel, hplan, plan_turns_by_yaws hplan⟩

/-- Between two frames the yaw jumps by a full circle. -/
theorem pirouette_jumps : ∃ reel, pirouette.plan Settings.standard.options = .ok reel ∧
    ∃ a ∈ reel.actors, ∃ k k', a.transform.keys[0]? = some k ∧ a.transform.keys[1]? = some k' ∧
      k'.transform.rotation.yaw - k.transform.rotation.yaw = 360 := by
  obtain ⟨s, r, q₁, q₂, q₃, hwalk, halone, hcursor, hspans, hq₁, hq₂, hq₃⟩ :=
    pirouette_walk (o := Settings.standard.options)
  obtain ⟨reel, s', hplan, -, -, ha⟩ := halone.plan pirouette_issues rfl hwalk
  have hv := valid_of_issues_nil pirouette_issues
  have hframe : pirouette.fps.frameAt 1 = 1 := by
    exact_mod_cast frameAt_natCast (show pirouette.fps.fps = 1 from rfl) 1
  have hfilled := (halone.onTime hv).filled
  rw [hcursor, hframe] at hfilled
  obtain ⟨k, hk, -⟩ := hfilled.exists_key (show 0 < 1 + 1 by omega)
  obtain ⟨k', hk', -⟩ := hfilled.exists_key (show 1 < 1 + 1 by omega)
  obtain ⟨y, hy, hjump⟩ :=
    (played_turnsByYaws hv halone.follows (by simp [halone.runs_eq])).turns 0 k k' hk hk'
  obtain ⟨hzeroth, hfirst⟩ := pirouette_yawsAt hq₁ hq₂ hq₃
  rw [halone.actor_eq, hspans, hzeroth] at hy
  cases hy
  refine ⟨reel, hplan, _, ha, k, k', hk, hk', hjump.trans ?_⟩
  rw [halone.actor_eq, hspans, hfirst]
  have hshort : (120 : ℝ) ∈ Set.Ioc (-180 : ℝ) 180 := by
    constructor <;> norm_num
  have hturn {y z : ℝ} (h : z = y + 120) : shortestYaw y z = 120 :=
    shortestYaw_eq hshort 0 (by rw [h]; simp)
  rw [turned, turned, turned, turned, hturn (by norm_num), hturn (by norm_num),
    hturn (by norm_num)]
  norm_num

end Pirouette

end Stagecraft.Proofs
