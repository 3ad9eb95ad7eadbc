import Mathlib.Logic.Relation
import Stagecraft.Plan.Run
import Stagecraft.Proofs.FilledTracks

/-!
# Runs of an actor

A span played from the cursor keys every frame from the cursor's frame to the frame where the span
ends, and nothing else. `Advance` lists what can happen to a run, and `OnTime` is what holds of it
at all times: its track has one key at each frame up to that of its cursor, and the last of them
shows where the actor is.
-/

namespace Stagecraft.Proofs

section Keying

variable {K : Type} [Scalar K]

/-- Keys a pose at each of some frames. -/
def keyAll (g : ℕ → Pose K) (frames : List ℕ) (r : Run K) : Run K :=
  frames.foldl (fun r f => r.key f (g f)) r

lemma keyAll_eq (g : ℕ → Pose K) (frames : List ℕ) (r : Run K) :
    ∃ yaw track, keyAll g frames r = { r with emittedYaw := yaw, transform := track } := by
  induction frames generalizing r with
  | nil => exact ⟨r.emittedYaw, r.transform, rfl⟩
  | cons f frames ih =>
    obtain ⟨yaw, track, h⟩ := ih (r.key f (g f))
    exact ⟨yaw, track, h⟩

lemma sample_eq_keyAll (rate : FrameRate K) (s : Span K) (r : Run K) :
    r.sample rate s = keyAll (fun f => s.pose (s.momentAt rate (s.lastFrame rate) f))
      (List.range' (s.firstFrame rate) (s.lastFrame rate + 1 - s.firstFrame rate)) r := rfl

lemma animate_eq (rate : FrameRate K) (s : Span K) (r : Run K) :
    ∃ clip track, r.animate rate s = { r with clip := clip, animation := track } := by
  unfold Run.animate
  cases h : s.clip.or r.clip with
  | none => exact ⟨r.clip, r.animation, rfl⟩
  | some c => exact ⟨some c, _, rfl⟩

/-- All that playing a span leaves behind, apart from the yaw and the clip in effect. -/
lemma play_eq (rate : FrameRate K) (s : Span K) (r : Run K) :
    ∃ yaw clip animation, r.play rate s =
      { r with
        pose := s.pose s.duration
        cursor := r.cursor + s.duration
        spans := s :: r.spans
        transform := (r.sample rate s).transform
        emittedYaw := yaw
        clip := clip
        animation := animation } := by
  obtain ⟨yaw, track, hkey⟩ := keyAll_eq (fun f => s.pose (s.momentAt rate (s.lastFrame rate) f))
    (List.range' (s.firstFrame rate) (s.lastFrame rate + 1 - s.firstFrame rate)) r
  obtain ⟨clip, animation, hclip⟩ := animate_eq rate s (r.sample rate s)
  refine ⟨yaw, clip, animation, ?_⟩
  unfold Run.play
  rw [hclip, sample_eq_keyAll, hkey]

variable (rate : FrameRate K) (s : Span K) (r : Run K)

@[simp] lemma play_actor : (r.play rate s).actor = r.actor := by
  obtain ⟨_, _, _, h⟩ := play_eq rate s r
  rw [h]

@[simp] lemma play_pose : (r.play rate s).pose = s.pose s.duration := by
  obtain ⟨_, _, _, h⟩ := play_eq rate s r
  rw [h]

@[simp] lemma play_cursor : (r.play rate s).cursor = r.cursor + s.duration := by
  obtain ⟨_, _, _, h⟩ := play_eq rate s r
  rw [h]

@[simp] lemma play_lane : (r.play rate s).lane = r.lane := by
  obtain ⟨_, _, _, h⟩ := play_eq rate s r
  rw [h]

@[simp] lemma play_nextIndex : (r.play rate s).nextIndex = r.nextIndex := by
  obtain ⟨_, _, _, h⟩ := play_eq rate s r
  rw [h]

@[simp] lemma play_parked : (r.play rate s).parked = r.parked := by
  obtain ⟨_, _, _, h⟩ := play_eq rate s r
  rw [h]

@[simp] lemma play_spans : (r.play rate s).spans = s :: r.spans := by
  obtain ⟨_, _, _, h⟩ := play_eq rate s r
  rw [h]

@[simp] lemma play_transform : (r.play rate s).transform = (r.sample rate s).transform := by
  obtain ⟨_, _, _, h⟩ := play_eq rate s r
  rw [h]

end Keying

section Tracks

variable {K : Type} [Scalar K]

/-- The key of a pose at a frame, where the yaw is brought near the yaw `current` before it. -/
def keyOf (offset current : K) (frame : ℕ) (p : Pose K) : TransformKey K :=
  ⟨frame, ⟨p.location, ⟨p.pitch, unwrapYaw current (p.yaw + offset), 0⟩⟩⟩

lemma start_keys (a : Actor K) : (Run.start a).transform.keys =
    #[keyOf a.yawOffset (a.initialYaw + a.yawOffset) 0 (Run.start a).pose] :=
  Filled.empty.push_next rfl

/-- The keys from frame `n` up to `m` show the poses of `g`, and those before are as they were. -/
structure KeyedOver (offset : K) (n m : ℕ) (g : ℕ → Pose K) (before after : TransformTrack K) :
    Prop where
  filled : Filled after m
  kept : ∀ i, i < n → after.keys[i]? = before.keys[i]?
  added : ∀ i, n ≤ i → i < m → ∃ current, after.keys[i]? = some (keyOf offset current i (g i))

/-- Keying the frames that follow a filled track appends their poses. -/
lemma keyAll_next (g : ℕ → Pose K) (n k : ℕ) (r : Run K) (h : Filled r.transform n) :
    KeyedOver r.actor.yawOffset n (n + k) g r.transform
      (keyAll g (List.range' n k) r).transform := by
  induction k generalizing n r with
  | zero => exact ⟨h, fun _ _ => rfl, fun i hn hm => absurd hm (by omega)⟩
  | succ k ih =>
    have hkeys : (r.key n (g n)).transform.keys = r.transform.keys.push _ := h.push_next rfl
    have hstep : Filled (r.key n (g n)).transform (n + 1) := h.push_next_filled rfl
    have hrest := ih (n + 1) (r.key n (g n)) hstep
    have hbefore : ∀ i, i < n → (r.key n (g n)).transform.keys[i]? = r.transform.keys[i]? := by
      intro i hi
      have hne : i ≠ r.transform.keys.size := by rw [h.size_eq]; omega
      rw [hkeys, Array.getElem?_push, if_neg hne]
    rw [List.range'_succ, show n + (k + 1) = n + 1 + k by omega]
    refine ⟨hrest.filled, ?_, ?_⟩
    · intro i hi
      exact (hrest.kept i (by omega)).trans (hbefore i hi)
    · intro i hn hm
      by_cases hi : i = n
      · subst hi
        have hkey : (r.key i (g i)).transform.keys[i]? =
            some (keyOf r.actor.yawOffset r.emittedYaw i (g i)) := by
          rw [hkeys, Array.getElem?_push, if_pos h.size_eq.symm]
          rfl
        exact ⟨_, (hrest.kept i (by omega)).trans hkey⟩
      · exact hrest.added i (by omega) hm

/-- A span that starts at the last frame of a track replaces that frame and appends the others. -/
lemma sample_keyed (rate : FrameRate K) (s : Span K) (r : Run K)
    (h : Filled r.transform (s.firstFrame rate + 1)) (hle : s.firstFrame rate ≤ s.lastFrame rate) :
    KeyedOver r.actor.yawOffset (s.firstFrame rate) (s.lastFrame rate + 1)
      (fun f => s.pose (s.momentAt rate (s.lastFrame rate) f))
      r.transform (r.sample rate s).transform := by
  rw [sample_eq_keyAll]
  generalize s.firstFrame rate = n at h hle ⊢
  generalize s.lastFrame rate = m at hle ⊢
  generalize (fun f => s.pose (s.momentAt rate m f)) = g
  have hkeys : (r.key n (g n)).transform.keys = r.transform.keys.setIfInBounds n _ :=
    h.push_last rfl
  have hstep : Filled (r.key n (g n)).transform (n + 1) := h.push_last_filled rfl
  have hrest := keyAll_next g (n + 1) (m - n) (r.key n (g n)) hstep
  rw [show m + 1 - n = m - n + 1 by omega, List.range'_succ]
  have hm : n + 1 + (m - n) = m + 1 := by omega
  rw [hm] at hrest
  refine ⟨hrest.filled, ?_, ?_⟩
  · intro i hi
    have hbefore : (r.key n (g n)).transform.keys[i]? = r.transform.keys[i]? := by
      rw [hkeys, Array.getElem?_setIfInBounds_ne (show n ≠ i by omega)]
    exact (hrest.kept i (by omega)).trans hbefore
  · intro i hn hi
    by_cases hin : i = n
    · subst hin
      have hkey : (r.key i (g i)).transform.keys[i]? =
          some (keyOf r.actor.yawOffset r.emittedYaw i (g i)) := by
        rw [hkeys, Array.getElem?_setIfInBounds_self_of_lt]
        · rfl
        · rw [h.size_eq]
          exact Nat.lt_succ_self i
      exact ⟨_, (hrest.kept i (by omega)).trans hkey⟩
    · exact hrest.added i (by omega) hi

end Tracks

section Clock

variable {rate : FrameRate ℝ}

/-- What can happen to a run: a span is played from the cursor, or the notes beside it change. A
stay is parked at the cursor. -/
inductive Advance (rate : FrameRate ℝ) : Run ℝ → Run ℝ → Prop
  | play {r : Run ℝ} (s : Span ℝ) (hstart : s.start = r.cursor) (hduration : 0 ≤ s.duration) :
      Advance rate r (r.play rate s)
  | note {r : Run ℝ} (lane : Option (ℝ × Lane ℝ)) (index : ℕ) (parked : Option (Parked ℝ))
      (hparked : ∀ p, parked = some p → r.parked = some p ∨ p.start = r.cursor) :
      Advance rate r { r with lane := lane, nextIndex := index, parked := parked }

/-- Any number of advances. -/
abbrev Advances (rate : FrameRate ℝ) : Run ℝ → Run ℝ → Prop :=
  Relation.ReflTransGen (Advance rate)

/-- A run whose track is complete up to its cursor. -/
structure OnTime (rate : FrameRate ℝ) (r : Run ℝ) : Prop where
  cursor_nonneg : 0 ≤ r.cursor
  filled : Filled r.transform (rate.frameAt r.cursor + 1)
  last_location : (r.transform.keys[rate.frameAt r.cursor]?).map (fun k => k.transform.location) =
    some r.pose.location
  parked_start : ∀ p, r.parked = some p → 0 ≤ p.start ∧ p.start ≤ r.cursor

lemma onTime_start (a : Actor ℝ) : OnTime rate (Run.start a) := by
  have hcursor : (Run.start a).cursor = 0 := zero_real
  refine ⟨hcursor.ge, ?_, ?_, ?_⟩
  · rw [hcursor, frameAt_zero]
    exact Filled.empty.push_next_filled rfl
  · rw [hcursor, frameAt_zero, start_keys]
    rfl
  · intro p hp
    cases hp

/-- Where a span leads, its last key stands. -/
lemma momentAt_last (s : Span ℝ) :
    s.momentAt rate (s.lastFrame rate) (s.lastFrame rate) = s.duration :=
  if_pos rfl

/-- A span from the cursor keys the frames from the one of the cursor on. -/
lemma OnTime.play_keyed {r : Run ℝ} (h : OnTime rate r) (hfps : 0 < rate.fps) {s : Span ℝ}
    (hstart : s.start = r.cursor) (hduration : 0 ≤ s.duration) :
    KeyedOver r.actor.yawOffset (rate.frameAt r.cursor) (rate.frameAt (r.cursor + s.duration) + 1)
      (fun f => s.pose (s.momentAt rate (s.lastFrame rate) f))
      r.transform (r.play rate s).transform := by
  have hfirst : s.firstFrame rate = rate.frameAt r.cursor := by
    unfold Span.firstFrame
    rw [hstart]
  have hlast : s.lastFrame rate = rate.frameAt (r.cursor + s.duration) := by
    unfold Span.lastFrame
    rw [hstart]
  have hle : s.firstFrame rate ≤ s.lastFrame rate := by
    rw [hfirst, hlast]
    exact frameAt_mono hfps (by linarith)
  have hkeyed := sample_keyed rate s r (by rw [hfirst]; exact h.filled) hle
  rw [play_transform, ← hfirst]
  rw [hlast] at hkeyed
  rw [hlast]
  exact hkeyed

lemma OnTime.play {r : Run ℝ} (h : OnTime rate r) (hfps : 0 < rate.fps) {s : Span ℝ}
    (hstart : s.start = r.cursor) (hduration : 0 ≤ s.duration) : OnTime rate (r.play rate s) := by
  have hkeyed := h.play_keyed hfps hstart hduration
  have hle : rate.frameAt r.cursor ≤ rate.frameAt (r.cursor + s.duration) :=
    frameAt_mono hfps (by linarith)
  have hcursor := h.cursor_nonneg
  refine ⟨?_, ?_, ?_, ?_⟩
  · rw [play_cursor]
    linarith
  · rw [play_cursor]
    exact hkeyed.filled
  · obtain ⟨yaw, hkey⟩ :=
      hkeyed.added (rate.frameAt (r.cursor + s.duration)) hle (Nat.lt_succ_self _)
    have hlast : s.lastFrame rate = rate.frameAt (r.cursor + s.duration) := by
      unfold Span.lastFrame
      rw [hstart]
    rw [play_cursor, hkey, play_pose, ← hlast, momentAt_last]
    rfl
  · intro p hp
    rw [play_parked] at hp
    obtain ⟨h0, hle⟩ := h.parked_start p hp
    rw [play_cursor]
    exact ⟨h0, by linarith⟩

lemma OnTime.advance {r r' : Run ℝ} (h : OnTime rate r) (hfps : 0 < rate.fps)
    (ha : Advance rate r r') : OnTime rate r' := by
  cases ha with
  | play s hstart hduration => exact h.play hfps hstart hduration
  | note lane index parked hparked =>
    refine ⟨h.cursor_nonneg, h.filled, h.last_location, ?_⟩
    intro p hp
    rcases hparked p hp with hold | hnew
    · exact h.parked_start p hold
    · exact ⟨hnew ▸ h.cursor_nonneg, hnew.le⟩

lemma OnTime.advances {r r' : Run ℝ} (h : OnTime rate r) (hfps : 0 < rate.fps)
    (ha : Advances rate r r') : OnTime rate r' := by
  induction ha with
  | refl => exact h
  | tail _ hstep ih => exact ih.advance hfps hstep

lemma Advances.actor_eq {r r' : Run ℝ} (ha : Advances rate r r') : r'.actor = r.actor := by
  induction ha with
  | refl => rfl
  | tail _ hstep ih =>
    rw [← ih]
    cases hstep with
    | play s _ _ => exact play_actor rate s _
    | note _ _ _ _ => rfl

lemma Advances.cursor_le {r r' : Run ℝ} (ha : Advances rate r r') : r.cursor ≤ r'.cursor := by
  induction ha with
  | refl => exact le_refl _
  | tail _ hstep ih =>
    apply ih.trans
    cases hstep with
    | play s _ hduration =>
      rw [play_cursor]
      linarith
    | note _ _ _ _ => exact le_refl _

/-- Keys in front of the cursor's frame never change again. -/
lemma Advances.key_eq {r r' : Run ℝ} (ha : Advances rate r r') (h : OnTime rate r)
    (hfps : 0 < rate.fps) {f : ℕ} (hf : f < rate.frameAt r.cursor) :
    r'.transform.keys[f]? = r.transform.keys[f]? := by
  induction ha with
  | refl => rfl
  | @tail q r' hq hstep ih =>
    rw [← ih]
    have hf' : f < rate.frameAt q.cursor :=
      hf.trans_le (frameAt_mono hfps (Advances.cursor_le hq))
    cases hstep with
    | play s hstart hduration =>
      exact ((h.advances hfps hq).play_keyed hfps hstart hduration).kept f hf'
    | note _ _ _ _ => rfl

/-- What is played stays played. -/
lemma Advances.spans_suffix {r r' : Run ℝ} (ha : Advances rate r r') : r.spans <:+ r'.spans := by
  induction ha with
  | refl => exact List.suffix_refl _
  | tail hq hstep ih =>
    cases hstep with
    | play s hstart hduration =>
      rw [play_spans]
      exact ih.trans (List.suffix_cons s _)
    | note lane index parked hparked => exact ih

/-- The spans of a run that stay at one place. -/
def StayAt (place : Vec3 ℝ) (spans : List (Span ℝ)) : Prop :=
  ∀ s ∈ spans, ∀ t, (s.pose t).location = place

/-- What a run plays later is remembered; as long as it stays where the run is, every key from the
cursor's frame on stands there. -/
lemma Advances.stays {r r' : Run ℝ} (ha : Advances rate r r') (h : OnTime rate r)
    (hfps : 0 < rate.fps) : ∃ later, r'.spans = later ++ r.spans ∧
      (StayAt r.pose.location later → r'.pose.location = r.pose.location ∧
        ∀ i k, rate.frameAt r.cursor ≤ i → r'.transform.keys[i]? = some k →
          k.transform.location = r.pose.location) := by
  induction ha with
  | refl =>
    refine ⟨[], rfl, fun _ => ⟨rfl, ?_⟩⟩
    intro i k hi hk
    have hlast := h.last_location
    have hlt : i < rate.frameAt r.cursor + 1 := by
      rw [← h.filled.size_eq]
      exact (Array.getElem?_eq_some_iff.mp hk).1
    have heq : i = rate.frameAt r.cursor := by omega
    rw [← heq, hk] at hlast
    exact Option.some.inj hlast
  | @tail q r' hq hstep ih =>
    obtain ⟨later, hspans, hstays⟩ := ih
    cases hstep with
    | note lane index parked hparked => exact ⟨later, hspans, hstays⟩
    | play s hstart hduration =>
      refine ⟨s :: later, by rw [play_spans, hspans, List.cons_append], fun hall => ?_⟩
      obtain ⟨hpose, hkeys⟩ := hstays fun s' hs' => hall s' (List.mem_cons_of_mem s hs')
      have hs : ∀ t, (s.pose t).location = r.pose.location := hall s List.mem_cons_self
      have hkeyed := (h.advances hfps hq).play_keyed hfps hstart hduration
      refine ⟨by rw [play_pose, hs], ?_⟩
      intro i k hi hk
      rcases Nat.lt_or_ge i (rate.frameAt q.cursor) with hlt | hge
      · rw [hkeyed.kept i hlt] at hk
        exact hkeys i k hi hk
      · have hend : i < rate.frameAt (q.cursor + s.duration) + 1 := by
          rw [← hkeyed.filled.size_eq]
          exact (Array.getElem?_eq_some_iff.mp hk).1
        obtain ⟨yaw, hkey⟩ := hkeyed.added i hge hend
        rw [hkey, Option.some.injEq] at hk
        rw [← hk]
        exact hs _

end Clock

end Stagecraft.Proofs
