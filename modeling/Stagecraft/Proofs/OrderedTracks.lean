import Stagecraft.Proofs.FilledTracks

/-!
# Ordered tracks

The keys of a track stand in the order of their frames, at most one at a frame. A key is pushed
between those in front of its frame and those behind, and what stood at the frame gives way to it.
So a track is a table: whatever the order of the pushes, it holds at a frame what was pushed there
last.
-/

namespace Stagecraft.Proofs

section Pushing

variable {κ : Type} [Keyed κ] {t : Track κ} {key : κ} {front rest : List κ} {there : Option κ}

omit [Keyed κ] in
lemma insertIdx_append (front rest : List κ) (key : κ) :
    (front ++ rest).insertIdx front.length key = front ++ key :: rest := by
  induction front with
  | nil => rfl
  | cons k front ih => exact congrArg (List.cons k) ih

/-- A key takes its place between the keys in front of its frame and those behind. -/
lemma push_between (h : t.keys.toList = front ++ there.toList ++ rest)
    (hfront : ∀ k ∈ front, Keyed.frame k < Keyed.frame key)
    (hthere : ∀ k ∈ there, Keyed.frame k = Keyed.frame key)
    (hrest : ∀ k ∈ rest, Keyed.frame key < Keyed.frame k) :
    (t.push key).keys.toList = front ++ key :: rest := by
  obtain ⟨keys⟩ := t
  obtain rfl : keys = (front ++ (there.toList ++ rest)).toArray := by
    rw [← List.append_assoc, ← h]
  have hbehind : ∀ k ∈ there.toList ++ rest, Keyed.frame key ≤ Keyed.frame k := by
    intro k hk
    rcases List.mem_append.mp hk with hk | hk
    · exact (hthere k (Option.mem_toList.mp hk)).ge
    · exact (hrest k hk).le
  by_cases hnil : there.toList ++ rest = []
  · obtain ⟨-, rfl⟩ := List.append_eq_nil_iff.mp hnil
    simp only [hnil, List.append_nil]
    rw [push_append fun k hk => hfront k (by simpa using hk)]
    simp
  have hcount : Track.countFront ⟨(front ++ (there.toList ++ rest)).toArray⟩
      (fun f => f < Keyed.frame key) = front.length := by
    apply countFront_append
    · exact fun k hk => decide_eq_true (hfront k hk)
    · exact fun k hk => decide_eq_false (not_lt.mpr (hbehind k hk))
  have hlast : (front ++ (there.toList ++ rest)).toArray.back? =
      some ((there.toList ++ rest).getLast hnil) := by
    rw [List.back?_toArray, List.getLast?_append_of_ne_nil _ hnil,
      List.getLast?_eq_some_getLast hnil]
  have hnlt : ¬Keyed.frame ((there.toList ++ rest).getLast hnil) < Keyed.frame key :=
    not_lt.mpr (hbehind _ (List.getLast_mem hnil))
  unfold Track.push
  simp only [hlast, hnlt, if_false, hcount]
  cases there with
  | some k =>
    have hsame : Keyed.frame k = Keyed.frame key := hthere k rfl
    simp [hsame]
  | none =>
    obtain ⟨next, behind, rfl⟩ := List.exists_cons_of_ne_nil hnil
    have hother : Keyed.frame next ≠ Keyed.frame key := (hrest next List.mem_cons_self).ne'
    simp [hother, Array.insertIdxIfInBounds, insertIdx_append]

end Pushing

section Orders

variable {κ : Type} [Keyed κ] {t : Track κ}

/-- Keys in the order of their frames, at most one at each. -/
def Ordered (t : Track κ) : Prop :=
  (trackFrames t).Pairwise (· < ·)

lemma Filled.ordered {n : ℕ} (h : Filled t n) : Ordered t := by
  unfold Ordered
  rw [h]
  exact List.pairwise_lt_range

lemma ordered_iff :
    Ordered t ↔ t.keys.toList.Pairwise fun k k' => Keyed.frame k < Keyed.frame k' :=
  List.pairwise_map

/-- Keys in order are those in front of a frame, the one at it, if there is one, and those
behind. -/
lemma exists_split {keys : List κ} (h : keys.Pairwise fun k k' => Keyed.frame k < Keyed.frame k')
    (f : ℕ) : ∃ front there rest, keys = front ++ Option.toList there ++ rest ∧
      (∀ k ∈ front, Keyed.frame k < f) ∧ (∀ k ∈ there, Keyed.frame k = f) ∧
      ∀ k ∈ rest, f < Keyed.frame k := by
  induction keys with
  | nil => exact ⟨[], none, [], rfl, nofun, nofun, nofun⟩
  | cons k keys ih =>
    obtain ⟨hbehind, hkeys⟩ := List.pairwise_cons.mp h
    rcases lt_trichotomy (Keyed.frame k) f with hlt | rfl | hgt
    · obtain ⟨front, there, rest, rfl, hfront, hthere, hrest⟩ := ih hkeys
      exact ⟨k :: front, there, rest, rfl, List.forall_mem_cons.mpr ⟨hlt, hfront⟩, hthere, hrest⟩
    · exact ⟨[], some k, keys, rfl, nofun, by simp, hbehind⟩
    · refine ⟨[], none, k :: keys, rfl, nofun, nofun, List.forall_mem_cons.mpr ⟨hgt, ?_⟩⟩
      exact fun k' hk' => hgt.trans (hbehind k' hk')

/-- A push changes a track at the frame of the key only. -/
lemma Ordered.push_split (h : Ordered t) (key : κ) : ∃ front there rest,
    t.keys.toList = front ++ Option.toList there ++ rest ∧
      (t.push key).keys.toList = front ++ key :: rest ∧
      (∀ k ∈ front, Keyed.frame k < Keyed.frame key) ∧
      (∀ k ∈ there, Keyed.frame k = Keyed.frame key) ∧
      ∀ k ∈ rest, Keyed.frame key < Keyed.frame k := by
  obtain ⟨front, there, rest, hkeys, hfront, hthere, hrest⟩ :=
    exists_split (ordered_iff.mp h) (Keyed.frame key)
  exact ⟨front, there, rest, hkeys, push_between hkeys hfront hthere hrest, hfront, hthere, hrest⟩

lemma Ordered.push (h : Ordered t) (key : κ) : Ordered (t.push key) := by
  obtain ⟨front, there, rest, hkeys, hpush, hfront, -, hrest⟩ := h.push_split key
  rw [ordered_iff, hkeys] at h
  obtain ⟨hbefore, hbehind, hacross⟩ := List.pairwise_append.mp h
  rw [ordered_iff, hpush, List.pairwise_append, List.pairwise_cons]
  refine ⟨(List.pairwise_append.mp hbefore).1, ⟨hrest, hbehind⟩, fun k hk k' hk' => ?_⟩
  rcases List.mem_cons.mp hk' with rfl | hk'
  · exact hfront k hk
  · exact hacross k (List.mem_append_left _ hk) k' hk'

/-- A key that is pushed again changes nothing. -/
lemma Ordered.push_push (h : Ordered t) (key : κ) : (t.push key).push key = t.push key := by
  obtain ⟨front, there, rest, -, hpush, hfront, -, hrest⟩ := h.push_split key
  have hkeys : (t.push key).keys.toList = front ++ (some key).toList ++ rest := by
    rw [hpush, Option.toList_some, List.append_assoc, List.singleton_append]
  apply track_ext
  rw [hpush]
  exact push_between hkeys hfront (fun k hk => by rw [Option.mem_some.mp hk]) hrest

lemma Ordered.nodup (h : Ordered t) : (trackFrames t).Nodup :=
  h.imp ne_of_lt

lemma Ordered.firstFrame?_eq (h : Ordered t) : t.firstFrame? = (trackFrames t).min? := by
  have hfirst : t.firstFrame? = (trackFrames t).head? := by
    unfold Track.firstFrame? Track.first? trackFrames
    rw [List.head?_map, List.head?_eq_getElem?, Array.getElem?_toList]
  unfold Ordered at h
  rw [hfirst]
  cases hframes : trackFrames t with
  | nil => rfl
  | cons f frames =>
    rw [hframes, List.pairwise_cons] at h
    rw [List.head?_cons, eq_comm, List.min?_eq_some_iff]
    exact ⟨List.mem_cons_self, List.forall_mem_cons.mpr ⟨le_rfl, fun g hg => (h.1 g hg).le⟩⟩

lemma Ordered.lastFrame?_eq (h : Ordered t) : t.lastFrame? = (trackFrames t).max? := by
  have hlast : t.lastFrame? = (trackFrames t).getLast? := by
    unfold Track.lastFrame? Track.last? trackFrames
    rw [List.getLast?_map, Array.getLast?_toList]
  unfold Ordered at h
  rw [hlast]
  rcases List.eq_nil_or_concat' (trackFrames t) with hnil | ⟨frames, f, hframes⟩
  · rw [hnil]
    rfl
  · rw [hframes] at h ⊢
    have hbelow := (List.pairwise_append.mp h).2.2
    rw [List.getLast?_concat, eq_comm, List.max?_eq_some_iff]
    refine ⟨by simp, fun g hg => ?_⟩
    rcases List.mem_append.mp hg with hg | hg
    · exact (hbelow g hg f List.mem_cons_self).le
    · exact (List.mem_singleton.mp hg).le

end Orders

section Tables

variable {κ : Type} [Keyed κ] {t : Track κ} {pushes : List κ} {key k : κ}

/-- The last of some keys at a frame. -/
def lastAt? (f : ℕ) (keys : List κ) : Option κ :=
  keys.reverse.find? fun k => Keyed.frame k = f

lemma lastAt?_concat (f : ℕ) (keys : List κ) (key : κ) :
    lastAt? f (keys ++ [key]) = if Keyed.frame key = f then some key else lastAt? f keys := by
  unfold lastAt?
  rw [List.reverse_concat, List.find?_cons]
  by_cases h : Keyed.frame key = f <;> simp [h]

lemma exists_lastAt? {f : ℕ} {keys : List κ} :
    (∃ k, lastAt? f keys = some k) ↔ f ∈ keys.map Keyed.frame := by
  unfold lastAt?
  rw [← Option.isSome_iff_exists, List.find?_isSome]
  simp

lemma frame_of_lastAt? {f : ℕ} {keys : List κ} (h : lastAt? f keys = some k) :
    Keyed.frame k = f := by
  have hfound := List.find?_some h
  simpa using hfound

/-- A track that holds, in the order of the frames, the last key pushed at each. -/
structure HoldsLast (pushes : List κ) (t : Track κ) : Prop where
  ordered : Ordered t
  mem_iff : ∀ k, k ∈ t.keys ↔ lastAt? (Keyed.frame k) pushes = some k

lemma HoldsLast.empty : HoldsLast [] (Track.empty : Track κ) :=
  ⟨.nil, by simp [Track.empty, lastAt?]⟩

lemma HoldsLast.push (h : HoldsLast pushes t) (key : κ) :
    HoldsLast (pushes ++ [key]) (t.push key) := by
  refine ⟨h.ordered.push key, fun k => ?_⟩
  obtain ⟨front, there, rest, hkeys, hpush, hfront, hthere, hrest⟩ := h.ordered.push_split key
  have hmem := h.mem_iff k
  rw [← Array.mem_toList_iff, hkeys, List.mem_append, List.mem_append, Option.mem_toList] at hmem
  rw [← Array.mem_toList_iff, hpush, List.mem_append, List.mem_cons, lastAt?_concat]
  by_cases hsame : Keyed.frame key = Keyed.frame k
  · have hnot : k ∉ front ∧ k ∉ rest :=
      ⟨fun hk => (hfront k hk).ne' hsame, fun hk => (hrest k hk).ne hsame⟩
    rw [if_pos hsame, Option.some.injEq]
    simp [hnot, eq_comm]
  · have hne : k ≠ key ∧ k ∉ there :=
      ⟨fun hk => hsame (congrArg Keyed.frame hk.symm), fun hk => hsame (hthere k hk).symm⟩
    rw [if_neg hsame, ← hmem, ← Option.mem_def]
    simp only [hne, false_or, or_false]

lemma pushes_holdLast (pushes : List κ) :
    HoldsLast pushes (pushes.foldl Track.push Track.empty) := by
  induction pushes using List.reverseRecOn with
  | nil => exact HoldsLast.empty
  | append_singleton pushes key ih =>
    rw [List.foldl_append]
    exact ih.push key

namespace HoldsLast

lemma mem_frames (h : HoldsLast pushes t) (f : ℕ) :
    f ∈ trackFrames t ↔ f ∈ pushes.map Keyed.frame := by
  rw [← exists_lastAt?]
  unfold trackFrames
  rw [List.mem_map]
  constructor
  · rintro ⟨k, hk, rfl⟩
    exact ⟨k, (h.mem_iff k).mp (Array.mem_toList_iff.mp hk)⟩
  · rintro ⟨k, hk⟩
    obtain rfl := frame_of_lastAt? hk
    exact ⟨k, Array.mem_toList_iff.mpr ((h.mem_iff k).mpr hk), rfl⟩

lemma firstFrame?_eq (h : HoldsLast pushes t) :
    t.firstFrame? = (pushes.map Keyed.frame).min? := by
  rw [h.ordered.firstFrame?_eq]
  apply Option.ext
  intro f
  simp only [List.min?_eq_some_iff, h.mem_frames]

lemma lastFrame?_eq (h : HoldsLast pushes t) : t.lastFrame? = (pushes.map Keyed.frame).max? := by
  rw [h.ordered.lastFrame?_eq]
  apply Option.ext
  intro f
  simp only [List.max?_eq_some_iff, h.mem_frames]

lemma length_eq (h : HoldsLast pushes t) : t.length = (pushes.map Keyed.frame).dedup.length := by
  have hperm : (trackFrames t).Perm (pushes.map Keyed.frame).dedup := by
    rw [List.perm_ext_iff_of_nodup h.ordered.nodup (List.nodup_dedup _)]
    intro f
    rw [List.mem_dedup]
    exact h.mem_frames f
  rw [← hperm.length_eq]
  simp [trackFrames, Track.length]

end HoldsLast

/-- A track is a table of the keys pushed: its keys stand in the order of their frames, it has a key
at just the frames of the pushes, and at each of them the last one pushed there. -/
structure TableOf (pushes : List κ) (t : Track κ) : Prop where
  ordered : (trackFrames t).Pairwise (· < ·)
  mem_frames : ∀ f, f ∈ trackFrames t ↔ f ∈ pushes.map Keyed.frame
  mem_iff : ∀ k, k ∈ t.keys ↔ lastAt? (Keyed.frame k) pushes = some k
  firstFrame?_eq : t.firstFrame? = (pushes.map Keyed.frame).min?
  lastFrame?_eq : t.lastFrame? = (pushes.map Keyed.frame).max?
  length_eq : t.length = (pushes.map Keyed.frame).dedup.length

lemma HoldsLast.tableOf (h : HoldsLast pushes t) : TableOf pushes t :=
  ⟨h.ordered, h.mem_frames, h.mem_iff, h.firstFrame?_eq, h.lastFrame?_eq, h.length_eq⟩

end Tables

section Animations

variable {K : Type}

/-- A change of an animation track. -/
inductive TrackEdit (K : Type) where
  | push (s : Segment K)
  | extendOrPush (s : Segment K)

def TrackEdit.apply [BEq K] (t : AnimationTrack K) : TrackEdit K → AnimationTrack K
  | .push s => t.push s
  | .extendOrPush s => t.extendOrPush s

/-- A segment that is prolonged begins where it did. -/
lemma trackFrames_prolonged {t : AnimationTrack K} {last : Segment K} (h : t.last? = some last)
    (n : ℕ) : trackFrames ⟨t.keys.pop.push { last with endFrame := n }⟩ = trackFrames t := by
  obtain ⟨front, hkeys⟩ : ∃ front, t.keys.toList = front ++ [last] := by
    rw [← List.getLast?_eq_some_iff, Array.getLast?_toList]
    exact h
  unfold trackFrames
  rw [Array.toList_push, Array.toList_pop, hkeys, List.dropLast_concat, List.map_append,
    List.map_append]
  rfl

lemma Ordered.extendOrPush [BEq K] {t : AnimationTrack K} (h : Ordered t) (s : Segment K) :
    Ordered (t.extendOrPush s) := by
  unfold Track.extendOrPush
  cases hlast : t.last? with
  | none => exact h.push s
  | some last =>
    dsimp only
    split
    · unfold Ordered
      rw [trackFrames_prolonged hlast]
      exact h
    · exact h.push s

lemma ordered_edits [BEq K] (edits : List (TrackEdit K)) :
    Ordered (edits.foldl TrackEdit.apply Track.empty) := by
  refine List.foldlRecOn (motive := Ordered) edits TrackEdit.apply .nil fun t h edit _ => ?_
  cases edit with
  | push s => exact h.push s
  | extendOrPush s => exact h.extendOrPush s

end Animations

/-- Keys may be pushed in any order of their frames: the track is the table of the pushes. The
segments of an animation stay in order, too, however many of them are prolonged in between. -/
theorem track_tabulates_pushes :
    (∀ (κ : Type) [Keyed κ] (pushes : List κ),
      TableOf pushes (pushes.foldl Track.push Track.empty)) ∧
    ∀ (K : Type) [BEq K] (edits : List (TrackEdit K)),
      (trackFrames (edits.foldl TrackEdit.apply Track.empty)).Pairwise (· < ·) :=
  ⟨fun _ _ pushes => (pushes_holdLast pushes).tableOf, fun _ _ edits => ordered_edits edits⟩

end Stagecraft.Proofs
