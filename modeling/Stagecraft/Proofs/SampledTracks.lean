import Mathlib
import Stagecraft.Proofs.OrderedTracks
import Stagecraft.Proofs.Outcomes

/-!
# Sampled tracks

A transform track is read at a frame by halving: the keys up to the frame are counted, and the last
of them and the key behind it are mixed. Since pushes keep the keys in the order of their frames,
the two keys that the count names are the neighbours of the frame, whatever gaps lie between the
keys. So the track is the piecewise linear curve through its keys, held before the first and after
the last, and no look at the keys or difference of frames on the way to a sample goes wrong.
-/

namespace Stagecraft

/-- The six numbers of a transform. -/
inductive Component where
  | x
  | y
  | z
  | pitch
  | yaw
  | roll

def Transform.component {K : Type} (p : Transform K) : Component → K
  | .x => p.location.x
  | .y => p.location.y
  | .z => p.location.z
  | .pitch => p.rotation.pitch
  | .yaw => p.rotation.yaw
  | .roll => p.rotation.roll

/-- What may go wrong when a track is sampled: a look past the keys, or a difference of natural
numbers that is below zero. -/
inductive SampleFault where
  | outOfRange (index length : ℕ)
  | underflow (minuend subtrahend : ℕ)

def checkedSub (m n : ℕ) : Except SampleFault ℕ :=
  if n ≤ m then .ok (m - n) else .error (.underflow m n)

def Track.keyAt {κ : Type} (t : Track κ) (i : ℕ) : Except SampleFault κ :=
  match t.keys[i]? with
  | some k => .ok k
  | none => .error (.outOfRange i t.length)

/-- Sampling with every look at the keys and every difference checked. -/
def Track.sampleChecked {K : Type} [Scalar K] (t : TransformTrack K) (frame : ℕ) :
    Except SampleFault (Option (Transform K)) := do
  let some first := t.first? | return none
  if frame ≤ first.frame then return some first.transform
  let i := t.countFront (· ≤ frame)
  if t.length ≤ i then return t.last?.map TransformKey.transform
  let a ← t.keyAt (← checkedSub i 1)
  let b ← t.keyAt i
  if a.frame = frame then return some a.transform
  let passed ← checkedSub frame a.frame
  let gap ← checkedSub b.frame a.frame
  return some (a.transform.lerp b.transform ((passed : K) / (gap : K)))

namespace Proofs

section Checks

variable {κ : Type} {t : Track κ} {k : κ} {i m n : ℕ}

lemma checkedSub_of_le (h : n ≤ m) : checkedSub m n = .ok (m - n) :=
  if_pos h

lemma of_checkedSub {d : ℕ} (h : checkedSub m n = .ok d) : d = m - n := by
  unfold checkedSub at h
  split at h
  · exact (Except.ok.inj h).symm
  · contradiction

lemma keyAt_eq_ok : t.keyAt i = .ok k ↔ t.keys[i]? = some k := by
  unfold Track.keyAt
  cases t.keys[i]? with
  | none => exact ⟨nofun, nofun⟩
  | some k' => simp

end Checks

section Sampling

variable {K : Type} [Scalar K] {t : TransformTrack K} {front rest : List (TransformKey K)}
  {a b k : TransformKey K} {f : ℕ} {sample : Option (Transform K)}

/-- Where no check fails, the checks change nothing. -/
lemma sample_of_checked (h : t.sampleChecked f = .ok sample) : t.sample f = sample := by
  unfold Track.sampleChecked at h
  unfold Track.sample
  cases hfirst : t.first? with
  | none =>
    rw [hfirst] at h
    exact Except.ok.inj h
  | some first =>
    rw [hfirst] at h
    simp only [Option.bind_eq_bind, Option.bind_some] at h ⊢
    split at h
    next hle =>
      rw [if_pos hle]
      exact Except.ok.inj h
    next hgt =>
      rw [if_neg hgt]
      split at h
      next hend =>
        rw [Array.getElem?_eq_none hend]
        cases t.keys[t.countFront (· ≤ f) - 1]? <;> exact Except.ok.inj h
      next =>
        obtain ⟨i, hi, h⟩ := bind_eq_ok.mp h
        obtain ⟨a, ha, h⟩ := bind_eq_ok.mp h
        obtain ⟨b, hb, h⟩ := bind_eq_ok.mp h
        rw [of_checkedSub hi, keyAt_eq_ok] at ha
        rw [ha, keyAt_eq_ok.mp hb]
        dsimp only
        split at h
        next hat =>
          rw [if_pos hat]
          exact Except.ok.inj h
        next hpast =>
          obtain ⟨passed, hpassed, h⟩ := bind_eq_ok.mp h
          obtain ⟨gap, hgap, h⟩ := bind_eq_ok.mp h
          rw [if_neg hpast, ← of_checkedSub hpassed, ← of_checkedSub hgap]
          exact Except.ok.inj h

lemma sampleChecked_empty (h : t.isEmpty = true) : t.sampleChecked f = .ok none := by
  have hfirst : t.first? = none := by
    unfold Track.first?
    rw [Array.isEmpty_iff.mp h]
    rfl
  unfold Track.sampleChecked
  rw [hfirst]
  rfl

lemma sampleChecked_front (hfirst : t.first? = some a) (hle : f ≤ a.frame) :
    t.sampleChecked f = .ok (some a.transform) := by
  unfold Track.sampleChecked
  rw [hfirst]
  exact if_pos hle

omit [Scalar K] in
lemma countFront_upto (hkeys : t.keys.toList = front ++ rest) (hfront : ∀ k ∈ front, k.frame ≤ f)
    (hrest : ∀ k ∈ rest, f < k.frame) : t.countFront (· ≤ f) = front.length := by
  obtain rfl : t = ⟨(front ++ rest).toArray⟩ := by
    rw [← hkeys]
  apply countFront_append
  · exact fun k hk => decide_eq_true (hfront k hk)
  · exact fun k hk => decide_eq_false (not_le.mpr (hrest k hk))

/-- Behind the first key and not in front of any, the last one is held. -/
lemma sampleChecked_behind (hfirst : t.first? = some a) (hlast : t.last? = some b)
    (hlt : a.frame < f) (h : ∀ k ∈ t.keys, k.frame ≤ f) :
    t.sampleChecked f = .ok (some b.transform) := by
  have hcount : t.countFront (· ≤ f) = t.length := by
    have hall : ∀ k ∈ t.keys.toList, k.frame ≤ f := fun k hk => h k (Array.mem_toList_iff.mp hk)
    rw [countFront_upto (List.append_nil _).symm hall nofun]
    exact Array.length_toList
  unfold Track.sampleChecked
  rw [hfirst]
  dsimp only
  rw [if_neg (not_le.mpr hlt), hcount, if_pos le_rfl, hlast]
  rfl

/-- Behind the first key and in front of the last, the neighbours of the frame are found, and they
lie on both sides of it. -/
lemma sampleChecked_amid (hkeys : t.keys.toList = front ++ a :: b :: rest)
    (hfirst : t.first? = some k) (hlt : k.frame < f) (hfront : ∀ k ∈ front ++ [a], k.frame ≤ f)
    (hrest : ∀ k ∈ b :: rest, f < k.frame) :
    t.sampleChecked f = .ok (some (if a.frame = f then a.transform else
      a.transform.lerp b.transform
        (((f - a.frame : ℕ) : K) / ((b.frame - a.frame : ℕ) : K)))) := by
  have hcount : t.countFront (· ≤ f) = front.length + 1 := by
    have hsides : t.keys.toList = (front ++ [a]) ++ b :: rest := by
      rw [hkeys, List.append_assoc]
      rfl
    rw [countFront_upto hsides hfront hrest]
    exact List.length_append
  have hlength : ¬t.length ≤ front.length + 1 := by
    unfold Track.length
    rw [← Array.length_toList, hkeys, List.length_append, List.length_cons, List.length_cons]
    omega
  have ha : t.keyAt front.length = .ok a := by
    rw [keyAt_eq_ok, ← Array.getElem?_toList, hkeys]
    simp
  have hb : t.keyAt (front.length + 1) = .ok b := by
    rw [keyAt_eq_ok, ← Array.getElem?_toList, hkeys]
    simp
  have hpassed : a.frame ≤ f := hfront a (by simp)
  have hgap : a.frame ≤ b.frame := hpassed.trans (hrest b List.mem_cons_self).le
  unfold Track.sampleChecked
  rw [hfirst]
  dsimp only
  rw [if_neg (not_le.mpr hlt), hcount, if_neg hlength,
    bind_of_ok (checkedSub_of_le (Nat.le_add_left 1 _)), Nat.add_sub_cancel, bind_of_ok ha,
    bind_of_ok hb]
  by_cases hat : a.frame = f
  · rw [if_pos hat, if_pos hat]
    rfl
  · rw [if_neg hat, if_neg hat, bind_of_ok (checkedSub_of_le hpassed),
      bind_of_ok (checkedSub_of_le hgap)]
    rfl

end Sampling

section Mixing

variable {p q : Transform ℝ} {s : ℝ}

/-- Between its ends, every component of a mixture is the mixture of the components. -/
lemma lerp_component (hs : s ∈ Set.Icc 0 1) (c : Component) :
    (p.lerp q s).component c = AffineMap.lineMap (p.component c) (q.component c) s := by
  have hclamp : Scalar.clamp (@OfNat.ofNat ℝ 0 Scalar.instOfNat)
      (@OfNat.ofNat ℝ 1 Scalar.instOfNat) s = s := by
    rw [zero_real, one_real]
    exact clamp_of_mem hs.1 hs.2
  unfold Transform.lerp
  rw [AffineMap.lineMap_apply_ring', add_comm, mul_comm]
  simp only [hclamp]
  cases c <;> rfl

lemma lineMap_mem_uIcc (hs : s ∈ Set.Icc 0 1) (x y : ℝ) :
    AffineMap.lineMap x y s ∈ Set.uIcc x y := by
  rw [← segment_eq_uIcc, segment_eq_image_lineMap]
  exact Set.mem_image_of_mem _ hs

lemma fraction_mem {m n : ℕ} (h : m ≤ n) (l : ℕ) :
    ((m - l : ℕ) : ℝ) / ((n - l : ℕ) : ℝ) ∈ Set.Icc 0 1 := by
  have hle : ((m - l : ℕ) : ℝ) ≤ ((n - l : ℕ) : ℝ) := Nat.cast_le.mpr (Nat.sub_le_sub_right h l)
  exact ⟨by positivity, div_le_one_of_le₀ hle (Nat.cast_nonneg _)⟩

end Mixing

/-- What a track shows at a frame. -/
structure SampledAt (t : TransformTrack ℝ) (f : ℕ) : Prop where
  none_iff : t.sample f = none ↔ t.isEmpty = true
  stored : ∀ k ∈ t.keys, k.frame = f → t.sample f = some k.transform
  before : ∀ first, t.first? = some first → f < first.frame → t.sample f = some first.transform
  behind : ∀ last, t.last? = some last → last.frame < f → t.sample f = some last.transform
  between : ∀ front a b rest, t.keys.toList = front ++ a :: b :: rest → a.frame < f → f < b.frame →
    ∃ p, t.sample f = some p ∧ ∀ c, p.component c =
        AffineMap.lineMap (a.transform.component c) (b.transform.component c)
          (((f : ℝ) - a.frame) / ((b.frame : ℝ) - a.frame)) ∧
      p.component c ∈ Set.uIcc (a.transform.component c) (b.transform.component c)
  covered : t.isEmpty = true ∨ (∃ k ∈ t.keys, k.frame = f) ∨
    (∃ first, t.first? = some first ∧ f < first.frame) ∨
    (∃ last, t.last? = some last ∧ last.frame < f) ∨
    ∃ front a b rest, t.keys.toList = front ++ a :: b :: rest ∧ a.frame < f ∧ f < b.frame
  faultless : t.sampleChecked f = .ok (t.sample f)

section Neighbours

variable {t : TransformTrack ℝ} {front rest : List (TransformKey ℝ)} {a b k : TransformKey ℝ}
  {f : ℕ}

/-- The keys in front of a key and behind it stand at frames in front of its frame and behind. -/
lemma Ordered.sides (h : Ordered t) (hkeys : t.keys.toList = front ++ a :: rest) :
    (∀ k ∈ front, k.frame < a.frame) ∧ ∀ k ∈ rest, a.frame < k.frame := by
  rw [ordered_iff, hkeys, List.pairwise_append, List.pairwise_cons] at h
  exact ⟨fun k hk => h.2.2 k hk a List.mem_cons_self, h.2.1.1⟩

lemma Ordered.exists_first (h : Ordered t) (hk : k ∈ t.keys) :
    ∃ first, t.first? = some first ∧ (first = k ∨ first.frame < k.frame) := by
  have hkl : k ∈ t.keys.toList := Array.mem_toList_iff.mpr hk
  cases hkeys : t.keys.toList with
  | nil =>
    rw [hkeys] at hkl
    contradiction
  | cons first rest =>
    refine ⟨first, ?_, ?_⟩
    · unfold Track.first?
      rw [← Array.getElem?_toList, hkeys]
      rfl
    · rw [hkeys] at hkl
      rcases List.mem_cons.mp hkl with hsame | hrest
      · exact Or.inl hsame.symm
      · have hsides : t.keys.toList = [] ++ first :: rest := hkeys
        exact Or.inr ((h.sides hsides).2 k hrest)

lemma exists_front (hlast : t.last? = some k) : ∃ front, t.keys.toList = front ++ [k] := by
  rw [← List.getLast?_eq_some_iff, Array.getLast?_toList]
  exact hlast

lemma last?_concat (hkeys : t.keys.toList = front ++ [k]) : t.last? = some k := by
  unfold Track.last?
  rw [← Array.getLast?_toList, hkeys, List.getLast?_concat]

lemma Ordered.checked_stored (h : Ordered t) (hk : k ∈ t.keys) :
    t.sampleChecked k.frame = .ok (some k.transform) := by
  obtain ⟨first, hfirst, rfl | hlt⟩ := h.exists_first hk
  · exact sampleChecked_front hfirst le_rfl
  · obtain ⟨front, rest, hkeys⟩ := List.append_of_mem (Array.mem_toList_iff.mpr hk)
    obtain ⟨hfront, hrest⟩ := h.sides hkeys
    have hupto : ∀ k' ∈ front ++ [k], k'.frame ≤ k.frame := by
      intro k' hk'
      rcases List.mem_append.mp hk' with hk' | hk'
      · exact (hfront k' hk').le
      · rw [List.mem_singleton.mp hk']
    cases rest with
    | nil =>
      apply sampleChecked_behind hfirst (last?_concat hkeys) hlt
      intro k' hk'
      rw [← Array.mem_toList_iff, hkeys] at hk'
      exact hupto k' hk'
    | cons b rest => rw [sampleChecked_amid hkeys hfirst hlt hupto hrest, if_pos rfl]

lemma Ordered.checked_behind (h : Ordered t) (hlast : t.last? = some k) (hlt : k.frame < f) :
    t.sampleChecked f = .ok (some k.transform) := by
  obtain ⟨front, hkeys⟩ := exists_front hlast
  have hupto : ∀ k' ∈ t.keys, k'.frame ≤ k.frame := by
    intro k' hk'
    rw [← Array.mem_toList_iff, hkeys] at hk'
    rcases List.mem_append.mp hk' with hk' | hk'
    · exact ((h.sides hkeys).1 k' hk').le
    · rw [List.mem_singleton.mp hk']
  obtain ⟨first, hfirst, -⟩ := h.exists_first (Array.mem_of_back? hlast)
  have hle : first.frame ≤ k.frame := hupto first (Array.mem_of_getElem? hfirst)
  exact sampleChecked_behind hfirst hlast (hle.trans_lt hlt) fun k' hk' =>
    (hupto k' hk').trans hlt.le

lemma Ordered.checked_between (h : Ordered t) (hkeys : t.keys.toList = front ++ a :: b :: rest)
    (ha : a.frame < f) (hb : f < b.frame) : t.sampleChecked f =
      .ok (some (a.transform.lerp b.transform
        (((f - a.frame : ℕ) : ℝ) / ((b.frame - a.frame : ℕ) : ℝ)))) := by
  obtain ⟨hfront, -⟩ := h.sides hkeys
  have hsides : t.keys.toList = (front ++ [a]) ++ b :: rest := by
    rw [hkeys, List.append_assoc]
    rfl
  have hrest := (h.sides hsides).2
  have hmem : a ∈ t.keys := by
    rw [← Array.mem_toList_iff, hkeys]
    simp
  obtain ⟨first, hfirst, hle⟩ := h.exists_first hmem
  have hlt : first.frame < f := by
    rcases hle with rfl | hlt
    · exact ha
    · exact hlt.trans ha
  rw [sampleChecked_amid hkeys hfirst hlt, if_neg ha.ne]
  · rfl
  · intro k hk
    rcases List.mem_append.mp hk with hk | hk
    · exact ((hfront k hk).trans ha).le
    · rw [List.mem_singleton.mp hk]
      exact ha.le
  · exact List.forall_mem_cons.mpr ⟨hb, fun k hk => hb.trans (hrest k hk)⟩

/-- A frame is one of a key, or it lies in front of all keys, behind them all, or between two
neighbours. -/
lemma Ordered.covered (h : Ordered t) (f : ℕ) :
    t.isEmpty = true ∨ (∃ k ∈ t.keys, k.frame = f) ∨
      (∃ first, t.first? = some first ∧ f < first.frame) ∨
      (∃ last, t.last? = some last ∧ last.frame < f) ∨
      ∃ front a b rest, t.keys.toList = front ++ a :: b :: rest ∧ a.frame < f ∧ f < b.frame := by
  obtain ⟨front, there, rest, hkeys, hfront, hthere, hrest⟩ := exists_split (ordered_iff.mp h) f
  cases there with
  | some k =>
    refine Or.inr (Or.inl ⟨k, ?_, hthere k rfl⟩)
    rw [← Array.mem_toList_iff, hkeys]
    simp
  | none =>
    rw [Option.toList_none, List.append_nil] at hkeys
    rcases List.eq_nil_or_concat' front with rfl | ⟨front, a, rfl⟩
    · cases rest with
      | nil => exact Or.inl (Array.isEmpty_iff.mpr (Array.toList_eq_nil_iff.mp hkeys))
      | cons first rest =>
        refine Or.inr (Or.inr (Or.inl ⟨first, ?_, hrest first List.mem_cons_self⟩))
        unfold Track.first?
        rw [← Array.getElem?_toList, hkeys]
        rfl
    · have ha : a.frame < f := hfront a (by simp)
      cases rest with
      | nil =>
        rw [List.append_nil] at hkeys
        exact Or.inr (Or.inr (Or.inr (Or.inl ⟨a, last?_concat hkeys, ha⟩)))
      | cons b rest =>
        rw [List.append_assoc] at hkeys
        exact Or.inr (Or.inr (Or.inr (Or.inr
          ⟨front, a, b, rest, hkeys, ha, hrest b List.mem_cons_self⟩)))

lemma Ordered.exists_checked (h : Ordered t) (f : ℕ) :
    ∃ sample, t.sampleChecked f = .ok sample ∧ (sample = none → t.isEmpty = true) := by
  rcases h.covered f with hempty | ⟨k, hk, rfl⟩ | ⟨first, hfirst, hlt⟩ | ⟨last, hlast, hlt⟩ |
    ⟨front, a, b, rest, hkeys, ha, hb⟩
  · exact ⟨_, sampleChecked_empty hempty, fun _ => hempty⟩
  · exact ⟨_, h.checked_stored hk, nofun⟩
  · exact ⟨_, sampleChecked_front hfirst hlt.le, nofun⟩
  · exact ⟨_, h.checked_behind hlast hlt, nofun⟩
  · exact ⟨_, h.checked_between hkeys ha hb, nofun⟩

/-- Between two neighbours a track is a straight line in every component. -/
lemma Ordered.sample_between (h : Ordered t) (hkeys : t.keys.toList = front ++ a :: b :: rest)
    (ha : a.frame < f) (hb : f < b.frame) : ∃ p, t.sample f = some p ∧ ∀ c, p.component c =
        AffineMap.lineMap (a.transform.component c) (b.transform.component c)
          (((f : ℝ) - a.frame) / ((b.frame : ℝ) - a.frame)) ∧
      p.component c ∈ Set.uIcc (a.transform.component c) (b.transform.component c) := by
  have hs := fraction_mem hb.le a.frame
  refine ⟨_, sample_of_checked (h.checked_between hkeys ha hb), fun c => ?_⟩
  rw [lerp_component hs]
  refine ⟨?_, lineMap_mem_uIcc hs _ _⟩
  rw [Nat.cast_sub ha.le, Nat.cast_sub (ha.trans hb).le]

lemma Ordered.sampledAt (h : Ordered t) (f : ℕ) : SampledAt t f where
  none_iff := by
    obtain ⟨sample, hsample, hnone⟩ := h.exists_checked f
    constructor
    · intro hf
      exact hnone ((sample_of_checked hsample).symm.trans hf)
    · intro hempty
      exact sample_of_checked (sampleChecked_empty hempty)
  stored := by
    rintro k hk rfl
    exact sample_of_checked (h.checked_stored hk)
  before _ hfirst hlt := sample_of_checked (sampleChecked_front hfirst hlt.le)
  behind _ hlast hlt := sample_of_checked (h.checked_behind hlast hlt)
  between _ _ _ _ hkeys ha hb := h.sample_between hkeys ha hb
  covered := h.covered f
  faultless := by
    obtain ⟨sample, hsample, -⟩ := h.exists_checked f
    rw [sample_of_checked hsample]
    exact hsample

end Neighbours

/-- A track shows nothing just when it has no key. Otherwise it shows at the frame of a key that
key, in front of all keys the first, behind them all the last, and between two neighbours the point
of the straight line between them in each of the six components; and every frame is one of these.
No index and no difference of frames is ever out of its range. -/
theorem pushes_sampled (pushes : List (TransformKey ℝ)) (f : ℕ) :
    SampledAt (pushes.foldl Track.push Track.empty) f :=
  (pushes_holdLast pushes).ordered.sampledAt f

end Proofs

end Stagecraft
