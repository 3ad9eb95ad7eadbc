import Stagecraft.Proofs.RealScalar
import Stagecraft.Track

/-!
# Filled tracks

A track is filled up to `n` when it holds one key at each of the frames `0, …, n - 1` and no
other. Pushing the next frame appends, pushing the last frame again replaces, and sampling reads
the key at the frame or holds the last one.
-/

namespace Stagecraft.Proofs

variable {α κ : Type} [Keyed κ]

/-- Halving finds the boundary of a property that holds exactly in front of it. -/
lemma partitionPoint_eq (p : ℕ → Bool) (base size k : ℕ) (hk : k ≤ size)
    (hfront : ∀ i, i < k → p (base + i) = true)
    (hrest : ∀ i, k ≤ i → i < size → p (base + i) = false) :
    partitionPoint p base size = base + k := by
  fun_induction partitionPoint p base size generalizing k with
  | case1 base size hsize hp =>
    have hk1 : k = 1 := by
      by_contra hne
      have hf := hrest 0 (by omega) (by omega)
      simp only [Nat.add_zero] at hf
      rw [hf] at hp
      exact absurd hp.2 (by simp)
    rw [hk1]
  | case2 base size hsize hp =>
    have hk0 : k = 0 := by
      by_contra hne
      have hf := hfront 0 (by omega)
      simp only [Nat.add_zero] at hf
      exact hp ⟨by omega, hf⟩
    rw [hk0, Nat.add_zero]
  | case3 base size hsize half ih =>
    by_cases hm : p (base + half) = true
    · have hkm : half < k := by
        by_contra hle
        have hf := hrest half (by omega) (by omega)
        rw [hf] at hm
        exact absurd hm (by simp)
      rw [dif_pos hm] at ih
      rw [if_pos hm]
      have hi := ih (k - half) (by omega)
        (fun i hi => by rw [Nat.add_assoc]; exact hfront (half + i) (by omega))
        (fun i hi hlt => by rw [Nat.add_assoc]; exact hrest (half + i) (by omega) (by omega))
      rw [hi]
      omega
    · have hkm : k ≤ half := by
        by_contra hlt
        exact hm (hfront half (by omega))
      rw [dif_neg hm] at ih
      rw [if_neg hm]
      exact ih k (by omega) hfront (fun i hi hlt => hrest i hi (by omega))

lemma countFront_eq (xs : Array α) (p : α → Bool) (k : ℕ) (hk : k ≤ xs.size)
    (hfront : ∀ i, i < k → (xs[i]?).any p = true)
    (hrest : ∀ i, k ≤ i → i < xs.size → (xs[i]?).any p = false) :
    countFront xs p = k := by
  unfold countFront
  rw [partitionPoint_eq _ 0 xs.size k hk (by simpa using hfront) (by simpa using hrest),
    Nat.zero_add]

lemma countFront_append {front rest : List α} {p : α → Bool} (hfront : ∀ x ∈ front, p x = true)
    (hrest : ∀ x ∈ rest, p x = false) : countFront (front ++ rest).toArray p = front.length := by
  apply countFront_eq
  · simp
  · intro i hi
    rw [List.getElem?_toArray, List.getElem?_append_left hi, List.getElem?_eq_getElem hi,
      Option.any_some]
    exact hfront _ (List.getElem_mem hi)
  · intro i hi _
    rw [List.getElem?_toArray, List.getElem?_append_right hi]
    cases hx : rest[i - front.length]? with
    | none => rfl
    | some x => exact hrest x (List.mem_of_getElem? hx)

omit [Keyed κ] in
/-- A track is the list of its keys. -/
lemma track_ext {t t' : Track κ} (h : t.keys.toList = t'.keys.toList) : t = t' :=
  congrArg Track.mk (Array.toList_inj.mp h)

/-- A key behind all others is appended. -/
lemma push_append {t : Track κ} {key : κ} (h : ∀ k ∈ t.keys, Keyed.frame k < Keyed.frame key) :
    (t.push key).keys = t.keys.push key := by
  unfold Track.push
  cases hlast : t.keys.back? with
  | none => rfl
  | some last =>
    have hlt := h last (Array.mem_of_back? hlast)
    simp only [hlt, if_true]

/-- The frames of a track's keys. -/
def trackFrames (t : Track κ) : List ℕ :=
  t.keys.toList.map Keyed.frame

/-- One key at each of the first `n` frames. -/
def Filled (t : Track κ) (n : ℕ) : Prop :=
  trackFrames t = List.range n

namespace Filled

variable {t : Track κ} {n : ℕ}

lemma empty : Filled (Track.empty : Track κ) 0 := rfl

lemma size_eq (h : Filled t n) : t.keys.size = n := by
  have hlen := congrArg List.length h
  simpa only [trackFrames, List.length_map, Array.length_toList, List.length_range] using hlen

lemma frame_eq (h : Filled t n) {i : ℕ} {k : κ} (hk : t.keys[i]? = some k) :
    Keyed.frame k = i := by
  have hi : i < n := by
    rw [← h.size_eq]
    exact (Array.getElem?_eq_some_iff.mp hk).1
  have hget := congrArg (fun l => l[i]?) h
  simp only [trackFrames, List.getElem?_map, Array.getElem?_toList, hk, Option.map_some,
    List.getElem?_range hi, Option.some.injEq] at hget
  exact hget

/-- A key stands at its own frame. -/
lemma exists_key (h : Filled t n) {i : ℕ} (hi : i < n) :
    ∃ k, t.keys[i]? = some k ∧ Keyed.frame k = i := by
  have hsize : i < t.keys.size := by rw [h.size_eq]; exact hi
  exact ⟨t.keys[i], Array.getElem?_eq_getElem hsize, h.frame_eq (Array.getElem?_eq_getElem hsize)⟩

lemma countFront_lt (h : Filled t n) {f : ℕ} (hf : f ≤ n) :
    t.countFront (fun g => g < f) = f := by
  apply countFront_eq
  · rw [h.size_eq]
    exact hf
  · intro i hi
    obtain ⟨k, hk, hkf⟩ := h.exists_key (show i < n by omega)
    simp [hk, hkf, hi]
  · intro i hi hlt
    obtain ⟨k, hk, hkf⟩ := h.exists_key (show i < n by rw [← h.size_eq]; exact hlt)
    simp [hk, hkf, hi]

lemma countFront_le (h : Filled t n) (f : ℕ) :
    t.countFront (fun g => g ≤ f) = min (f + 1) n := by
  apply countFront_eq
  · rw [h.size_eq]
    exact min_le_right _ _
  · intro i hi
    obtain ⟨k, hk, hkf⟩ := h.exists_key (show i < n by omega)
    simp only [hk, Option.any_some, hkf, decide_eq_true_eq]
    omega
  · intro i hi hlt
    rw [h.size_eq] at hlt
    obtain ⟨k, hk, hkf⟩ := h.exists_key hlt
    simp only [hk, Option.any_some, hkf, decide_eq_false_iff_not]
    omega

lemma last?_eq (h : Filled t (n + 1)) : t.last? = t.keys[n]? := by
  unfold Track.last?
  rw [Array.back?_eq_getElem?, h.size_eq, Nat.add_sub_cancel]

lemma lastFrame?_eq (h : Filled t (n + 1)) : t.lastFrame? = some n := by
  obtain ⟨k, hk, hkf⟩ := h.exists_key (Nat.lt_succ_self n)
  unfold Track.lastFrame?
  rw [h.last?_eq, hk, Option.map_some, hkf]

/-- The frame after the last is appended. -/
lemma push_next (h : Filled t n) {key : κ} (hkey : Keyed.frame key = n) :
    (t.push key).keys = t.keys.push key := by
  refine push_append fun k hk => ?_
  obtain ⟨i, hi, rfl⟩ := Array.mem_iff_getElem.mp hk
  rw [h.frame_eq (Array.getElem?_eq_getElem hi), hkey, ← h.size_eq]
  exact hi

lemma push_next_getElem? (h : Filled t n) {key : κ} (hkey : Keyed.frame key = n) :
    (t.push key).keys[n]? = some key ∧ ∀ f < n, (t.push key).keys[f]? = t.keys[f]? := by
  rw [h.push_next hkey]
  refine ⟨?_, fun f hf => ?_⟩
  · rw [← h.size_eq, Array.getElem?_push_size]
  · rw [Array.getElem?_push, if_neg (by rw [h.size_eq]; exact hf.ne)]

/-- The last frame is replaced. -/
lemma push_last (h : Filled t (n + 1)) {key : κ} (hkey : Keyed.frame key = n) :
    (t.push key).keys = t.keys.setIfInBounds n key := by
  obtain ⟨k, hk, hkf⟩ := h.exists_key (Nat.lt_succ_self n)
  have hlast : t.keys.back? = some k := by
    rw [← hk]
    exact h.last?_eq
  have hnlt : ¬Keyed.frame k < Keyed.frame key := by omega
  have hcount : t.countFront (fun f => f < Keyed.frame key) = n := by
    rw [hkey]
    exact h.countFront_lt (Nat.le_succ n)
  have hsame : (t.keys[n]?).any (fun k => decide (Keyed.frame k = Keyed.frame key)) = true := by
    simp [hk, hkf, hkey]
  unfold Track.push
  rw [hlast]
  simp only [hnlt, if_false, hcount, hsame, if_true]

lemma push_last_getElem? (h : Filled t (n + 1)) {key : κ} (hkey : Keyed.frame key = n) :
    (t.push key).keys[n]? = some key ∧ ∀ f < n, (t.push key).keys[f]? = t.keys[f]? := by
  rw [h.push_last hkey]
  refine ⟨Array.getElem?_setIfInBounds_self_of_lt ?_, fun f hf => ?_⟩
  · rw [h.size_eq]
    exact Nat.lt_succ_self n
  · exact Array.getElem?_setIfInBounds_ne hf.ne'

lemma push_next_filled (h : Filled t n) {key : κ} (hkey : Keyed.frame key = n) :
    Filled (t.push key) (n + 1) := by
  unfold Filled trackFrames
  rw [h.push_next hkey, Array.toList_push, List.map_append, List.range_succ]
  unfold Filled trackFrames at h
  rw [h]
  simp [hkey]

lemma push_last_filled (h : Filled t (n + 1)) {key : κ} (hkey : Keyed.frame key = n) :
    Filled (t.push key) (n + 1) := by
  unfold Filled trackFrames
  rw [h.push_last hkey]
  apply List.ext_getElem?
  intro i
  rw [List.getElem?_map, Array.getElem?_toList, Array.getElem?_setIfInBounds]
  by_cases hi : n = i
  · subst hi
    simp [h.size_eq, hkey]
  · rw [if_neg hi, ← Array.getElem?_toList, ← List.getElem?_map]
    exact congrArg (fun l => l[i]?) h

/-- A filled track shows its key at every frame it holds, and its last one from there on. -/
lemma sample_eq {K : Type} [Scalar K] {t : TransformTrack K} (h : Filled t (n + 1)) (f : ℕ) :
    t.sample f = (t.keys[min f n]?).map TransformKey.transform := by
  obtain ⟨first, hfirst, hfirst0⟩ := h.exists_key (Nat.succ_pos n)
  obtain ⟨a, ha, haf⟩ := h.exists_key (show min f n < n + 1 by omega)
  have hframe : a.frame = min f n := haf
  unfold Track.sample
  simp only [Track.first?, hfirst, Option.bind_eq_bind, Option.bind_some]
  by_cases hf : f ≤ first.frame
  · have hf0 : min f n = 0 := by
      have hz : first.frame = 0 := hfirst0
      omega
    rw [if_pos hf, hf0, hfirst]
    rfl
  · have hcount : t.countFront (fun g => g ≤ f) - 1 = min f n := by
      rw [h.countFront_le]
      omega
    rw [if_neg hf, hcount, ha]
    by_cases hn : f < n
    · have hbound : t.countFront (fun g => g ≤ f) = f + 1 := by
        rw [h.countFront_le]
        omega
      obtain ⟨b, hb, -⟩ := h.exists_key (show f + 1 < n + 1 by omega)
      have haf' : a.frame = f := by omega
      rw [hbound, hb]
      simp [haf']
    · have hbound : t.countFront (fun g => g ≤ f) = n + 1 := by
        rw [h.countFront_le]
        omega
      have hout : t.keys[n + 1]? = none := by
        rw [Array.getElem?_eq_none_iff, h.size_eq]
      have hlast : t.last? = some a := by
        rw [h.last?_eq, ← ha]
        congr 1
        omega
      rw [hbound, hout]
      simp [hlast]

end Filled

end Stagecraft.Proofs
