import Stagecraft.Proofs.FilledTracks
import Stagecraft.Proofs.JoinedCurves
import Stagecraft.Proofs.ZeroDivisors

/-!
# Measured curves

A curve is measured along a way of points, as many to each segment as there are chords. Row `j` of
the table has the parameter of point `j` of the way and the length of the way up to it, so a stretch
of rows with one length stands still. An arclength lies in the first cell of the table that reaches
it, and the parameter there is in proportion.
-/

namespace Stagecraft.Proofs

section Ways

variable {q : ℕ → Vec3 ℝ} {i j : ℕ}

lemma distance_nonneg (a b : Vec3 ℝ) : 0 ≤ a.distance b :=
  Real.sqrt_nonneg _

lemma eq_of_distance_eq_zero {a b : Vec3 ℝ} (h : a.distance b = 0) : a = b := by
  have hsum : (b.x - a.x) * (b.x - a.x) + (b.y - a.y) * (b.y - a.y) +
      (b.z - a.z) * (b.z - a.z) ≤ 0 := Real.sqrt_eq_zero'.mp h
  have hx := mul_self_nonneg (b.x - a.x)
  have hy := mul_self_nonneg (b.y - a.y)
  have hz := mul_self_nonneg (b.z - a.z)
  have hpart {u v : ℝ} (h : (v - u) * (v - u) ≤ 0) : u = v :=
    (sub_eq_zero.mp (mul_self_eq_zero.mp (le_antisymm h (mul_self_nonneg _)))).symm
  exact vec3_ext (hpart (by linarith)) (hpart (by linarith)) (hpart (by linarith))

/-- The length of the way through some points, up to one of them. -/
noncomputable def wayLength (q : ℕ → Vec3 ℝ) (j : ℕ) : ℝ :=
  ∑ i ∈ Finset.range j, (q i).distance (q (i + 1))

lemma wayLength_zero : wayLength q 0 = 0 :=
  Finset.sum_range_zero _

lemma wayLength_succ (q : ℕ → Vec3 ℝ) (j : ℕ) :
    wayLength q (j + 1) = wayLength q j + (q j).distance (q (j + 1)) :=
  Finset.sum_range_succ _ j

lemma wayLength_mono (q : ℕ → Vec3 ℝ) : Monotone (wayLength q) := by
  refine monotone_nat_of_le_succ fun j => ?_
  rw [wayLength_succ]
  exact le_add_of_nonneg_right (distance_nonneg _ _)

lemma wayLength_nonneg (q : ℕ → Vec3 ℝ) (j : ℕ) : 0 ≤ wayLength q j :=
  wayLength_zero.symm.trans_le (wayLength_mono q j.zero_le)

/-- Where a way grows no longer, it stays at its point. -/
lemma eq_of_wayLength_eq (hij : i ≤ j) (h : wayLength q i = wayLength q j) : q i = q j := by
  induction j, hij using Nat.le_induction with
  | base => rfl
  | succ j hij ih =>
    have hfront := wayLength_mono q hij
    rw [wayLength_succ] at h
    have hchord := distance_nonneg (q j) (q (j + 1))
    rw [ih (by linarith)]
    exact eq_of_distance_eq_zero (by linarith)

end Ways

section Surveys

variable {n : ℕ} {q : ℕ → Vec3 ℝ}

/-- The row of a table for a point of a way with `n` chords to a segment. -/
noncomputable def wayRow (n : ℕ) (q : ℕ → Vec3 ℝ) (j : ℕ) : ℝ × ℝ :=
  (j / n, wayLength q j)

lemma wayRow_parameter (hn : 0 < n) (q : ℕ → Vec3 ℝ) (i k : ℕ) :
    (wayRow n q (i * n + k)).1 = i + k / n := by
  have hn' : (n : ℝ) ≠ 0 := Nat.cast_ne_zero.mpr hn.ne'
  unfold wayRow
  push_cast
  field_simp

/-- A survey that has come to a point of a way. -/
structure Surveyed (n : ℕ) (q : ℕ → Vec3 ℝ) (j : ℕ) (s : Survey ℝ) : Prop where
  last_eq : s.last = q j
  length_eq : s.length = wayLength q j
  rows_eq : s.rows.toList = (List.range (j + 1)).map (wayRow n q)

/-- The way goes along a segment. -/
def GoesAlong (n : ℕ) (q : ℕ → Vec3 ℝ) (i : ℕ) (segment : CurveSegment ℝ) : Prop :=
  ∀ k ≤ n, q (i * n + k) = segment.cubic.point (k / n : ℝ)

lemma Surveyed.chord (hn : 0 < n) {i k : ℕ} {segment : CurveSegment ℝ} {s : Survey ℝ}
    (h : Surveyed n q (i * n + k) s)
    (hpoint : q (i * n + (k + 1)) = segment.cubic.point (((k + 1 : ℕ) : ℝ) / n)) :
    Surveyed n q (i * n + (k + 1)) (Survey.chord n segment i s (k + 1)) := by
  have hlength : s.length + s.last.distance (segment.cubic.point (((k + 1 : ℕ) : ℝ) / n)) =
      wayLength q (i * n + (k + 1)) := by
    rw [h.length_eq, h.last_eq, ← hpoint]
    exact (wayLength_succ q (i * n + k)).symm
  have hparameter : (i : ℝ) + ((k + 1 : ℕ) : ℝ) / n = ((i * n + (k + 1) : ℕ) : ℝ) / n :=
    (wayRow_parameter hn q i (k + 1)).symm
  refine ⟨hpoint.symm, hlength, ?_⟩
  change (s.rows.push ((i : ℝ) + ((k + 1 : ℕ) : ℝ) / n,
    s.length + s.last.distance (segment.cubic.point (((k + 1 : ℕ) : ℝ) / n)))).toList = _
  rw [hlength, hparameter, Array.toList_push, h.rows_eq, ← Nat.add_assoc,
    List.range_succ (n := i * n + k + 1), List.map_append]
  rfl

/-- One more segment. -/
lemma Surveyed.along (hn : 0 < n) {i : ℕ} {segment : CurveSegment ℝ} {s : Survey ℝ}
    (h : Surveyed n q (i * n) s) (hsegment : GoesAlong n q i segment) :
    Surveyed n q ((i + 1) * n) (Survey.along n s (segment, i)) := by
  have hchords (k : ℕ) (hk : k ≤ n) :
      Surveyed n q (i * n + k) ((List.range' 1 k).foldl (Survey.chord n segment i) s) := by
    induction k with
    | zero => exact h
    | succ k ih =>
      rw [List.range'_concat, List.foldl_append, one_mul, add_comm 1 k]
      exact (ih (Nat.le_of_succ_le hk)).chord hn (hsegment (k + 1) hk)
  rw [Nat.succ_mul]
  exact hchords n le_rfl

lemma Surveyed.segments (hn : 0 < n) {segments : List (CurveSegment ℝ)} {i : ℕ} {s : Survey ℝ}
    (h : Surveyed n q (i * n) s)
    (hsegments : ∀ {j : ℕ} {segment : CurveSegment ℝ}, segments[j]? = some segment →
      GoesAlong n q (i + j) segment) :
    Surveyed n q ((i + segments.length) * n)
      ((segments.zipIdx i).foldl (Survey.along n) s) := by
  induction segments generalizing i s with
  | nil => exact h
  | cons segment rest ih =>
    have hrest {j : ℕ} {s' : CurveSegment ℝ} (hj : rest[j]? = some s') :
        GoesAlong n q (i + 1 + j) s' := by
      rw [Nat.add_assoc, Nat.add_comm 1 j]
      exact hsegments (j := j + 1) hj
    have hnext := ih (h.along hn (hsegments (j := 0) rfl)) hrest
    rw [Nat.add_assoc, Nat.add_comm 1] at hnext
    exact hnext

end Surveys

section Points

/-- The point of a curve at a parameter, which counts segments. -/
def pointAt? {K : Type} [Scalar K] (c : Curve K) (u : K) : Option (Vec3 K) :=
  let i := min (Scalar.floor u) (c.segments.size - 1)
  c.segments[i]?.map fun s => s.cubic.point (u - (i : K))

/-- The points that a curve is measured along. -/
noncomputable def way (n : ℕ) (c : Curve ℝ) (j : ℕ) : Vec3 ℝ :=
  (pointAt? c (j / n : ℝ)).getD Vec3.zero

variable {spline : Spline ℝ} {n samples : ℕ} {c : Curve ℝ}

/-- Where one segment ends and the next one starts, it does not matter which of them is asked. -/
lemma Joined.pointAt?_eq (h : Joined spline c) {i : ℕ} {s : CurveSegment ℝ}
    (hs : c.segments[i]? = some s) {t : ℝ} (ht : t ∈ Set.Icc (0 : ℝ) 1) :
    pointAt? c (i + t) = some (s.cubic.point t) := by
  have hi : i < c.segments.size := (Array.getElem?_eq_some_iff.mp hs).1
  have hpoint (j : ℕ) (hj : min ⌊(i : ℝ) + t⌋₊ (c.segments.size - 1) = j) :
      pointAt? c (i + t) = c.segments[j]?.map fun s => s.cubic.point (i + t - (j : ℝ)) := by
    subst hj
    rfl
  obtain ⟨hzero, hone⟩ := ht
  -- The end of a segment is the start of the next one, but that of the last is its own.
  rcases hone.lt_or_eq with hlt | rfl
  · have hfloor : ⌊(i : ℝ) + t⌋₊ = i := by
      rw [Nat.floor_eq_iff (by positivity)]
      constructor <;> linarith
    rw [hpoint i (by omega), hs, add_sub_cancel_left]
    rfl
  · have hfloor : ⌊(i : ℝ) + 1⌋₊ = i + 1 := by exact_mod_cast Nat.floor_natCast (i + 1)
    by_cases hnext : i + 1 < c.segments.size
    · have hs' := Array.getElem?_eq_getElem hnext
      rw [hpoint (i + 1) (by omega), hs', (h.joins hs hs' (.inl rfl)).1, Nat.cast_add, Nat.cast_one,
        sub_self]
      rfl
    · rw [hpoint i (by omega), hs, add_sub_cancel_left]
      rfl

lemma Joined.goesAlong (h : Joined spline c) (hn : 0 < n) {i : ℕ} {s : CurveSegment ℝ}
    (hs : c.segments[i]? = some s) : GoesAlong n (way n c) i s := by
  intro k hk
  have hn' : (0 : ℝ) < n := Nat.cast_pos.mpr hn
  have hparameter : ((i * n + k : ℕ) : ℝ) / n = i + k / n :=
    wayRow_parameter hn (way n c) i k
  have hmem : (k / n : ℝ) ∈ Set.Icc (0 : ℝ) 1 :=
    ⟨by positivity, (div_le_one hn').mpr (Nat.cast_le.mpr hk)⟩
  unfold way
  rw [hparameter, h.pointAt?_eq hs hmem]
  rfl

/-- A curve with the table of a way. -/
structure Charted (n : ℕ) (q : ℕ → Vec3 ℝ) (c : Curve ℝ) : Prop where
  chords_pos : 0 < n
  rows_eq : c.table.toList = (List.range (c.segments.size * n + 1)).map (wayRow n q)
  length_eq : c.length = wayLength q (c.segments.size * n)

/-- A way is surveyed from its first point, where the first segment starts. -/
lemma surveyed_of_segments {q : ℕ → Vec3 ℝ} (hn : 0 < n) {segments : List (CurveSegment ℝ)}
    (hne : segments ≠ []) (hsegments : ∀ {i : ℕ} {s : CurveSegment ℝ}, segments[i]? = some s →
      GoesAlong n q i s) :
    Surveyed n q (segments.length * n) (Survey.ofSegments n segments) := by
  obtain ⟨first, rest, rfl⟩ := List.exists_cons_of_ne_nil hne
  have hfirst : first.cubic.point 0 = q 0 := by
    have hstart := hsegments (i := 0) rfl 0 n.zero_le
    rw [Nat.zero_mul, Nat.cast_zero, zero_div] at hstart
    exact hstart.symm
  have hstart : Surveyed n q (0 * n) ⟨first.cubic.point 0, 0, #[(0, 0)]⟩ := by
    rw [Nat.zero_mul]
    refine ⟨hfirst, wayLength_zero.symm, ?_⟩
    rw [Nat.zero_add, List.range_one, List.map_singleton, wayRow, wayLength_zero, Nat.cast_zero,
      zero_div]
  have hfrom {j : ℕ} {s : CurveSegment ℝ} (hs : (first :: rest)[j]? = some s) :
      GoesAlong n q (0 + j) s := by
    rw [Nat.zero_add]
    exact hsegments hs
  have hend := hstart.segments hn hfrom
  rw [Nat.zero_add] at hend
  unfold Survey.ofSegments
  simp only [zero_real]
  exact hend

lemma charted_of_ofSpline? (h : Curve.ofSpline? spline samples = some c) :
    Charted (max samples 4) (way (max samples 4) c) c := by
  have hn : 0 < max samples 4 := lt_max_of_lt_right (by norm_num)
  have hjoined := joined_of_ofSpline? h
  obtain ⟨htable, hlength⟩ := ofSpline?_survey h
  have hne : c.segments.toList ≠ [] :=
    List.ne_nil_of_length_pos (Array.length_toList ▸ ofSpline?_segments h)
  have hsurvey := surveyed_of_segments (q := way (max samples 4) c) hn hne fun hs =>
    hjoined.goesAlong hn (Array.getElem?_toList ▸ hs)
  rw [Array.length_toList] at hsurvey
  exact ⟨hn, (congrArg Array.toList htable).trans hsurvey.rows_eq,
    hlength.trans hsurvey.length_eq⟩

end Points

section Lookup

variable {s s' : ℝ} {row row' : ℝ × ℝ}

/-- A parameter in proportion lies between those of the rows. -/
lemma rowsBetween_mem (hrows : row.1 ≤ row'.1) (hs : s ∈ Set.Icc row.2 row'.2) :
    rowsBetween s row row' ∈ Set.Icc row.1 row'.1 := by
  obtain ⟨hlow, hhigh⟩ := hs
  unfold rowsBetween
  split
  next => exact ⟨hrows, le_rfl⟩
  next hwide =>
    have hpos : 0 < row'.2 - row.2 := epsilon_pos.trans (not_le.mp hwide)
    have hrise : 0 ≤ row'.1 - row.1 := sub_nonneg.mpr hrows
    have hgain : 0 ≤ (row'.1 - row.1) * (s - row.2) / (row'.2 - row.2) :=
      div_nonneg (mul_nonneg hrise (sub_nonneg.mpr hlow)) hpos.le
    have hfull : (row'.1 - row.1) * (s - row.2) / (row'.2 - row.2) ≤ row'.1 - row.1 := by
      rw [div_le_iff₀ hpos]
      exact mul_le_mul_of_nonneg_left (sub_le_sub_right hhigh _) hrise
    exact ⟨le_add_of_nonneg_right hgain, by linarith⟩

lemma rowsBetween_mono (hrows : row.1 ≤ row'.1) (hs : s ≤ s') :
    rowsBetween s row row' ≤ rowsBetween s' row row' := by
  unfold rowsBetween
  split
  next => exact le_rfl
  next hwide =>
    have hpos : 0 < row'.2 - row.2 := epsilon_pos.trans (not_le.mp hwide)
    have hrise : 0 ≤ row'.1 - row.1 := sub_nonneg.mpr hrows
    gcongr

lemma rowsBetween_end : rowsBetween row'.2 row row' = row'.1 := by
  unfold rowsBetween
  split
  next => rfl
  next hwide =>
    have hpos : 0 < row'.2 - row.2 := epsilon_pos.trans (not_le.mp hwide)
    rw [mul_div_cancel_right₀ _ hpos.ne', add_sub_cancel]

variable {n : ℕ} {q : ℕ → Vec3 ℝ} {c : Curve ℝ} {i j : ℕ} {d d' : ℝ}

/-- A point of a way is the first that is not short of an arclength. -/
structure Reaches (q : ℕ → Vec3 ℝ) (s : ℝ) (j : ℕ) : Prop where
  reached : s ≤ wayLength q j
  short : ∀ i < j, wayLength q i < s

lemma exists_reaches (hs : s ≤ wayLength q j) : ∃ i ≤ j, Reaches q s i := by
  classical
  have hex : ∃ i, s ≤ wayLength q i := ⟨j, hs⟩
  exact ⟨Nat.find hex, Nat.find_min' hex hs, Nat.find_spec hex,
    fun i hi => not_le.mp (Nat.find_min hex hi)⟩

lemma Reaches.mono (h : Reaches q s i) (h' : Reaches q s' j) (hs : s ≤ s') : i ≤ j := by
  by_contra hlt
  exact absurd (hs.trans h'.reached) (not_le.mpr (h.short j (not_le.mp hlt)))

lemma wayRow_mono (n : ℕ) (q : ℕ → Vec3 ℝ) (h : i ≤ j) : (wayRow n q i).1 ≤ (wayRow n q j).1 :=
  div_le_div_of_nonneg_right (Nat.cast_le.mpr h) n.cast_nonneg

/-- The parameter in the cell of a table that ends with a row. -/
noncomputable def cellParameter (n : ℕ) (q : ℕ → Vec3 ℝ) (s : ℝ) : ℕ → ℝ
  | 0 => 0
  | j + 1 => rowsBetween s (wayRow n q j) (wayRow n q (j + 1))

lemma Reaches.cellParameter_mem (h : Reaches q s j) :
    cellParameter n q s j ∈ Set.Icc (wayRow n q (j - 1)).1 (wayRow n q j).1 := by
  cases j with
  | zero =>
    have hzero : (wayRow n q 0).1 = 0 := by rw [wayRow, Nat.cast_zero, zero_div]
    rw [Nat.zero_sub, hzero]
    exact ⟨le_rfl, le_rfl⟩
  | succ j =>
    exact rowsBetween_mem (wayRow_mono n q j.le_succ) ⟨(h.short j j.lt_succ_self).le, h.reached⟩

/-- The parameter grows within a cell, and from one cell to those behind it. -/
lemma Reaches.cellParameter_mono (h : Reaches q s i) (h' : Reaches q s' j) (hs : s ≤ s') :
    cellParameter n q s i ≤ cellParameter n q s' j := by
  rcases (h.mono h' hs).eq_or_lt with rfl | hlt
  · cases i with
    | zero => exact le_rfl
    | succ i => exact rowsBetween_mono (wayRow_mono n q i.le_succ) hs
  · calc cellParameter n q s i ≤ (wayRow n q i).1 := h.cellParameter_mem.2
      _ ≤ (wayRow n q (j - 1)).1 := wayRow_mono n q (Nat.le_sub_one_of_lt hlt)
      _ ≤ cellParameter n q s' j := h'.cellParameter_mem.1

namespace Charted

lemma length_nonneg (h : Charted n q c) : 0 ≤ c.length := by
  rw [h.length_eq]
  exact wayLength_nonneg _ _

lemma size_eq (h : Charted n q c) : c.table.size = c.segments.size * n + 1 := by
  rw [← Array.length_toList, h.rows_eq, List.length_map, List.length_range]

lemma row_eq (h : Charted n q c) (hj : j ≤ c.segments.size * n) :
    c.table[j]? = some (wayRow n q j) := by
  rw [← Array.getElem?_toList, h.rows_eq, List.getElem?_map,
    List.getElem?_range (Nat.lt_succ_of_le hj)]
  rfl

/-- The arclength that is looked up for a distance. -/
lemma clamp_mem (h : Charted n q c) (d : ℝ) : Scalar.clamp 0 c.length d ∈ Set.Icc 0 c.length :=
  Proofs.clamp_mem h.length_nonneg d

lemma exists_reaches (h : Charted n q c) (d : ℝ) :
    ∃ j ≤ c.segments.size * n, Reaches q (Scalar.clamp 0 c.length d) j :=
  Proofs.exists_reaches (h.length_eq ▸ (h.clamp_mem d).2)

/-- Halving finds the first row that reaches an arclength. -/
lemma parameterAt_eq (h : Charted n q c) (hj : j ≤ c.segments.size * n)
    (hreach : Reaches q (Scalar.clamp 0 c.length d) j) :
    c.parameterAt d = cellParameter n q (Scalar.clamp 0 c.length d) j := by
  have hcount : (countFront c.table fun row => row.2 < Scalar.clamp 0 c.length d) = j := by
    apply countFront_eq
    · exact (hj.trans (Nat.le_succ _)).trans h.size_eq.ge
    · intro i hi
      rw [h.row_eq (hi.le.trans hj), Option.any_some, decide_eq_true_eq]
      exact hreach.short i hi
    · intro i hi hlt
      rw [h.row_eq (Nat.lt_succ_iff.mp (hlt.trans_eq h.size_eq)), Option.any_some,
        decide_eq_false_iff_not]
      exact not_lt.mpr (hreach.reached.trans (wayLength_mono q hi))
  rw [Proofs.parameterAt_eq]
  simp only [zero_real]
  rw [hcount]
  cases j with
  | zero => exact if_pos rfl
  | succ j =>
    rw [if_neg j.succ_ne_zero, Nat.add_sub_cancel, h.row_eq (Nat.le_of_succ_le hj), h.row_eq hj]
    rfl

lemma parameterAt_mono (h : Charted n q c) : Monotone c.parameterAt := by
  intro d d' hd
  have hclamp : Scalar.clamp 0 c.length d ≤ Scalar.clamp 0 c.length d' := by
    rw [clamp_real h.length_nonneg, clamp_real h.length_nonneg]
    exact max_le_max_left 0 (min_le_min_left c.length hd)
  obtain ⟨i, hi, hreach⟩ := h.exists_reaches d
  obtain ⟨j, hj, hreach'⟩ := h.exists_reaches d'
  rw [h.parameterAt_eq hi hreach, h.parameterAt_eq hj hreach']
  exact hreach.cellParameter_mono hreach' hclamp

lemma parameterAt_mem (h : Charted n q c) (d : ℝ) :
    c.parameterAt d ∈ Set.Icc (0 : ℝ) c.segments.size := by
  obtain ⟨j, hj, hreach⟩ := h.exists_reaches d
  obtain ⟨hlow, hhigh⟩ := hreach.cellParameter_mem (n := n)
  rw [h.parameterAt_eq hj hreach]
  refine ⟨(div_nonneg (j - 1).cast_nonneg n.cast_nonneg).trans hlow, hhigh.trans ?_⟩
  have hn : (0 : ℝ) < n := Nat.cast_pos.mpr h.chords_pos
  have hj' : (j : ℝ) ≤ c.segments.size * n := by exact_mod_cast hj
  exact (div_le_iff₀ hn).mpr hj'

/-- A tabulated arclength is found at the first row that has it. -/
lemma parameterAt_row (h : Charted n q c) (hj : j ≤ c.segments.size * n) :
    ∃ i ≤ j, wayLength q i = wayLength q j ∧ c.parameterAt (wayLength q j) = (i / n : ℝ) := by
  have hclamp : Scalar.clamp 0 c.length (wayLength q j) = wayLength q j :=
    clamp_of_mem (wayLength_nonneg q j) (h.length_eq ▸ wayLength_mono q hj)
  obtain ⟨i, hi, hreach⟩ := Proofs.exists_reaches (le_refl (wayLength q j))
  have heq : wayLength q i = wayLength q j :=
    le_antisymm (wayLength_mono q hi) hreach.reached
  refine ⟨i, hi, heq, ?_⟩
  rw [h.parameterAt_eq (hi.trans hj) (hclamp.symm ▸ hreach), hclamp, ← heq]
  cases i with
  | zero => rw [Nat.cast_zero, zero_div, cellParameter]
  | succ i => exact rowsBetween_end

end Charted

lemma ofSpline?_length {spline : Spline ℝ} {samples : ℕ}
    (h : Curve.ofSpline? spline samples = some c) : 0 ≤ c.length :=
  (charted_of_ofSpline? h).length_nonneg

end Lookup

section Locating

variable {c : Curve ℝ} {d : ℝ}

/-- A place that is located has the parameter of its arclength. -/
lemma locate_parameter (c : Curve ℝ) (d : ℝ) :
    ((c.locate d).1 : ℝ) + (c.locate d).2 = c.parameterAt d :=
  add_sub_cancel _ _

lemma locate_lt (h : 0 < c.segments.size) (d : ℝ) : (c.locate d).1 < c.segments.size :=
  (min_le_right _ _).trans_lt (Nat.sub_one_lt h.ne')

/-- A parameter beyond the last segment is one of the last segment. -/
lemma locate_mem (hsize : 0 < c.segments.size)
    (hparameter : c.parameterAt d ∈ Set.Icc (0 : ℝ) c.segments.size) :
    (c.locate d).2 ∈ Set.Icc (0 : ℝ) 1 := by
  obtain ⟨hzero, hend⟩ := hparameter
  have hlocal : (c.locate d).2 = c.parameterAt d -
      ((min ⌊c.parameterAt d⌋₊ (c.segments.size - 1) : ℕ) : ℝ) := rfl
  have hfloor := Nat.floor_le hzero
  have hnext := Nat.lt_floor_add_one (c.parameterAt d)
  rw [hlocal]
  rcases le_total ⌊c.parameterAt d⌋₊ (c.segments.size - 1) with hinside | hbeyond
  · rw [min_eq_left hinside]
    constructor <;> linarith
  · have hlast : ((c.segments.size - 1 : ℕ) : ℝ) = c.segments.size - 1 := by
      rw [Nat.cast_sub hsize, Nat.cast_one]
    have hbeyond' : ((c.segments.size - 1 : ℕ) : ℝ) ≤ ⌊c.parameterAt d⌋₊ :=
      Nat.cast_le.mpr hbeyond
    rw [min_eq_right hbeyond]
    constructor <;> linarith

/-- A curve with a length has a place at every arclength. -/
lemma sampleAt?_eq (hsize : 0 < c.segments.size) (hlength : 0 ≤ c.length) (d : ℝ) :
    ∃ place, c.sampleAt? d = some place ∧ pointAt? c (c.parameterAt d) = some place.position := by
  have hsegment := Array.getElem?_eq_getElem (locate_lt hsize d)
  have hsample : c.sampleAt? d = c.segments[(c.locate d).1]?.bind fun segment =>
      some (segment.sample (c.locate d).2) := by
    unfold Curve.sampleAt?
    simp only [guard, zero_real, if_pos hlength]
    rfl
  rw [hsegment] at hsample
  refine ⟨_, hsample, ?_⟩
  exact congrArg (Option.map fun s : CurveSegment ℝ => s.cubic.point (c.locate d).2) hsegment

end Locating

section Measures

variable {spline : Spline ℝ} {n samples : ℕ} {c : Curve ℝ}

/-- A curve with its table of arclength, from which places are looked up. -/
structure Measured (spline : Spline ℝ) (n : ℕ) (curve : Curve ℝ) : Prop where
  /-- There is a row for the start and one for each chord. -/
  size_eq : curve.table.size = curve.segments.size * n + 1
  first_row : curve.table[0]? = some (0, 0)
  last_row : curve.table[curve.segments.size * n]? =
    some ((curve.segments.size : ℝ), curve.length)
  increasing : curve.table.toList.Pairwise fun row row' => row.1 < row'.1 ∧ row.2 ≤ row'.2
  /-- At the arclength of a row is the point that was tabulated. -/
  tabulated : ∀ {i k : ℕ} {s : CurveSegment ℝ}, curve.segments[i]? = some s → k ≤ n →
    ∃ length place, curve.table[i * n + k]? = some ((i + k / n : ℝ), length) ∧
      curve.sampleAt? length = some place ∧ place.position = s.cubic.point (k / n : ℝ)
  located : ∀ d, (curve.locate d).1 < curve.segments.size ∧
    (curve.locate d).2 ∈ Set.Icc (0 : ℝ) 1
  onward : Monotone fun d => ((curve.locate d).1 : ℝ) + (curve.locate d).2
  begins : ∃ place, curve.sampleAt? 0 = some place ∧
    spline.points.head? = some place.position
  ends : ∃ place, curve.sampleAt? curve.length = some place ∧
    (if spline.closed then spline.points.head? else spline.points.getLast?) = some place.position
  /-- Around a curve, whole laps make no difference. -/
  laps : spline.closed = true → 0 < curve.length → ∀ d, ∃ w ∈ Set.Ico 0 curve.length,
    curve.wrap? d = some w ∧ ∀ k : ℤ, curve.wrap? (d + k * curve.length) = some w
  returns : spline.closed = true → 0 < curve.length → ∀ k : ℤ, ∃ place,
    curve.travelAt? (k * curve.length) = some place ∧ spline.points.head? = some place.position

lemma row_le {i k : ℕ} {s : CurveSegment ℝ} (hs : c.segments[i]? = some s) (hk : k ≤ n) :
    i * n + k ≤ c.segments.size * n :=
  calc i * n + k ≤ i * n + n := Nat.add_le_add_left hk _
    _ = (i + 1) * n := (Nat.succ_mul i n).symm
    _ ≤ c.segments.size * n := Nat.mul_le_mul_right n (Array.getElem?_eq_some_iff.mp hs).1

/-- Equal arclengths have equal points, so it does not matter which of their rows is found. -/
lemma sampleAt?_row (hjoined : Joined spline c) (h : Charted n (way n c) c) {i k : ℕ}
    {s : CurveSegment ℝ} (hs : c.segments[i]? = some s) (hk : k ≤ n) :
    ∃ place, c.sampleAt? (wayLength (way n c) (i * n + k)) = some place ∧
      place.position = s.cubic.point (k / n : ℝ) := by
  have hsize : 0 < c.segments.size := Nat.zero_lt_of_lt (Array.getElem?_eq_some_iff.mp hs).1
  obtain ⟨j, hle, heq, hparameter⟩ := h.parameterAt_row (row_le hs hk)
  obtain ⟨place, hplace, hpoint⟩ := sampleAt?_eq hsize h.length_nonneg
    (wayLength (way n c) (i * n + k))
  rw [hparameter] at hpoint
  have hposition : way n c j = place.position := by
    unfold way
    rw [hpoint]
    rfl
  refine ⟨place, hplace, ?_⟩
  rw [← hposition, eq_of_wayLength_eq hle heq]
  exact hjoined.goesAlong h.chords_pos hs k hk

/-- The first row is at the first control point. -/
lemma sampleAt?_start (hjoined : Joined spline c) (h : Charted n (way n c) c)
    (hsize : 0 < c.segments.size) :
    ∃ place, c.sampleAt? 0 = some place ∧ spline.points.head? = some place.position := by
  have hs := Array.getElem?_eq_getElem hsize
  obtain ⟨place, hplace, hposition⟩ := sampleAt?_row hjoined h hs n.zero_le
  rw [Nat.zero_mul, Nat.zero_add, wayLength_zero] at hplace
  rw [Nat.cast_zero, zero_div] at hposition
  refine ⟨place, hplace, ?_⟩
  rw [List.head?_eq_getElem?, hposition, hjoined.starts hs]

/-- The last row is at the end of the last segment. -/
lemma sampleAt?_end (hjoined : Joined spline c) (h : Charted n (way n c) c)
    (hsize : 0 < c.segments.size) : ∃ place, c.sampleAt? c.length = some place ∧
      (if spline.closed then spline.points.head? else spline.points.getLast?) =
        some place.position := by
  have hlast : c.segments.size - 1 + 1 = c.segments.size := Nat.sub_add_cancel hsize
  have hs := Array.getElem?_eq_getElem (Nat.sub_one_lt hsize.ne')
  have hn : (n : ℝ) ≠ 0 := Nat.cast_ne_zero.mpr h.chords_pos.ne'
  obtain ⟨place, hplace, hposition⟩ := sampleAt?_row hjoined h hs le_rfl
  rw [← Nat.succ_mul, Nat.succ_eq_add_one, hlast, ← h.length_eq] at hplace
  rw [div_self hn] at hposition
  refine ⟨place, hplace, ?_⟩
  have hend := hjoined.ends hs
  rw [hlast, ← hposition] at hend
  rw [← hend]
  have hcount := hjoined.size_eq
  cases hclosed : spline.closed
  · simp only [hclosed, Bool.false_eq_true, if_false] at hcount ⊢
    rw [hcount, List.getLast?_eq_getElem?, Nat.mod_eq_of_lt (by omega)]
  · simp only [hclosed, if_true] at hcount ⊢
    rw [hcount, Nat.mod_self, List.head?_eq_getElem?]

lemma wrap?_closed (hclosed : c.closed = true) (hlength : 0 < c.length) (d : ℝ) :
    c.wrap? d = some (c.length * Int.fract (d / c.length)) := by
  unfold Curve.wrap?
  rw [hclosed, zero_real, decide_eq_true hlength, ← modulo_real hlength]
  rfl

lemma wrap?_laps (hclosed : c.closed = true) (hlength : 0 < c.length) (d : ℝ) (k : ℤ) :
    c.wrap? (d + k * c.length) = c.wrap? d := by
  rw [wrap?_closed hclosed hlength, wrap?_closed hclosed hlength, add_div,
    mul_div_cancel_right₀ _ hlength.ne', Int.fract_add_intCast]

lemma wrap?_zero (hclosed : c.closed = true) (hlength : 0 < c.length) : c.wrap? 0 = some 0 := by
  rw [wrap?_closed hclosed hlength, zero_div, Int.fract_zero, mul_zero]

lemma measured_of_ofSpline? (h : Curve.ofSpline? spline samples = some c) :
    Measured spline (max samples 4) c := by
  have hjoined := joined_of_ofSpline? h
  have hcharted := charted_of_ofSpline? h
  have hsize := ofSpline?_segments h
  have hclosed := (ofSpline?_ok h).2.1
  generalize max samples 4 = n at hcharted ⊢
  have hn := hcharted.chords_pos
  have hbegins := sampleAt?_start hjoined hcharted hsize
  refine ⟨hcharted.size_eq, ?_, ?_, ?_, ?_, ?_, ?_, hbegins, sampleAt?_end hjoined hcharted hsize,
    ?_, ?_⟩
  · rw [hcharted.row_eq (Nat.zero_le _), wayRow, wayLength_zero, Nat.cast_zero, zero_div]
  · have hparameter := wayRow_parameter hn (way n c) c.segments.size 0
    rw [Nat.add_zero, Nat.cast_zero, zero_div, add_zero] at hparameter
    rw [hcharted.row_eq le_rfl, hcharted.length_eq, ← hparameter]
    rfl
  · rw [hcharted.rows_eq, List.pairwise_map]
    refine List.pairwise_lt_range.imp fun {i j} hij => ⟨?_, wayLength_mono _ hij.le⟩
    exact div_lt_div_of_pos_right (Nat.cast_lt.mpr hij) (Nat.cast_pos.mpr hn)
  · intro i k s hs hk
    obtain ⟨place, hplace, hposition⟩ := sampleAt?_row hjoined hcharted hs hk
    refine ⟨_, place, ?_, hplace, hposition⟩
    rw [hcharted.row_eq (row_le hs hk), ← wayRow_parameter hn (way n c)]
    rfl
  · exact fun d => ⟨locate_lt hsize d, locate_mem hsize (hcharted.parameterAt_mem d)⟩
  · simp only [locate_parameter]
    exact hcharted.parameterAt_mono
  · intro hlaps hpos d
    have hmem : c.length * Int.fract (d / c.length) ∈ Set.Ico 0 c.length :=
      ⟨mul_nonneg hpos.le (Int.fract_nonneg _),
        mul_lt_of_lt_one_right hpos (Int.fract_lt_one _)⟩
    have hwrap := wrap?_closed (hclosed.trans hlaps) hpos d
    exact ⟨_, hmem, hwrap, fun k => (wrap?_laps (hclosed.trans hlaps) hpos d k).trans hwrap⟩
  · intro hlaps hpos k
    obtain ⟨place, hplace, hposition⟩ := hbegins
    have hwrap := wrap?_laps (hclosed.trans hlaps) hpos 0 k
    rw [zero_add, wrap?_zero (hclosed.trans hlaps) hpos] at hwrap
    refine ⟨place, ?_, hposition⟩
    unfold Curve.travelAt?
    rw [hwrap]
    exact hplace

/-- Arclengths on a spline of two points or more are tabulated in order, and looking one up finds
the point that was tabulated for it. -/
theorem curve_measures_arclength (h : 2 ≤ spline.points.length) (samples : ℕ) :
    ∃ curve, Curve.ofSpline? spline samples = some curve ∧
      Measured spline (max samples 4) curve := by
  obtain ⟨curve, hcurve⟩ := ofSpline?_of_long h samples
  exact ⟨curve, hcurve, measured_of_ofSpline? hcurve⟩

/-- A curve without a length stays at one point. -/
lemma stands_of_length_eq_zero (h : Curve.ofSpline? spline samples = some c)
    (hlength : c.length = 0) {i : ℕ} {s : CurveSegment ℝ} (hs : c.segments[i]? = some s) :
    s.cubic.point 0 = s.cubic.point 1 := by
  have hcharted := charted_of_ofSpline? h
  have hjoined := joined_of_ofSpline? h
  generalize max samples 4 = n at hcharted
  have hn : (n : ℝ) ≠ 0 := Nat.cast_ne_zero.mpr hcharted.chords_pos.ne'
  have hnone (k : ℕ) (hk : k ≤ n) : wayLength (way n c) (i * n + k) = 0 := by
    refine le_antisymm ?_ (wayLength_nonneg _ _)
    rw [← hlength, hcharted.length_eq]
    exact wayLength_mono _ (row_le hs hk)
  have hstand := eq_of_wayLength_eq (Nat.le_add_right (i * n) n)
    ((hnone 0 n.zero_le).trans (hnone n le_rfl).symm)
  have hstart := hjoined.goesAlong hcharted.chords_pos hs 0 n.zero_le
  have hend := hjoined.goesAlong hcharted.chords_pos hs n le_rfl
  rw [Nat.cast_zero, zero_div] at hstart
  rw [div_self hn] at hend
  exact hstart.symm.trans (hstand.trans hend)

/-- The lap has a length, so that arclengths on it are brought around. -/
theorem lap_measures_arclength : 2 ≤ lap.points.length ∧ ∃ curve,
    Curve.ofSpline? lap 8 = some curve ∧ Measured lap 8 curve ∧ 0 < curve.length := by
  have hlong : 2 ≤ lap.points.length := le_rfl
  obtain ⟨curve, hcurve, hmeasured⟩ := curve_measures_arclength hlong 8
  refine ⟨hlong, curve, hcurve, hmeasured, ?_⟩
  have hjoined := joined_of_ofSpline? hcurve
  have hs := Array.getElem?_eq_getElem (ofSpline?_segments hcurve)
  refine (charted_of_ofSpline? hcurve).length_nonneg.lt_of_ne' fun hlength => ?_
  have hstart := hjoined.starts hs
  rw [stands_of_length_eq_zero hcurve hlength hs, ← hjoined.ends hs] at hstart
  exact zero_ne_one (congrArg Vec3.x (Option.some.inj hstart))

end Measures

end Stagecraft.Proofs
