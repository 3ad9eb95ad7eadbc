import Mathlib
import Stagecraft.Binary64
import Stagecraft.Proofs.ContentKeys
import Stagecraft.Proofs.Outcomes
import Stagecraft.Settings

/-!
# Content streams

The octets that go into a digest show what they are made of. The length in front of a part says
where the part ends, so a stream is cut into its parts in one way only, and from the text of a part
its value is known, number by number. What is behind the value is known, too: no field is left out
but where it has no value, and no two values of a field are written alike. So two movies with their
options, or two reels, put the same octets into a digest only if they are the same.
-/

namespace Stagecraft

variable {K : Type} [Numeral K]

/-- A value whose text tells what it is: its numbers are among those printed apart, and its length
fits into the eight octets in front of it. -/
structure Json.Legible (ns : Set (Number K)) (v : Json K) : Prop where
  numbers : ∀ n ∈ v.numbers, n ∈ ns
  length : v.octets.length < 2 ^ 64

end Stagecraft

namespace Stagecraft.Proofs

section Streams

/-- Numbers below `2 ^ 64` are known by eight octets. -/
lemma littleEndian_inj {m n : ℕ} (hm : m < 2 ^ 64) (hn : n < 2 ^ 64)
    (h : littleEndian m = littleEndian n) : m = n := by
  have hoctet : ∀ i < 8, (m >>> (8 * i)) % 2 ^ 8 = (n >>> (8 * i)) % 2 ^ 8 := by
    intro i hi
    have hi' := List.map_inj_left.mp h i (List.mem_range.mpr hi)
    have hnat := congrArg UInt8.toNat hi'
    rwa [UInt8.toNat_ofNat', UInt8.toNat_ofNat'] at hnat
  apply Nat.eq_of_testBit_eq
  intro j
  rcases Nat.lt_or_ge j 64 with hj | hj
  · have hbit := congrArg (Nat.testBit · (j % 8)) (hoctet (j / 8) (by omega))
    have hlow : j % 8 < 8 := by omega
    simp only [Nat.testBit_mod_two_pow, hlow, decide_true, Bool.true_and,
      Nat.testBit_shiftRight] at hbit
    rwa [Nat.div_add_mod] at hbit
  · have hpow : 2 ^ 64 ≤ 2 ^ j := Nat.pow_le_pow_right (by decide) hj
    rw [Nat.testBit_lt_two_pow (Nat.lt_of_lt_of_le hm hpow),
      Nat.testBit_lt_two_pow (Nat.lt_of_lt_of_le hn hpow)]

variable {a b s t : List UInt8}

/-- The length in front of a part says where the part ends. -/
lemma framed_append_inj (ha : a.length < 2 ^ 64) (hb : b.length < 2 ^ 64)
    (h : framed a ++ s = framed b ++ t) : a = b ∧ s = t := by
  unfold framed at h
  rw [List.append_assoc, List.append_assoc] at h
  obtain ⟨hlength, hrest⟩ := List.append_inj h (by rw [littleEndian_length, littleEndian_length])
  exact List.append_inj hrest (littleEndian_inj ha hb hlength)

lemma framed_append_ne_nil (a s : List UInt8) : framed a ++ s ≠ [] := by
  intro h
  have hlength := congrArg List.length h
  unfold framed at hlength
  rw [List.length_append, List.length_append, littleEndian_length] at hlength
  exact absurd hlength (by simp)

variable {K : Type} [Numeral K] {parts parts' : List (Json K)}

lemma octets_length (v : Json K) : v.octets.length = v.compact.utf8ByteSize := by
  unfold Json.octets ByteArray.toList
  rw [toList_loop_eq]
  simp

lemma legible_of_short {ns : Set (Number K)} {v : Json K}
    (h : (∀ n ∈ v.numbers, n ∈ ns) ∧ v.compact.utf8ByteSize < 2 ^ 64) : v.Legible ns where
  numbers := h.1
  length := by
    rw [octets_length]
    exact h.2

/-- A stream is cut into the texts of its parts in one way only. -/
theorem contentStream_eq_iff (h : ∀ v ∈ parts, v.octets.length < 2 ^ 64)
    (h' : ∀ v ∈ parts', v.octets.length < 2 ^ 64) : contentStream parts = contentStream parts' ↔
      List.Forall₂ (fun v w => v.compact = w.compact) parts parts' := by
  constructor
  · intro heq
    induction parts generalizing parts' with
    | nil =>
      cases parts' with
      | nil => exact .nil
      | cons w rest' => exact absurd heq.symm (framed_append_ne_nil _ _)
    | cons v rest ih =>
      cases parts' with
      | nil => exact absurd heq (framed_append_ne_nil _ _)
      | cons w rest' =>
        obtain ⟨hv, hrest⟩ := List.forall_mem_cons.mp h
        obtain ⟨hw, hrest'⟩ := List.forall_mem_cons.mp h'
        obtain ⟨hoctets, hstream⟩ := framed_append_inj hv hw heq
        exact .cons (octets_injective hoctets) (ih hrest hrest' hstream)
  · intro htexts
    refine (flatMap_eq_of_forall₂ (htexts.imp fun v w htext => ?_)).symm
    rw [Json.octets, Json.octets, htext]

end Streams

section Encoders

variable {K : Type}

lemma ofNat_inj {m n : ℕ} : Json.ofNat (K := K) m = Json.ofNat n ↔ m = n := by
  unfold Json.ofNat
  rw [Json.num.injEq, Number.int.injEq, Int.ofNat_inj]

lemma ofReal_inj {x y : K} : Json.ofReal x = Json.ofReal y ↔ x = y := by
  simp [Json.ofReal]

lemma list_toJson_injective {α : Type} {encode : α → Json K} (h : Function.Injective encode) :
    Function.Injective fun as : List α => Json.arr (as.map encode) :=
  fun _ _ heq => List.map_injective_iff.mpr h (Json.arr.inj heq)

lemma track_toJson_injective {κ : Type} {encode : κ → Json K} (h : Function.Injective encode) :
    Function.Injective (Track.toJson encode) :=
  fun _ _ heq => congrArg Track.mk (Array.toList_inj.mp (list_toJson_injective h heq))

lemma transformKey_toJson_injective : Function.Injective (TransformKey.toJson (K := K)) := by
  rintro ⟨frame, ⟨x, y, z⟩, ⟨pitch, yaw, roll⟩⟩ ⟨frame', ⟨x', y', z'⟩, ⟨pitch', yaw', roll'⟩⟩ h
  simpa [TransformKey.toJson, ofNat_inj, ofReal_inj, and_assoc] using h

lemma segment_toJson_injective : Function.Injective (Segment.toJson (K := K)) := by
  rintro ⟨first, last, name, speed⟩ ⟨first', last', name', speed'⟩ h
  simpa [Segment.toJson, ofNat_inj, ofReal_inj] using h

/-- A focus that is missing is written as no number is. -/
lemma settingsKey_toJson_injective : Function.Injective (SettingsKey.toJson (K := K)) := by
  rintro ⟨frame, focal, focus⟩ ⟨frame', focal', focus'⟩ h
  have hfocus : (focus.map Json.ofReal).getD .null = (focus'.map Json.ofReal).getD .null →
      focus = focus' := by
    intro hwritten
    cases focus with
    | none =>
      cases focus' with
      | none => rfl
      | some x' => cases hwritten
    | some x =>
      cases focus' with
      | none => cases hwritten
      | some x' => rw [ofReal_inj.mp hwritten]
  simp only [SettingsKey.toJson, Json.obj.injEq, List.cons.injEq, Prod.mk.injEq, true_and,
    and_true, ofNat_inj, ofReal_inj] at h
  obtain ⟨rfl, rfl, hwritten⟩ := h
  rw [hfocus hwritten]

/-- An event is written with its kind. -/
lemma reelEvent_toJson_injective : Function.Injective (ReelEvent.toJson (K := K)) := by
  intro e e' h
  cases e with
  | cameraCut frame time camera =>
    cases e' with
    | cameraCut frame' time' camera' => simpa [ReelEvent.toJson, ofNat_inj, ofReal_inj] using h
    | marker frame' time' label' => simp [ReelEvent.toJson] at h
  | marker frame time label =>
    cases e' with
    | cameraCut frame' time' camera' => simp [ReelEvent.toJson] at h
    | marker frame' time' label' => simpa [ReelEvent.toJson, ofNat_inj, ofReal_inj] using h

lemma anchor_name_injective : Function.Injective Anchor.name := by
  intro a b h
  cases a <;> cases b <;> first | rfl | exact absurd h (by decide)

lemma options_toJson_injective : Function.Injective (PlanOptions.toJson (K := K)) := by
  rintro ⟨anchor, samples, low, high, occupancy, height⟩
    ⟨anchor', samples', low', high', occupancy', height'⟩ h
  simpa [PlanOptions.toJson, ofNat_inj, ofReal_inj, anchor_name_injective.eq_iff] using h

variable [Scalar K]

lemma actorReel_toJson_injective : Function.Injective (ActorReel.toJson (K := K)) := by
  rintro ⟨actor, transform, animation⟩ ⟨actor', transform', animation'⟩ h
  simpa [ActorReel.toJson, actor_codec.injective.eq_iff,
    (track_toJson_injective transformKey_toJson_injective).eq_iff,
    (track_toJson_injective segment_toJson_injective).eq_iff] using h

lemma cameraReel_toJson_injective : Function.Injective (CameraReel.toJson (K := K)) := by
  rintro ⟨camera, transform, settings⟩ ⟨camera', transform', settings'⟩ h
  simpa [CameraReel.toJson, camera_codec.injective.eq_iff,
    (track_toJson_injective transformKey_toJson_injective).eq_iff,
    (track_toJson_injective settingsKey_toJson_injective).eq_iff] using h

/-- What is played back of a reel is known by its parts. -/
lemma reel_parts_iff {r r' : Reel K} :
    r.parts = r'.parts ↔ r' = { r with diagnostics := r'.diagnostics } := by
  constructor
  · intro h
    simp only [Reel.parts, List.cons.injEq, Json.str.injEq, ofNat_inj, and_true] at h
    obtain ⟨hname, hfps, hlast, hactors, hcameras, hlights, htimeline⟩ := h
    have hfps' := frameRate_codec.injective hfps
    have hactors' := list_toJson_injective actorReel_toJson_injective hactors
    have hcameras' := list_toJson_injective cameraReel_toJson_injective hcameras
    have hlights' := list_toJson_injective light_codec.injective hlights
    have htimeline' := list_toJson_injective reelEvent_toJson_injective htimeline
    rw [hname, hfps', hlast, hactors', hcameras', hlights', htimeline']
  · intro h
    rw [h]
    rfl

end Encoders

section Preimages

variable {K : Type} [Scalar K] [Numeral K] {ns : Set (Number K)} {parts parts' : List (Json K)}

/-- Legible parts are known by their stream. -/
lemma contentStream_inj (hns : PrintedApart ns) (h : ∀ v ∈ parts, v.Legible ns)
    (h' : ∀ v ∈ parts', v.Legible ns) :
    contentStream parts = contentStream parts' ↔ parts = parts' := by
  refine ⟨fun heq => ?_, congrArg contentStream⟩
  rw [contentStream_eq_iff (fun v hv => (h v hv).length) fun v hv => (h' v hv).length] at heq
  induction heq with
  | nil => rfl
  | cons htext _ ih =>
    obtain ⟨hv, hrest⟩ := List.forall_mem_cons.mp h
    obtain ⟨hw, hrest'⟩ := List.forall_mem_cons.mp h'
    rw [compact_inj hns hv.numbers hw.numbers htext, ih hrest hrest']

lemma keyStream_iff {m m' : Movie K} {o o' : PlanOptions K} (hns : PrintedApart ns)
    (h : ∀ v ∈ [m.toJson, o.toJson], v.Legible ns)
    (h' : ∀ v ∈ [m'.toJson, o'.toJson], v.Legible ns) :
    keyStream o m = keyStream o' m' ↔ m = m' ∧ o = o' := by
  unfold keyStream
  rw [contentStream_inj hns h h', List.cons.injEq, List.cons.injEq, movie_codec.injective.eq_iff,
    options_toJson_injective.eq_iff, and_iff_left rfl]

/-- The octets that are digested show what is digested. Two sequences of values put the same octets
into a digest just when they have as many parts, with the same texts one by one. So, where numbers
are printed apart, two movies with their options have the same octets for their keys just when
movies and options are the same, and two reels are digested alike just when they agree in all but
the diagnostics. -/
theorem preimages_told_apart :
    (∀ parts parts' : List (Json K), (∀ v ∈ parts ++ parts', v.octets.length < 2 ^ 64) →
      (contentStream parts = contentStream parts' ↔
        List.Forall₂ (fun v w => v.compact = w.compact) parts parts')) ∧
    ∀ ns : Set (Number K), PrintedApart ns →
      (∀ (m m' : Movie K) (o o' : PlanOptions K),
        (∀ v ∈ [m.toJson, o.toJson] ++ [m'.toJson, o'.toJson], v.Legible ns) →
          (keyStream o m = keyStream o' m' ↔ m = m' ∧ o = o')) ∧
      ∀ r r' : Reel K, (∀ v ∈ r.parts ++ r'.parts, v.Legible ns) →
        (contentStream r.parts = contentStream r'.parts ↔
          r' = { r with diagnostics := r'.diagnostics }) := by
  refine ⟨?_, fun ns hns => ⟨?_, ?_⟩⟩
  · intro parts parts' h
    obtain ⟨hparts, hparts'⟩ := List.forall_mem_append.mp h
    exact contentStream_eq_iff hparts hparts'
  · intro m m' o o' h
    obtain ⟨hkey, hkey'⟩ := List.forall_mem_append.mp h
    exact keyStream_iff hns hkey hkey'
  · intro r r' h
    obtain ⟨hparts, hparts'⟩ := List.forall_mem_append.mp h
    rw [contentStream_inj hns hparts hparts', reel_parts_iff]

end Preimages

/-- A movie without actors, and its plan up to a frame. -/
def curtain : Movie Float := .empty "Curtain" 24

def curtainReel (last : ℕ) : Reel Float := ⟨"Curtain", ⟨24⟩, last, [], [], [], [], []⟩

/-- Options that differ in the anchor of corridors. -/
def curtainOptions (anchor : Anchor) : PlanOptions Float := ⟨anchor, 32, 12, 300, 0.7, 0.7⟩

def curtainNumbers : List Float := [24, 12, 300, 0.7, 32, 0, 1]

lemma curtain_printed : PrintedApart {n | ∃ x ∈ curtainNumbers, n.value = x} := by
  have hfinite : ∀ x ∈ curtainNumbers, Scalar.isFinite x = true := by decide +kernel
  have hdigits : ∀ x ∈ curtainNumbers, ∃ d ∈ [Decimal.mk false 24 0, ⟨false, 12, 0⟩, ⟨false, 3, 2⟩,
      ⟨false, 7, -1⟩, ⟨false, 32, 0⟩, ⟨false, 0, 0⟩, ⟨false, 1, 0⟩],
      Numeral.shortest .even x = .finite d := by decide +kernel
  have hapart : ∀ x ∈ curtainNumbers, ∀ y ∈ curtainNumbers,
      Json.writeNumber (.real x) = Json.writeNumber (.real y) → x = y := by decide +kernel
  constructor
  · rintro _ ⟨x, hx, rfl⟩
    exact hfinite _ hx
  · rintro _ ⟨x, hx, rfl⟩ -
    obtain ⟨d, -, hd⟩ := hdigits _ hx
    exact ⟨d, hd⟩
  · rintro _ _ ⟨x, hx, rfl⟩ ⟨y, hy, rfl⟩ - -
    exact hapart _ hx _ hy

/-- Texts cut at another place, options with another anchor and a reel with another last frame are
told apart. -/
theorem curtain_told_apart :
    PrintedApart {n | ∃ x ∈ curtainNumbers, n.value = x} ∧
      contentStream ([.str "ab", .str "c"] : List (Json Float)) ≠
        contentStream ([.str "a", .str "bc"] : List (Json Float)) ∧
      keyStream (curtainOptions .midpoint) curtain ≠
        keyStream (curtainOptions .nearestEdge) curtain ∧
      contentStream (curtainReel 0).parts ≠ contentStream (curtainReel 1).parts := by
  have hcut : ∀ v ∈ [.str "ab", .str "c"] ++ ([.str "a", .str "bc"] : List (Json Float)),
      v.octets.length < 2 ^ 64 := by
    simp only [octets_length]
    decide +kernel
  have hkey : ∀ v ∈ [curtain.toJson, (curtainOptions .midpoint).toJson] ++
      [curtain.toJson, (curtainOptions .nearestEdge).toJson],
      (∀ n ∈ v.numbers, ∃ x ∈ curtainNumbers, n.value = x) ∧ v.compact.utf8ByteSize < 2 ^ 64 := by
    decide +kernel
  have hreel : ∀ v ∈ (curtainReel 0).parts ++ (curtainReel 1).parts,
      (∀ n ∈ v.numbers, ∃ x ∈ curtainNumbers, n.value = x) ∧ v.compact.utf8ByteSize < 2 ^ 64 := by
    decide +kernel
  obtain ⟨hcuts, htold⟩ := preimages_told_apart (K := Float)
  obtain ⟨hkeys, hreels⟩ := htold _ curtain_printed
  refine ⟨curtain_printed, fun heq => ?_, fun heq => ?_, fun heq => ?_⟩
  · cases (hcuts _ _ hcut).mp heq with
    | cons htext _ => exact absurd htext (by decide +kernel)
  · have hsame := (hkeys _ _ _ _ fun v hv => legible_of_short (hkey v hv)).mp heq
    exact absurd (congrArg PlanOptions.anchor hsame.2) (by decide)
  · have hsame := (hreels _ _ fun v hv => legible_of_short (hreel v hv)).mp heq
    exact absurd (congrArg Reel.lastFrame hsame) (by decide)

end Stagecraft.Proofs
