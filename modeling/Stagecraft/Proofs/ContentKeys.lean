import Stagecraft.Cache
import Stagecraft.Proofs.DistinctTexts
import Stagecraft.Proofs.MovieCodecs

/-!
# Content keys

The key of a movie under some options tells it from every other movie, as long as the digest does:
the key shows the digest, the digest stands for its stream, the options put the same octets behind
the movie's, and a movie is decoded from its text's value.
-/

namespace Stagecraft

variable {K : Type} [Scalar K] [Numeral K]

/-- The octets that make the key of a movie under some options. -/
def keyStream (o : PlanOptions K) (m : Movie K) : List UInt8 :=
  contentStream [m.toJson, o.toJson]

/-- Movies that are told apart by their keys: their numbers are finite and printed apart, and the
digest of no two different streams is the same. -/
structure ToldApart (o : PlanOptions K) (S : Set (Movie K)) : Prop where
  printed : PrintedApart {n | ∃ m ∈ S, n ∈ m.toJson.numbers}
  no_collision : ∀ m ∈ S, ∀ m' ∈ S,
    Sha256.digest (keyStream o m) = Sha256.digest (keyStream o m') → keyStream o m = keyStream o m'

end Stagecraft

namespace Stagecraft.Proofs

section Octets

lemma toList_loop_eq (bs : ByteArray) (i : ℕ) (done : List UInt8) :
    ByteArray.toList.loop bs i done = done.reverse ++ bs.data.toList.drop i := by
  fun_induction ByteArray.toList.loop bs i done with
  | case1 i done hi ih =>
    have hlength : i < bs.data.toList.length := by simpa using hi
    have hget : bs.get! i = bs.data.toList[i] := by
      rw [Array.getElem_toList]
      exact getElem!_pos bs.data i hi
    rw [ih, List.drop_eq_getElem_cons hlength, hget]
    simp
  | case2 i done hi =>
    have hlength : bs.data.toList.length ≤ i := by simpa using hi
    rw [List.drop_eq_nil_of_le hlength, List.append_nil]

lemma byteArray_toList_injective {a b : ByteArray} (h : a.toList = b.toList) : a = b := by
  unfold ByteArray.toList at h
  rw [toList_loop_eq, toList_loop_eq] at h
  exact ByteArray.ext (Array.toList_inj.mp (by simpa using h))

lemma octets_injective {K : Type} [Numeral K] {v w : Json K} (h : v.octets = w.octets) :
    v.compact = w.compact :=
  String.toByteArray_inj.mp (byteArray_toList_injective h)

/-- An octet is known by its two digits. -/
lemma hexChars_injective {x y : UInt8}
    (hhigh : Json.hexChar (x.toNat / 16) = Json.hexChar (y.toNat / 16))
    (hlow : Json.hexChar (x.toNat % 16) = Json.hexChar (y.toNat % 16)) : x = y := by
  have hdigit {m n : ℕ} (hm : m < 16) (hn : n < 16) (h : Json.hexChar m = Json.hexChar n) :
      m = n := by
    have hread := hexDigit_hexChar m hm
    rw [h, hexDigit_hexChar n hn] at hread
    exact (Option.some.inj hread).symm
  have hx := x.toNat_lt
  have hy := y.toNat_lt
  have hdiv := hdigit (by omega) (by omega) hhigh
  have hmod := hdigit (by omega) (by omega) hlow
  exact UInt8.toNat_inj.mp (by omega)

lemma hex_injective {a b : List UInt8} (h : Sha256.hex a = Sha256.hex b) : a = b := by
  replace h := String.ofList_injective h
  induction a generalizing b with
  | nil =>
    cases b with
    | nil => rfl
    | cons y b => cases h
  | cons x a ih =>
    cases b with
    | nil => cases h
    | cons y b =>
      obtain ⟨hhigh, htail⟩ := List.cons.inj h
      obtain ⟨hlow, hrest⟩ := List.cons.inj htail
      rw [hexChars_injective hhigh hlow, ih hrest]

lemma littleEndian_length (n : ℕ) : (littleEndian n).length = 8 := by
  rw [littleEndian, List.length_map, List.length_range]

/-- The length in front of the octets of a part does not hide where they begin. -/
lemma framed_injective {a b : List UInt8} (h : framed a = framed b) : a = b :=
  (List.append_inj h (by rw [littleEndian_length, littleEndian_length])).2

end Octets

section Keys

variable {K : Type} [Scalar K] [Numeral K] {o : PlanOptions K} {S : Set (Movie K)}

omit [Numeral K] in
lemma movie_toJson_injective {m m' : Movie K} (h : m.toJson = m'.toJson) : m = m' :=
  movie_codec.injective h

/-- Movies with the same octets under the same options are the same. -/
lemma keyStream_injective (h : ToldApart o S) {m m' : Movie K} (hm : m ∈ S)
    (hm' : m' ∈ S) (heq : keyStream o m = keyStream o m') : m = m' := by
  have hframed : framed m.toJson.octets = framed m'.toJson.octets := by
    unfold keyStream contentStream at heq
    rw [List.flatMap_cons, List.flatMap_cons] at heq
    exact List.append_cancel_right heq
  have htext := octets_injective (framed_injective hframed)
  exact movie_toJson_injective
    (compact_inj h.printed (fun n hn => ⟨m, hm, hn⟩) (fun n hn => ⟨m', hm', hn⟩) htext)

theorem key_eq_iff (h : ToldApart o S) {m m' : Movie K} (hm : m ∈ S) (hm' : m' ∈ S) :
    (ReelCache.empty o).key m = (ReelCache.empty o).key m' ↔ m = m' := by
  refine ⟨fun heq => ?_, fun heq => by rw [heq]⟩
  have hdigest : Sha256.digest (keyStream o m) = Sha256.digest (keyStream o m') :=
    hex_injective heq
  exact keyStream_injective h hm hm' (h.no_collision m hm m' hm' hdigest)

end Keys

end Stagecraft.Proofs
