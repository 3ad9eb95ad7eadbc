import Mathlib.Tactic.Common
import Stagecraft.Movie.Decoding

/-!
# Records read back

A record that was written as an object is read field by field, each by the value that stands under
its name. A `Codec` is an encoder with a decoder that undoes it, and the rules of `Finds` put the
codecs of the fields together to the codec of the record, in the order of the fields.
-/

namespace Stagecraft.Proofs

open Json (Reader lookup)

section Lookup

variable {K α : Type} {name other : String}

@[simp] lemma lookup_nil (name : String) : lookup name ([] : List (String × Json K)) = none := rfl

/-- What stands last counts. -/
@[simp] lemma lookup_append (name : String) (ms ns : List (String × Json K)) :
    lookup name (ms ++ ns) = (lookup name ns).or (lookup name ms) := by
  have hfrom (found : Option (Json K)) :
      ns.foldl (fun found m => if m.1 = name then some m.2 else found) found =
        (lookup name ns).or found := by
    unfold lookup
    induction ns generalizing found with
    | nil => rfl
    | cons m ns ih =>
      rw [List.foldl_cons, List.foldl_cons, ih, ih (if m.1 = name then some m.2 else none)]
      split
      next => rw [Option.or_assoc, Option.some_or]
      next => rw [Option.or_none]
  rw [← hfrom, lookup, lookup, List.foldl_append]

@[simp] lemma lookup_cons (name other : String) (v : Json K) (ms : List (String × Json K)) :
    lookup name ((other, v) :: ms) = (lookup name ms).or (if other = name then some v else none) :=
  lookup_append name [(other, v)] ms

@[simp] lemma lookup_optional (name other : String) (encode : α → Json K) (a : Option α) :
    lookup name (Json.optional other encode a) = if other = name then a.map encode else none := by
  cases a with
  | none => simp [Json.optional]
  | some a => simp [Json.optional]

end Lookup

/-- What is written of a value is read back, and it is never mistaken for a missing one. -/
structure Codec {K α : Type} (encode : α → Json K) (decode : Json K → Option α) : Prop where
  reads (a : α) : decode (encode a) = some a
  present (a : α) : encode a ≠ .null

lemma Codec.injective {K α : Type} {encode : α → Json K} {decode : Json K → Option α}
    (h : Codec encode decode) : Function.Injective encode := by
  intro a b hab
  have hread := h.reads a
  rw [hab, h.reads b] at hread
  exact (Option.some.inj hread).symm

/-- A reader of fields finds a value in a record. -/
def Finds {K α : Type} (r : Reader K α) (ms : List (String × Json K)) (a : α) : Prop :=
  StateT.run r (.named ms) = some (a, .named ms)

section Readers

variable {K α β : Type} {name : String} {v : Json K} {ms : List (String × Json K)} {a : α} {b : β}
  {encode : α → Json K} {decode : Json K → Option α} {f : α → Reader K β}

lemma Finds.pure : Finds (Pure.pure a) ms a := rfl

lemma Finds.bind {r : Reader K α} (h : Finds r ms a) (hf : Finds (f a) ms b) :
    Finds (r >>= f) ms b := by
  unfold Finds at *
  rw [StateT.run_bind, h]
  exact hf

lemma finds_next (name : String) (ms : List (String × Json K)) :
    Finds (Reader.next? name) ms (lookup name ms) := rfl

lemma finds_field (hv : lookup name ms = some v) (hread : decode v = some a) :
    Finds (Reader.field name decode) ms a := by
  refine (finds_next name ms).bind ?_
  rw [hv]
  change Option.bind (decode v) _ = _
  rw [hread]
  rfl

lemma Finds.field (h : Codec encode decode) (hv : lookup name ms = some (encode a))
    (hf : Finds (f a) ms b) : Finds (Reader.field name decode >>= f) ms b :=
  (finds_field hv (h.reads a)).bind hf

lemma Finds.fieldD {standard : α} (h : Codec encode decode)
    (hv : lookup name ms = some (encode a)) (hf : Finds (f a) ms b) :
    Finds (Reader.fieldD name standard decode >>= f) ms b := by
  have hfield : Finds (Reader.fieldD name standard decode) ms a := by
    refine (finds_next name ms).bind ?_
    rw [hv]
    change Option.bind (decode (encode a)) _ = _
    rw [h.reads]
    rfl
  exact hfield.bind hf

lemma Finds.field? {a : Option α} {f : Option α → Reader K β} (h : Codec encode decode)
    (hv : lookup name ms = a.map encode) (hf : Finds (f a) ms b) :
    Finds (Reader.field? name decode >>= f) ms b := by
  have hfield : Finds (Reader.field? name decode) ms a := by
    refine (finds_next name ms).bind ?_
    rw [hv]
    cases a with
    | none => rfl
    | some a =>
      rw [Option.map_some]
      split
      next heq => exact absurd (Option.some.inj heq) (h.present a)
      next heq =>
        cases heq
        change Option.bind (some <$> decode (encode a)) _ = _
        rw [h.reads]
        rfl
      next heq => cases heq
  exact hfield.bind hf

lemma run_of_finds {r : Reader K α} (h : Finds r ms a) : r.run (.named ms) = some a := by
  unfold Finds at h
  unfold Reader.run
  rw [h]

lemma record_codec {members : α → List (String × Json K)} {r : Reader K α}
    (h : ∀ a, Finds r (members a) a) : Codec (fun a => .obj (members a)) (Json.record r) where
  reads a := run_of_finds (h a)
  present _ := nofun

/-- A record with a tag is read by the reader that stands with the tag. -/
lemma reads_choice {nested : Bool} {tag : String} {cases : List (String × Reader K α)} {i : Nat}
    {r : Reader K α} (kind : String) (htag : lookup tag ms = some (.str kind))
    (hi : (cases.map (·.1)).findIdx? (· = kind) = some i) (hcase : cases[i]? = some (kind, r))
    (h : Finds r ms a) : Json.choice nested tag cases (.obj ms) = some a := by
  unfold Json.choice
  simp only [htag, Option.map_some, Option.bind_eq_bind, Option.bind_some, Json.tagIndex?, hi,
    hcase]
  exact run_of_finds h

end Readers

section Values

variable {K α : Type} {encode : α → Json K} {decode : Json K → Option α}

lemma real_codec [Scalar K] : Codec (Json.ofReal (K := K)) Json.real? where
  reads _ := rfl
  present _ := nofun

lemma text_codec : Codec (Json.str (K := K)) Json.text? where
  reads _ := rfl
  present _ := nofun

lemma bool_codec : Codec (Json.bool (K := K)) Json.bool? where
  reads _ := rfl
  present _ := nofun

lemma name_codec {nested : Bool} {name : α → String} {values : List α}
    (h : ∀ a, (values.map fun a => (name a, a)).lookup (name a) = some a) :
    Codec (K := K) (fun a => .str (name a)) (Json.named nested name values) where
  reads := h
  present _ := nofun

lemma list_reads {as : List α} (h : ∀ a ∈ as, decode (encode a) = some a) :
    Json.list? decode (.arr (as.map encode)) = some as := by
  change (as.map encode).mapM decode = some as
  induction as with
  | nil => rfl
  | cons a as ih =>
    obtain ⟨ha, has⟩ := List.forall_mem_cons.mp h
    rw [List.map_cons, List.mapM_cons, ha, ih has]
    rfl

lemma list_codec (h : Codec encode decode) :
    Codec (fun as : List α => .arr (as.map encode)) (Json.list? decode) where
  reads _ := list_reads fun a _ => h.reads a
  present _ := nofun

end Values

end Stagecraft.Proofs
