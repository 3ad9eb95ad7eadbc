import Mathlib.Data.List.Forall2
import Mathlib.Data.List.Induction

/-!
# Outcomes

A computation that may fail ends with a value or an error. `Yields P x` says that every value of
`x` has the property `P`; the rules below follow the shape of a computation, and loops are taken
apart at any of their rounds.
-/

namespace Stagecraft.Proofs

variable {ε α β σ : Type}

/-- Every value a computation may end with has a property. -/
def Yields (P : α → Prop) (x : Except ε α) : Prop :=
  ∀ a, x = .ok a → P a

namespace Yields

variable {P : α → Prop} {Q : β → Prop}

lemma ok {a : α} (h : P a) : Yields P (.ok a : Except ε α) := by
  intro b hb
  cases hb
  exact h

lemma error {e : ε} : Yields P (.error e : Except ε α) := by
  intro b hb
  cases hb

lemma pure {a : α} (h : P a) : Yields P (Pure.pure a : Except ε α) := ok h

lemma throw {e : ε} : Yields P (MonadExcept.throw e : Except ε α) := error

lemma trivial {x : Except ε α} : Yields (fun _ => True) x := fun _ _ => True.intro

lemma bind {x : Except ε β} {f : β → Except ε α} (hx : Yields Q x)
    (hf : ∀ b, Q b → Yields P (f b)) : Yields P (x >>= f) := by
  intro a ha
  cases hb : x with
  | error e =>
    rw [hb] at ha
    cases ha
  | ok b =>
    rw [hb] at ha
    exact hf b (hx b hb) a ha

/-- What decides a branch is known within it. -/
lemma branch {c : Prop} [Decidable c] {x y : Except ε α} (hx : c → Yields P x)
    (hy : ¬c → Yields P y) : Yields P (if c then x else y) := by
  by_cases h : c
  · rw [if_pos h]
    exact hx h
  · rw [if_neg h]
    exact hy h

lemma ite {c : Prop} [Decidable c] {x y : Except ε α} (hx : Yields P x) (hy : Yields P y) :
    Yields P (if c then x else y) :=
  branch (fun _ => hx) fun _ => hy

end Yields

lemma bind_eq_ok {x : Except ε α} {f : α → Except ε β} {b : β} :
    x >>= f = .ok b ↔ ∃ a, x = .ok a ∧ f a = .ok b := by
  cases x with
  | error e => simp [Bind.bind, Except.bind]
  | ok a => simp [Bind.bind, Except.bind]

lemma bind_of_ok {x : Except ε α} {a : α} (h : x = .ok a) (f : α → Except ε β) :
    x >>= f = f a := by
  rw [h]
  rfl

lemma bind_eq_error {x : Except ε α} {f : α → Except ε β} {e : ε} :
    x >>= f = .error e ↔ x = .error e ∨ ∃ a, x = .ok a ∧ f a = .error e := by
  cases x with
  | error e' => simp [Bind.bind, Except.bind]
  | ok a => simp [Bind.bind, Except.bind]

lemma bind_congr_ok {x y : Except ε α} {f g : α → Except ε β} (h : x = y)
    (hf : ∀ a, y = .ok a → f a = g a) : x >>= f = y >>= g := by
  subst h
  cases x with
  | error e => rfl
  | ok a => exact hf a rfl

/-- A loop that ends passes through every one of its rounds. -/
lemma foldlM_split_ok {f : σ → α → Except ε σ} {front rest : List α} {a : α} {s t : σ} :
    (front ++ a :: rest).foldlM f s = .ok t ↔
      ∃ s₁ s₂, front.foldlM f s = .ok s₁ ∧ f s₁ a = .ok s₂ ∧ rest.foldlM f s₂ = .ok t := by
  rw [List.foldlM_append]
  simp only [List.foldlM_cons, bind_eq_ok]
  constructor
  · rintro ⟨s₁, h₁, s₂, h₂, h₃⟩
    exact ⟨s₁, s₂, h₁, h₂, h₃⟩
  · rintro ⟨s₁, s₂, h₁, h₂, h₃⟩
    exact ⟨s₁, h₁, s₂, h₂, h₃⟩

/-- What the rounds of a loop keep holds at its end, of the rounds that were done. -/
theorem foldlM_induction {f : σ → α → Except ε σ} {P : List α → σ → Prop} {s : σ}
    (hstart : P [] s) (hround : ∀ front a t t', P front t → f t a = .ok t' → P (front ++ [a]) t')
    {l : List α} {t : σ} (h : l.foldlM f s = .ok t) : P l t := by
  induction l using List.reverseRecOn generalizing t with
  | nil =>
    cases h
    exact hstart
  | append_singleton front a ih =>
    obtain ⟨s₁, s₂, h₁, h₂, h₃⟩ := foldlM_split_ok.mp h
    cases h₃
    exact hround front a s₁ t (ih h₁) h₂

/-- Loops whose rounds agree at the states they reach agree. -/
theorem foldlM_congr_ok {f g : σ → α → Except ε σ} {P : σ → Prop}
    (hkeep : ∀ s a s', P s → g s a = .ok s' → P s') {l : List α}
    (hround : ∀ s, P s → ∀ a ∈ l, f s a = g s a) {s : σ} (hs : P s) :
    l.foldlM f s = l.foldlM g s := by
  induction l generalizing s with
  | nil => rfl
  | cons a l ih =>
    rw [List.foldlM_cons, List.foldlM_cons]
    refine bind_congr_ok (hround s hs a List.mem_cons_self) fun s' hs' => ?_
    exact ih (fun t ht b hb => hround t ht b (List.mem_cons_of_mem a hb)) (hkeep s a s' hs hs')

section Failures

variable {e : ε}

/-- A loop that fails does so in one of its rounds. -/
theorem foldlM_error {f : σ → α → Except ε σ} {l : List α} {s : σ}
    (h : l.foldlM f s = .error e) : ∃ front a rest t, l = front ++ a :: rest ∧
      front.foldlM f s = .ok t ∧ f t a = .error e := by
  induction l generalizing s with
  | nil => cases h
  | cons a l ih =>
    rw [List.foldlM_cons] at h
    rcases bind_eq_error.mp h with hfirst | ⟨s', hs', hrest⟩
    · exact ⟨[], a, l, s, rfl, rfl, hfirst⟩
    · obtain ⟨front, b, rest, t, hl, hfront, hb⟩ := ih hrest
      refine ⟨a :: front, b, rest, t, by rw [hl]; rfl, ?_, hb⟩
      rw [List.foldlM_cons]
      exact bind_eq_ok.mpr ⟨s', hs', hfront⟩

end Failures

section Pairs

/-- Two computations end with related values, or both fail. -/
inductive Matches (R : α → β → Prop) : Except ε α → Except ε β → Prop
  | ok {a : α} {b : β} (h : R a b) : Matches R (.ok a) (.ok b)
  | error (e e' : ε) : Matches R (.error e) (.error e')

namespace Matches

variable {γ δ : Type} {R : α → β → Prop} {S : γ → δ → Prop}

lemma refl {R : α → α → Prop} (hR : ∀ a, R a a) (x : Except ε α) : Matches R x x := by
  cases x with
  | error e => exact .error e e
  | ok a => exact .ok (hR a)

lemma trans {R : α → α → Prop} (hR : ∀ a b c, R a b → R b c → R a c) {x y z : Except ε α}
    (h : Matches R x y) (h' : Matches R y z) : Matches R x z := by
  cases h with
  | ok hab =>
    cases h' with
    | ok hbc => exact .ok (hR _ _ _ hab hbc)
  | error =>
    cases h' with
    | error => exact .error _ _

lemma bind {x : Except ε α} {y : Except ε β} {f : α → Except ε γ} {g : β → Except ε δ}
    (h : Matches R x y) (hfg : ∀ a b, R a b → Matches S (f a) (g b)) :
    Matches S (x >>= f) (y >>= g) := by
  cases h with
  | ok hab => exact hfg _ _ hab
  | error => exact .error _ _

/-- After the same beginning. -/
lemma bind_same {x : Except ε α} {f : α → Except ε γ} {g : α → Except ε δ}
    (hfg : ∀ a, x = .ok a → Matches S (f a) (g a)) : Matches S (x >>= f) (x >>= g) := by
  cases x with
  | error e => exact .error e e
  | ok a => exact hfg a rfl

lemma map {x : Except ε α} {y : Except ε β} {f : α → γ} {g : β → δ} (h : Matches R x y)
    (hfg : ∀ a b, R a b → S (f a) (g b)) : Matches S (f <$> x) (g <$> y) := by
  cases h with
  | ok hab => exact .ok (hfg _ _ hab)
  | error => exact .error _ _

/-- Whatever a failure is reported as. -/
lemma mapError {ε' : Type} {f g : ε → ε'} (x : Except ε α) :
    Matches Eq (x.mapError f) (x.mapError g) := by
  cases x with
  | error e => exact .error _ _
  | ok a => exact .ok rfl

lemma exists_ok_iff {x : Except ε α} {y : Except ε β} (h : Matches R x y) :
    (∃ a, x = .ok a) ↔ ∃ b, y = .ok b := by
  cases h with
  | ok hab => exact iff_of_true ⟨_, rfl⟩ ⟨_, rfl⟩
  | error => exact iff_of_false (fun ⟨_, h⟩ => by cases h) (fun ⟨_, h⟩ => by cases h)

lemma rel {a : α} {b : β} (h : Matches R (.ok a : Except ε α) (.ok b)) : R a b := by
  cases h with
  | ok hab => exact hab

section Loops

variable {R : σ → σ → Prop} {f : σ → α → Except ε σ}

/-- A loop keeps a relation that its rounds keep. -/
lemma foldlM_mem {τ : Type} {R : σ → τ → Prop} {g : τ → α → Except ε τ} {l : List α}
    (hround : ∀ a ∈ l, ∀ s t, R s t → Matches R (f s a) (g t a)) {s : σ} {t : τ} (h : R s t) :
    Matches R (l.foldlM f s) (l.foldlM g t) := by
  induction l generalizing s t with
  | nil => exact .ok h
  | cons a l ih =>
    rw [List.foldlM_cons, List.foldlM_cons]
    refine (hround a List.mem_cons_self s t h).bind fun s' t' hst => ?_
    exact ih (fun b hb => hround b (List.mem_cons_of_mem a hb)) hst

lemma foldlM {τ : Type} {R : σ → τ → Prop} {g : τ → α → Except ε τ}
    (hround : ∀ s t a, R s t → Matches R (f s a) (g t a)) (l : List α) {s : σ} {t : τ}
    (h : R s t) : Matches R (l.foldlM f s) (l.foldlM g t) :=
  foldlM_mem (fun a _ s t => hround s t a) h

/-- A round may be done after others that it commutes with. -/
lemma foldlM_delay (hrefl : ∀ s, R s s) (htrans : ∀ s t u, R s t → R t u → R s u)
    (hround : ∀ s t a, R s t → Matches R (f s a) (f t a)) {a : α} {l : List α}
    (hswap : ∀ b ∈ l, ∀ s, Matches R (f s a >>= (f · b)) (f s b >>= (f · a))) (s : σ) :
    Matches R ((a :: l).foldlM f s) ((l ++ [a]).foldlM f s) := by
  induction l generalizing s with
  | nil => exact .refl hrefl _
  | cons b l ih =>
    have hfirst : Matches R ((f s a >>= (f · b)) >>= fun s => l.foldlM f s)
        ((f s b >>= (f · a)) >>= fun s => l.foldlM f s) :=
      (hswap b List.mem_cons_self s).bind fun _ _ => foldlM hround l
    have hrest : Matches R (f s b >>= fun s => (a :: l).foldlM f s)
        (f s b >>= fun s => (l ++ [a]).foldlM f s) :=
      bind_same fun s' _ => ih (fun c hc => hswap c (List.mem_cons_of_mem b hc)) s'
    simp only [bind_assoc] at hfirst
    simp only [List.foldlM_cons, List.cons_append] at hrest ⊢
    exact hfirst.trans htrans hrest

/-- Rounds that commute may be done in either order. -/
theorem foldlM_swap (hrefl : ∀ s, R s s) (htrans : ∀ s t u, R s t → R t u → R s u)
    (hround : ∀ s t a, R s t → Matches R (f s a) (f t a)) {l l' : List α}
    (hswap : ∀ a ∈ l, ∀ b ∈ l', ∀ s, Matches R (f s a >>= (f · b)) (f s b >>= (f · a))) (s : σ) :
    Matches R ((l ++ l').foldlM f s) ((l' ++ l).foldlM f s) := by
  induction l generalizing l' s with
  | nil =>
    rw [List.nil_append, List.append_nil]
    exact .refl hrefl _
  | cons a l ih =>
    have hrest : Matches R (f s a >>= fun s => (l ++ l').foldlM f s)
        (f s a >>= fun s => (l' ++ l).foldlM f s) :=
      bind_same fun s' _ => ih (fun b hb => hswap b (List.mem_cons_of_mem a hb)) s'
    have hfirst : Matches R ((a :: l').foldlM f s >>= fun s => l.foldlM f s)
        ((l' ++ [a]).foldlM f s >>= fun s => l.foldlM f s) :=
      (foldlM_delay hrefl htrans hround (hswap a List.mem_cons_self) s).bind
        fun _ _ => foldlM hround l
    rw [← List.foldlM_append, ← List.foldlM_append, List.append_assoc] at hfirst
    simp only [List.cons_append, List.foldlM_cons, List.nil_append] at hrest hfirst ⊢
    exact hrest.trans htrans hfirst

end Loops

end Matches

end Pairs

section PairedLists

/-! ### Lists paired element by element -/

lemma map_eq_of_forall₂ {γ : Type} {f : α → γ} {g : β → γ} {l : List α} {l' : List β}
    (h : List.Forall₂ (fun a b => f a = g b) l l') : l.map f = l'.map g := by
  induction h with
  | nil => rfl
  | cons hab _ ih => rw [List.map_cons, List.map_cons, hab, ih]

lemma forall₂_trans {γ : Type} {R : α → β → Prop} {S : β → γ → Prop} {T : α → γ → Prop}
    (hRS : ∀ a b c, R a b → S b c → T a c) {l : List α} {l' : List β} {l'' : List γ}
    (h : List.Forall₂ R l l') (h' : List.Forall₂ S l' l'') : List.Forall₂ T l l'' := by
  induction h generalizing l'' with
  | nil =>
    cases h'
    exact .nil
  | cons hab _ ih =>
    cases h' with
    | cons hbc hrest => exact .cons (hRS _ _ _ hab hbc) (ih hrest)

lemma flatMap_eq_of_forall₂ {γ : Type} {f : α → List γ} {g : β → List γ} {l : List α}
    {l' : List β} (h : List.Forall₂ (fun a b => g b = f a) l l') : l'.flatMap g = l.flatMap f := by
  induction h with
  | nil => rfl
  | cons hab _ ih => rw [List.flatMap_cons, List.flatMap_cons, hab, ih]

lemma mem_of_forall₂_right {R : α → β → Prop} {l : List α} {l' : List β} {b : β}
    (h : List.Forall₂ R l l') (hb : b ∈ l') : ∃ a ∈ l, R a b := by
  induction h with
  | nil => exact absurd hb List.not_mem_nil
  | cons hab _ ih =>
    rcases List.mem_cons.mp hb with rfl | hb
    · exact ⟨_, List.mem_cons_self, hab⟩
    · obtain ⟨a, ha, hr⟩ := ih hb
      exact ⟨a, List.mem_cons_of_mem _ ha, hr⟩

lemma mem_of_forall₂_left {R : α → β → Prop} {l : List α} {l' : List β} {a : α}
    (h : List.Forall₂ R l l') (ha : a ∈ l) : ∃ b ∈ l', R a b := by
  obtain ⟨b, hb, hr⟩ := mem_of_forall₂_right h.flip ha
  exact ⟨b, hb, hr⟩

/-- What holds of each element may be told from the element it is paired with. -/
lemma forall_mem_iff_forall₂ {R S : α → β → Prop} {P : α → Prop} {l : List α} {l' : List β}
    (h : List.Forall₂ R l l') (hiff : ∀ a b, R a b → (P a ↔ S a b)) :
    (∀ a ∈ l, P a) ↔ List.Forall₂ S l l' := by
  induction h with
  | nil => exact iff_of_true nofun .nil
  | cons hab _ ih => rw [List.forall_mem_cons, List.forall₂_cons, hiff _ _ hab, ih]

/-- A list is read when each of its elements is. -/
lemma mapM_eq_some_iff {read : α → Option β} {l : List α} {l' : List β} :
    l.mapM read = some l' ↔ List.Forall₂ (fun a b => read a = some b) l l' := by
  induction l generalizing l' with
  | nil =>
    rw [List.mapM_nil, List.forall₂_nil_left_iff, eq_comm]
    exact Option.some_inj
  | cons a l ih =>
    rw [List.mapM_cons, List.forall₂_cons_left_iff]
    constructor
    · intro h
      obtain ⟨b, hb, h⟩ := Option.bind_eq_some_iff.mp h
      obtain ⟨rest, hrest, h⟩ := Option.bind_eq_some_iff.mp h
      cases h
      exact ⟨b, rest, hb, ih.mp hrest, rfl⟩
    · rintro ⟨b, rest, hb, hrest, rfl⟩
      rw [hb, ih.mpr hrest]
      rfl

end PairedLists

end Stagecraft.Proofs
