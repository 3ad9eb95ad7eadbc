import Stagecraft.Proofs.WrittenJson

/-!
# Distinct texts

Different values have different compact texts. The text of a value shows where it ends, a string by
its closing quote, a container by its closing bracket and a run by what follows it, so two texts
that agree are taken apart at the same places. That different numbers are printed differently is
assumed, of the numbers that occur.
-/

namespace Stagecraft

variable {K : Type} [Scalar K] [Numeral K]

/-- Numbers that are finite, and so are printed by digits, different ones differently. -/
structure PrintedApart (ns : Set (Number K)) : Prop where
  finite : ∀ x, .real x ∈ ns → Scalar.isFinite x = true
  digits : ∀ x, .real x ∈ ns → Scalar.isFinite x = true → ∃ d, Numeral.shortest .even x = .finite d
  apart : ∀ x y, .real x ∈ ns → .real y ∈ ns → Scalar.isFinite x = true →
    Scalar.isFinite y = true → Json.writeNumber (.real x) = Json.writeNumber (.real y) → x = y

end Stagecraft

namespace Stagecraft.Proofs

open Json

section Runs

variable {K : Type} {a b s t : List Char}

/-- What follows ends a run: there is nothing more, or a character that belongs to no run. -/
def EndsRun (K : Type) (cs : List Char) : Prop :=
  ∀ c ∈ cs.head?, ¬InRun K c

lemma run_append_inj (ha : ∀ c ∈ a, InRun K c) (hb : ∀ c ∈ b, InRun K c) (hs : EndsRun K s)
    (ht : EndsRun K t) (h : a ++ s = b ++ t) : a = b ∧ s = t := by
  induction a generalizing b with
  | nil =>
    cases b with
    | nil => exact ⟨rfl, h⟩
    | cons c b =>
      rw [List.nil_append] at h
      rw [h] at hs
      exact absurd (hb c List.mem_cons_self) (hs c rfl)
  | cons c a ih =>
    cases b with
    | nil =>
      rw [List.nil_append] at h
      rw [← h] at ht
      exact absurd (ha c List.mem_cons_self) (ht c rfl)
    | cons d b =>
      obtain ⟨rfl, htail⟩ := List.cons.inj h
      obtain ⟨rfl, hrest⟩ := ih (fun c hc => ha c (List.mem_cons_of_mem _ hc))
        (fun c hc => hb c (List.mem_cons_of_mem _ hc)) htail
      exact ⟨rfl, hrest⟩

lemma endsRun_nil : EndsRun K [] := nofun

lemma endsRun_punctuation {c : Char} {token : Token K}
    (hc : Lexer.punctuation? c = some token) : EndsRun K (c :: s) := by
  intro d hd hrun
  cases hd
  rw [hrun.not_token] at hc
  cases hc

end Runs

section Quotes

/-- The length of the first escaped character of a string, by how it begins. -/
def escapedLength : List Char → ℕ
  | '\\' :: 'u' :: _ => 6
  | '\\' :: _ => 2
  | _ => 1

lemma escapedLength_escape (c : Char) (rest : List Char) :
    escapedLength (escape c ++ rest) = (escape c).length := by
  have hform := escape_form c
  generalize escape c = written at hform ⊢
  cases hform with
  | plain hquote hback hplain =>
    change escapedLength (c :: rest) = 1
    unfold escapedLength
    split
    next heq => exact absurd (List.cons.inj heq).1 hback
    next heq => exact absurd (List.cons.inj heq).1 hback
    next => rfl
  | @short e hunit he =>
    change escapedLength ('\\' :: e :: rest) = 2
    unfold escapedLength
    split
    next heq => exact absurd (List.cons.inj (List.cons.inj heq).2).1 hunit
    next => rfl
    next hne => exact absurd rfl (hne _)
  | unit hsmall => rfl

lemma escape_injective {c d : Char} (h : escape c = escape d) : c = d := by
  have hc := readText_escape (String.ofList [c])
  have hd := readText_escape (String.ofList [d])
  simp only [String.toList_ofList, List.flatMap_singleton] at hc hd
  rw [h, hd, Option.some_inj] at hc
  have hlist := congrArg String.toList hc
  simp only [String.toList_ofList, List.cons.injEq, and_true] at hlist
  exact hlist.symm

lemma escape_append_inj {c d : Char} {s t : List Char} (h : escape c ++ s = escape d ++ t) :
    c = d ∧ s = t := by
  have hlength := congrArg escapedLength h
  rw [escapedLength_escape, escapedLength_escape] at hlength
  obtain ⟨hescape, hrest⟩ := List.append_inj h hlength
  exact ⟨escape_injective hescape, hrest⟩

/-- No escaped character begins with a quote. -/
lemma escape_append_ne_quote (c : Char) (s t : List Char) : escape c ++ s ≠ '"' :: t := by
  have hform := escape_form c
  generalize escape c = written at hform
  cases hform with
  | plain hquote hback hplain => exact fun h => hquote (List.cons.inj h).1
  | short => exact fun h => absurd (List.cons.inj h).1 (by decide)
  | unit => exact fun h => absurd (List.cons.inj h).1 (by decide)

lemma quote_append_inj {a b : String} {s t : List Char} (h : quote a ++ s = quote b ++ t) :
    a = b ∧ s = t := by
  have hchars : ∀ cs ds : List Char,
      cs.flatMap escape ++ '"' :: s = ds.flatMap escape ++ '"' :: t → cs = ds ∧ s = t := by
    intro cs
    induction cs with
    | nil =>
      intro ds h
      cases ds with
      | nil => exact ⟨rfl, (List.cons.inj h).2⟩
      | cons d ds =>
        rw [List.flatMap_cons, List.append_assoc] at h
        exact absurd h.symm (escape_append_ne_quote d _ _)
    | cons c cs ih =>
      intro ds h
      cases ds with
      | nil =>
        rw [List.flatMap_cons, List.append_assoc] at h
        exact absurd h (escape_append_ne_quote c _ _)
      | cons d ds =>
        rw [List.flatMap_cons, List.flatMap_cons, List.append_assoc, List.append_assoc] at h
        obtain ⟨rfl, htail⟩ := escape_append_inj h
        obtain ⟨rfl, hrest⟩ := ih ds htail
        exact ⟨rfl, hrest⟩
  unfold quote at h
  simp only [List.cons_append, List.append_assoc, List.nil_append, List.cons.injEq, true_and] at h
  obtain ⟨hlist, hrest⟩ := hchars _ _ h
  exact ⟨String.toList_inj.mp hlist, hrest⟩

end Quotes

section Numbers

lemma digitChars_injective {m n : ℕ} (h : Decimal.digitChars m = Decimal.digitChars n) : m = n := by
  have hm := Nat.ofDigitChars_ten_toDigits (n := m)
  unfold Decimal.digitChars at h
  rw [h, Nat.ofDigitChars_ten_toDigits] at hm
  exact hm.symm

lemma isDigit_digitChars (n : ℕ) : ∀ c ∈ Decimal.digitChars n, c.isDigit = true :=
  fun _ hc => Nat.isDigit_of_mem_toDigits (by decide) (by decide) hc

lemma exists_digitChars (n : ℕ) : ∃ c ∈ Decimal.digitChars n, c.isDigit = true := by
  obtain ⟨c, hc⟩ := List.exists_mem_of_ne_nil _ (Nat.toDigits_ne_nil (n := n) (b := 10))
  exact ⟨c, hc, isDigit_digitChars n c hc⟩

lemma writeInt_injective {i j : Int} (h : writeInt i = writeInt j) : i = j := by
  have hsign : ∀ n (cs : List Char), Decimal.digitChars n ≠ '-' :: cs := by
    intro n cs hcs
    have hdigit := isDigit_digitChars n '-' (hcs ▸ List.mem_cons_self)
    exact absurd hdigit (by decide)
  unfold writeInt Decimal.signChars at h
  by_cases hi : i < 0 <;> by_cases hj : j < 0 <;>
    simp only [hi, hj, decide_true, decide_false, if_true, Bool.false_eq_true, if_false,
      List.nil_append, List.cons_append, List.cons.injEq, true_and] at h
  · have := digitChars_injective h
    omega
  · exact absurd h.symm (hsign _ _)
  · exact absurd h (hsign _ _)
  · have := digitChars_injective h
    omega

/-- A literal has a digit, and a point or an exponent. -/
lemma literal_marks (d : Decimal) :
    (∃ c ∈ d.literal, c.isDigit = true) ∧ ∃ c ∈ d.literal, c = '.' ∨ c = 'e' := by
  obtain ⟨digit, hdigit, hisDigit⟩ := exists_digitChars d.digits
  unfold Decimal.literal
  split_ifs with hzero hnear hwhole
  · exact ⟨⟨'0', by simp, rfl⟩, '.', by simp, .inl rfl⟩
  · refine ⟨⟨digit, ?_, hisDigit⟩, '.', by simp, .inl rfl⟩
    unfold Decimal.positional
    cases hexponent : d.exponent with
    | ofNat k => simp [hdigit]
    | negSucc k => omega
  · unfold Decimal.positional
    cases hexponent : d.exponent with
    | ofNat k =>
      rw [hexponent] at hwhole
      exact absurd (Int.natCast_nonneg k) hwhole
    | negSucc k =>
      refine ⟨⟨digit, ?_, hisDigit⟩, '.', by simp, .inl rfl⟩
      have hpadded : digit ∈ Decimal.paddedDigits (k + 2) d.digits := List.mem_append_right _ hdigit
      rw [← List.take_append_drop ((Decimal.paddedDigits (k + 2) d.digits).length - (k + 1))
        (Decimal.paddedDigits (k + 2) d.digits)] at hpadded
      rcases List.mem_append.mp hpadded with htake | hdrop
      · simp [htake]
      · simp [hdrop]
  · unfold Decimal.scientific
    obtain ⟨power, hpower, hpowerDigit⟩ :=
      exists_digitChars (d.exponent + (Decimal.digitChars d.digits).length - 1).natAbs
    exact ⟨⟨power, by simp [hpower], hpowerDigit⟩, 'e', by simp, .inr rfl⟩

/-- No whole number is written like a literal. -/
lemma literal_ne_writeInt (d : Decimal) (i : Int) : d.literal ≠ writeInt i := by
  intro h
  obtain ⟨-, c, hc, hmark⟩ := literal_marks d
  rw [h] at hc
  rcases List.mem_append.mp hc with hsign | hdigits
  · unfold Decimal.signChars at hsign
    split at hsign
    next =>
      rw [List.mem_singleton.mp hsign] at hmark
      exact absurd hmark (by decide)
    next => cases hsign
  · have hdigit := isDigit_digitChars _ c hdigits
    rcases hmark with rfl | rfl
    · exact absurd hdigit (by decide)
    · exact absurd hdigit (by decide)

variable {K : Type} [Scalar K] [Numeral K] {ns : Set (Number K)} {n n' : Number K}

lemma writeNumber_real (h : PrintedApart ns) {x : K} (hx : .real x ∈ ns) :
    ∃ d : Decimal, writeNumber (.real x) = d.literal := by
  obtain ⟨d, hd⟩ := h.digits x hx (h.finite _ hx)
  refine ⟨d, ?_⟩
  rw [writeNumber, hd]

lemma exists_digit_writeNumber (h : PrintedApart ns) (hn : n ∈ ns) :
    ∃ c ∈ writeNumber n, c.isDigit = true := by
  cases n with
  | int i =>
    obtain ⟨c, hc, hdigit⟩ := exists_digitChars i.natAbs
    exact ⟨c, List.mem_append_right _ hc, hdigit⟩
  | real x =>
    obtain ⟨d, hd⟩ := writeNumber_real h hn
    rw [hd]
    exact (literal_marks d).1

lemma writeNumber_inj (h : PrintedApart ns) (hn : n ∈ ns) (hn' : n' ∈ ns)
    (htext : writeNumber n = writeNumber n') : n = n' := by
  cases n with
  | int i =>
    cases n' with
    | int j => rw [writeInt_injective htext]
    | real y =>
      obtain ⟨d, hd⟩ := writeNumber_real h hn'
      rw [hd] at htext
      exact absurd htext.symm (literal_ne_writeInt d i)
  | real x =>
    cases n' with
    | int j =>
      obtain ⟨d, hd⟩ := writeNumber_real h hn
      rw [hd] at htext
      exact absurd htext (literal_ne_writeInt d j)
    | real y => rw [h.apart x y hn hn' (h.finite _ hn) (h.finite _ hn') htext]

end Numbers

section Values

variable {K : Type} {v w : Json K} {level : ℕ} {cs s t : List Char}

/-- How a text begins: with a quote, a bracket or a character of a run. -/
def lead (c : Char) : ℕ :=
  if c = '"' then 1 else if c = '[' then 2 else if c = '\x7b' then 3
  else if c = ']' then 4 else 0

def shape : Json K → ℕ
  | .str _ => 1
  | .arr _ => 2
  | .obj _ => 3
  | _ => 0

lemma lead_of_inRun {c : Char} (h : InRun K c) : lead c = 0 := by
  have hne (d : Char) (t : Token K) (hd : Lexer.punctuation? d = some t) : c ≠ d := by
    rintro rfl
    rw [h.not_token] at hd
    cases hd
  unfold lead
  rw [if_neg h.not_quote, if_neg (hne '[' _ rfl), if_neg (hne '\x7b' _ rfl), if_neg (hne ']' _ rfl)]

variable [Numeral K]

/-- A value that is one run. -/
inductive RunValue : Json K → List Char → Prop
  | null : RunValue .null "null".toList
  | yes : RunValue (.bool true) "true".toList
  | no : RunValue (.bool false) "false".toList
  | num (n : Number K) : RunValue (.num n) (writeNumber n)

lemma runValue (level : ℕ) (h : shape v = 0) : RunValue v (write .compact level v) := by
  cases v with
  | null => exact .null
  | bool b => cases b <;> constructor
  | num n => exact .num n
  | str | arr | obj => cases h

lemma RunValue.inRun (h : RunValue v cs) : ∀ c ∈ cs, InRun K c := by
  cases h with
  | null | yes | no => exact inRun_word rfl
  | num n => exact inRun_writeNumber n

variable [Scalar K] {ns : Set (Number K)}

lemma RunValue.inj (h : PrintedApart ns) (hv : ∀ n ∈ v.numbers, n ∈ ns)
    (hw : ∀ n ∈ w.numbers, n ∈ ns) (hcs : RunValue v cs) (hcs' : RunValue w cs) : v = w := by
  -- A number has a digit, and no word does.
  have hword {n : Number K} (hn : n ∈ ns) {word : List Char}
      (hdigits : word.any Char.isDigit = false) : writeNumber n ≠ word := by
    rintro rfl
    rw [List.any_eq_true.mpr (exists_digit_writeNumber h hn)] at hdigits
    cases hdigits
  generalize hcs'' : cs = cs₁ at hcs'
  cases hcs with
  | num n =>
    have hn := hv n List.mem_cons_self
    cases hcs' with
    | num n' => rw [writeNumber_inj h hn (hw n' List.mem_cons_self) hcs'']
    | null | yes | no => exact absurd hcs'' (hword hn rfl)
  | null | yes | no =>
    cases hcs' with
    | num n' => exact absurd hcs''.symm (hword (hw n' List.mem_cons_self) rfl)
    | null | yes | no => first | rfl | exact absurd hcs'' (by decide)

lemma lead_write (level : ℕ) (h : PrintedApart ns) (hv : ∀ n ∈ v.numbers, n ∈ ns) :
    ∃ c rest, write .compact level v = c :: rest ∧ lead c = shape v := by
  cases v with
  | str a => exact ⟨'"', _, rfl, rfl⟩
  | arr items => cases items <;> exact ⟨'[', _, rfl, rfl⟩
  | obj members => cases members <;> exact ⟨'\x7b', _, rfl, rfl⟩
  | null => exact ⟨'n', _, rfl, rfl⟩
  | bool b => cases b <;> exact ⟨_, _, rfl, rfl⟩
  | num n =>
    obtain ⟨c, hc, -⟩ := exists_digit_writeNumber h (hv n List.mem_cons_self)
    cases htext : writeNumber n with
    | nil =>
      rw [htext] at hc
      cases hc
    | cons c rest =>
      refine ⟨c, rest, htext, lead_of_inRun (K := K) ?_⟩
      exact inRun_writeNumber n c (htext ▸ List.mem_cons_self)

lemma shape_eq (h : PrintedApart ns) (hv : ∀ n ∈ v.numbers, n ∈ ns)
    (hw : ∀ n ∈ w.numbers, n ∈ ns) {l l' : ℕ}
    (heq : write .compact l v ++ s = write .compact l' w ++ t) : shape v = shape w := by
  obtain ⟨c, rest, hc, hlead⟩ := lead_write l h hv
  obtain ⟨c', rest', hc', hlead'⟩ := lead_write l' h hw
  rw [hc, hc'] at heq
  rw [← hlead, ← hlead', (List.cons.inj heq).1]

lemma write_ne_close (h : PrintedApart ns) (hv : ∀ n ∈ v.numbers, n ∈ ns) :
    write .compact level v ++ s ≠ ']' :: t := by
  intro heq
  obtain ⟨c, rest, hc, hlead⟩ := lead_write level h hv
  rw [hc] at heq
  rw [(List.cons.inj heq).1] at hlead
  cases v <;> cases hlead

lemma runs_append_inj (hshape : shape v = 0) (h : PrintedApart ns) (hv : ∀ n ∈ v.numbers, n ∈ ns)
    (hw : ∀ n ∈ w.numbers, n ∈ ns) {l l' : ℕ} (hs : EndsRun K s) (ht : EndsRun K t)
    (heq : write .compact l v ++ s = write .compact l' w ++ t) : v = w ∧ s = t := by
  have hshape' : shape w = 0 := (shape_eq h hv hw heq).symm.trans hshape
  have hrun := runValue l hshape
  have hrun' := runValue l' hshape'
  obtain ⟨htext, hrest⟩ := run_append_inj hrun.inRun hrun'.inRun hs ht heq
  rw [htext] at hrun
  exact ⟨hrun.inj h hv hw hrun', hrest⟩

section Containers

omit [Scalar K]

lemma writeItems_cons_append (rest : List (Json K)) :
    writeItems .compact level (v :: rest) ++ s =
      ',' :: (write .compact level v ++ (writeItems .compact level rest ++ s)) := by
  simp only [writeItems, Style.gap, List.cons_append, List.append_assoc, List.nil_append]

lemma writeMembers_cons_append (name : String) (rest : List (String × Json K)) :
    writeMembers .compact level ((name, v) :: rest) ++ s =
      ',' :: (quote name ++ ':' :: (write .compact level v ++
        (writeMembers .compact level rest ++ s))) := by
  simp only [writeMembers, Style.gap, Style.colon, List.cons_append, List.append_assoc,
    List.nil_append]

/-- A list is written as its items are, with a bracket for the first comma. -/
lemma write_arr_cons_append (rest : List (Json K)) :
    write .compact level (.arr (v :: rest)) ++ s =
      '[' :: (write .compact (level + 1) v ++
        (writeItems .compact (level + 1) rest ++ ']' :: s)) := by
  simp only [write, Style.gap, List.cons_append, List.append_assoc, List.nil_append]

lemma write_obj_cons_append (name : String) (rest : List (String × Json K)) :
    write .compact level (.obj ((name, v) :: rest)) ++ s =
      '\x7b' :: (quote name ++ ':' :: (write .compact (level + 1) v ++
        (writeMembers .compact (level + 1) rest ++ '\x7d' :: s))) := by
  simp only [write, Style.gap, Style.colon, List.cons_append, List.append_assoc, List.nil_append]

lemma endsRun_items (level : ℕ) (items : List (Json K)) (cs : List Char) :
    EndsRun K (writeItems .compact level items ++ ']' :: cs) := by
  cases items with
  | nil => exact endsRun_punctuation rfl
  | cons v rest => exact endsRun_punctuation (c := ',') rfl

lemma endsRun_members (level : ℕ) (members : List (String × Json K)) (cs : List Char) :
    EndsRun K (writeMembers .compact level members ++ '\x7d' :: cs) := by
  cases members with
  | nil => exact endsRun_punctuation rfl
  | cons m rest => exact endsRun_punctuation (c := ',') rfl

/-- Objects whose texts begin the same have members whose texts do. -/
lemma members_append_eq {members members' : List (String × Json K)} {l l' : ℕ}
    (heq : write .compact l (.obj members) ++ s = write .compact l' (.obj members') ++ t) :
    writeMembers .compact (l + 1) members ++ '\x7d' :: s =
      writeMembers .compact (l' + 1) members' ++ '\x7d' :: t := by
  cases members with
  | nil =>
    cases members' with
    | nil => exact (List.cons.inj heq).2
    | cons m rest' => exact absurd (List.cons.inj (List.cons.inj heq).2).1 (by decide)
  | cons m rest =>
    cases members' with
    | nil => exact absurd (List.cons.inj (List.cons.inj heq).2).1 (by decide)
    | cons m' rest' =>
      rw [write_obj_cons_append, write_obj_cons_append] at heq
      rw [writeMembers_cons_append, writeMembers_cons_append, (List.cons.inj heq).2]

end Containers

/-- Lists whose texts begin the same have items whose texts do: no item begins as a list ends. -/
lemma items_append_eq (h : PrintedApart ns) {items items' : List (Json K)}
    (hv : ∀ n ∈ itemNumbers items, n ∈ ns) (hw : ∀ n ∈ itemNumbers items', n ∈ ns) {l l' : ℕ}
    (heq : write .compact l (.arr items) ++ s = write .compact l' (.arr items') ++ t) :
    writeItems .compact (l + 1) items ++ ']' :: s =
      writeItems .compact (l' + 1) items' ++ ']' :: t := by
  cases items with
  | nil =>
    cases items' with
    | nil => exact (List.cons.inj heq).2
    | cons w rest' =>
      rw [write_arr_cons_append] at heq
      exact absurd (List.cons.inj heq).2.symm (write_ne_close h (List.forall_mem_append.mp hw).1)
  | cons v rest =>
    rw [write_arr_cons_append] at heq
    cases items' with
    | nil => exact absurd (List.cons.inj heq).2 (write_ne_close h (List.forall_mem_append.mp hv).1)
    | cons w rest' =>
      rw [write_arr_cons_append] at heq
      rw [writeItems_cons_append, writeItems_cons_append, (List.cons.inj heq).2]

mutual

/-- Two values whose texts begin the same are equal, and so is what follows them. A number is only
known to end where a run ends, so what follows must end a run. -/
lemma write_append_inj (h : PrintedApart ns) :
    (v w : Json K) → (∀ n ∈ v.numbers, n ∈ ns) → (∀ n ∈ w.numbers, n ∈ ns) →
      {l l' : ℕ} → {s t : List Char} → EndsRun K s → EndsRun K t →
        write .compact l v ++ s = write .compact l' w ++ t → v = w ∧ s = t
  | .str a, w, hv, hw, l, l', s, t, hs, ht, heq => by
    have hshape := shape_eq h hv hw heq
    cases w with
    | str b =>
      obtain ⟨rfl, hrest⟩ := quote_append_inj heq
      exact ⟨rfl, hrest⟩
    | null | bool | num | arr | obj => cases hshape
  | .arr items, w, hv, hw, l, l', s, t, hs, ht, heq => by
    have hshape := shape_eq h hv hw heq
    cases w with
    | arr items' =>
      obtain ⟨rfl, hrest⟩ :=
        writeItems_append_inj h items items' hv hw (items_append_eq h hv hw heq)
      exact ⟨rfl, hrest⟩
    | null | bool | num | str | obj => cases hshape
  | .obj members, w, hv, hw, l, l', s, t, hs, ht, heq => by
    have hshape := shape_eq h hv hw heq
    cases w with
    | obj members' =>
      obtain ⟨rfl, hrest⟩ :=
        writeMembers_append_inj h members members' hv hw (members_append_eq heq)
      exact ⟨rfl, hrest⟩
    | null | bool | num | str | arr => cases hshape
  | .null, w, hv, hw, l, l', s, t, hs, ht, heq => runs_append_inj rfl h hv hw hs ht heq
  | .bool b, w, hv, hw, l, l', s, t, hs, ht, heq => runs_append_inj rfl h hv hw hs ht heq
  | .num n, w, hv, hw, l, l', s, t, hs, ht, heq => runs_append_inj rfl h hv hw hs ht heq

lemma writeItems_append_inj (h : PrintedApart ns) :
    (items items' : List (Json K)) → (∀ n ∈ itemNumbers items, n ∈ ns) →
      (∀ n ∈ itemNumbers items', n ∈ ns) → {l l' : ℕ} → {s t : List Char} →
        writeItems .compact l items ++ ']' :: s = writeItems .compact l' items' ++ ']' :: t →
          items = items' ∧ s = t
  | [], [], _, _, _, _, _, _, heq => ⟨rfl, (List.cons.inj heq).2⟩
  | [], _ :: _, _, _, _, _, _, _, heq => absurd (List.cons.inj heq).1 (by decide)
  | _ :: _, [], _, _, _, _, _, _, heq => absurd (List.cons.inj heq).1 (by decide)
  | v :: rest, w :: rest', hv, hw, l, l', s, t, heq => by
    obtain ⟨hfirst, hrest⟩ := List.forall_mem_append.mp hv
    obtain ⟨hfirst', hrest'⟩ := List.forall_mem_append.mp hw
    rw [writeItems_cons_append, writeItems_cons_append] at heq
    obtain ⟨rfl, htail⟩ := write_append_inj h v w hfirst hfirst' (endsRun_items _ rest _)
      (endsRun_items _ rest' _) (List.cons.inj heq).2
    obtain ⟨rfl, hst⟩ := writeItems_append_inj h rest rest' hrest hrest' htail
    exact ⟨rfl, hst⟩

lemma writeMembers_append_inj (h : PrintedApart ns) :
    (members members' : List (String × Json K)) → (∀ n ∈ memberNumbers members, n ∈ ns) →
      (∀ n ∈ memberNumbers members', n ∈ ns) → {l l' : ℕ} → {s t : List Char} →
        writeMembers .compact l members ++ '\x7d' :: s =
          writeMembers .compact l' members' ++ '\x7d' :: t → members = members' ∧ s = t
  | [], [], _, _, _, _, _, _, heq => ⟨rfl, (List.cons.inj heq).2⟩
  | [], _ :: _, _, _, _, _, _, _, heq => absurd (List.cons.inj heq).1 (by decide)
  | _ :: _, [], _, _, _, _, _, _, heq => absurd (List.cons.inj heq).1 (by decide)
  | (name, v) :: rest, (name', w) :: rest', hv, hw, l, l', s, t, heq => by
    obtain ⟨hfirst, hrest⟩ := List.forall_mem_append.mp hv
    obtain ⟨hfirst', hrest'⟩ := List.forall_mem_append.mp hw
    rw [writeMembers_cons_append, writeMembers_cons_append] at heq
    obtain ⟨rfl, hcolon⟩ := quote_append_inj (List.cons.inj heq).2
    obtain ⟨rfl, htail⟩ := write_append_inj h v w hfirst hfirst' (endsRun_members _ rest _)
      (endsRun_members _ rest' _) (List.cons.inj hcolon).2
    obtain ⟨rfl, hst⟩ := writeMembers_append_inj h rest rest' hrest hrest' htail
    exact ⟨rfl, hst⟩

end

/-- Values with the same compact text are equal. -/
theorem compact_inj (h : PrintedApart ns) (hv : ∀ n ∈ v.numbers, n ∈ ns)
    (hw : ∀ n ∈ w.numbers, n ∈ ns) (heq : v.compact = w.compact) : v = w := by
  have htext : write .compact 0 v ++ [] = write .compact 0 w ++ [] := by
    rw [List.append_nil, List.append_nil]
    exact String.ofList_injective heq
  exact (write_append_inj h v w hv hw endsRun_nil endsRun_nil htext).1

end Values

end Stagecraft.Proofs
