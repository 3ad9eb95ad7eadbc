import Mathlib.Data.Option.Basic
import Mathlib.Tactic.Common
import Stagecraft.Json.Printer
import Stagecraft.Json.Token

/-!
# Written text

What the printer writes of a string or a number is taken by the lexer as one token. A string is
read back by one piece a character, and its escapes never end it early; the text of a number has no
character that would end a run. `Scans` says which tokens some text leads to, and its rules follow
the text from left to right.
-/

namespace Stagecraft.Proofs

open Json

section Folds

variable {α σ : Type} {f : σ → α → Option σ} {s s' : σ} {x : α} {xs ys : List α}

lemma foldlM_cons_of (h : f s x = some s') : (x :: xs).foldlM f s = xs.foldlM f s' := by
  rw [List.foldlM_cons, h]
  rfl

lemma foldlM_append_of (h : xs.foldlM f s = some s') :
    (xs ++ ys).foldlM f s = ys.foldlM f s' := by
  rw [List.foldlM_append, h]
  rfl

end Folds

section Texts

/-- The forms a character takes between quotes. -/
inductive Escape (c : Char) : List Char → Prop
  | plain (hquote : c ≠ '"') (hback : c ≠ '\\') (hplain : ' ' ≤ c) : Escape c [c]
  | short {e : Char} (hunit : e ≠ 'u') (he : unescape? e = some c) : Escape c ['\\', e]
  | unit (hsmall : c.toNat < 32) :
    Escape c ['\\', 'u', '0', '0', hexChar (c.toNat / 16), hexChar (c.toNat % 16)]

lemma escape_form (c : Char) : Escape c (escape c) := by
  have hshort {e d : Char} (hunit : e ≠ 'u') (hd : unescape? e = some d) (hc : c = d) :
      Escape c ['\\', e] := .short hunit (hc ▸ hd)
  unfold escape
  split_ifs with hquote hback hplain hbs hff hnl hcr htab
  · exact hshort (by decide) rfl hquote
  · exact hshort (by decide) rfl hback
  · exact .plain hquote hback hplain
  · exact hshort (by decide) rfl hbs
  · exact hshort (by decide) rfl hff
  · exact hshort (by decide) rfl hnl
  · exact hshort (by decide) rfl hcr
  · exact hshort (by decide) rfl htab
  · exact .unit (Char.not_le.mp hplain)

/-- A piece of a quoted string that stands for one character, whatever follows it. -/
def Stands (p : Piece) (c : Char) : Prop :=
  ∀ ps, assemble? (p :: ps) = (assemble? ps).map (c :: ·)

lemma stands_char (c : Char) : Stands (.char c) c := fun _ => rfl

/-- The number of a control character is no half of a pair. -/
lemma stands_unit {c : Char} (h : c.toNat < 32) : Stands (.unit c.toNat) c := by
  have hhigh : isHighUnit c.toNat = false := by
    unfold isHighUnit
    grind
  have hlow : isLowUnit c.toNat = false := by
    unfold isLowUnit
    grind
  intro ps
  cases ps with
  | nil => simp [assemble?, hhigh, hlow]
  | cons q qs =>
    cases q with
    | char d => simp [assemble?, hhigh, hlow]
    | unit v => simp [assemble?, hhigh, hlow]

lemma pieces_plain {c : Char} (hback : c ≠ '\\') (hplain : ' ' ≤ c) (cs : List Char) :
    pieces? (c :: cs) = (pieces? cs).map (.char c :: ·) := by
  have hguard : guard (c ≠ '\\' ∧ ' ' ≤ c) = some () := if_pos ⟨hback, hplain⟩
  rw [pieces?, hguard]
  · cases pieces? cs <;> rfl
  · exact fun _ _ _ _ _ h _ => hback h
  · exact fun _ _ h _ => hback h

lemma pieces_short {e c : Char} (hunit : e ≠ 'u') (he : unescape? e = some c) (cs : List Char) :
    pieces? ('\\' :: e :: cs) = (pieces? cs).map (.char c :: ·) := by
  rw [pieces?, he]
  · cases pieces? cs <;> rfl
  · exact fun _ _ _ _ _ h _ => hunit h

lemma hexDigit_hexChar : ∀ n < 16, hexDigit? (hexChar n) = some n := by
  decide

lemma pieces_unit {c : Char} (h : c.toNat < 32) (cs : List Char) :
    pieces? ('\\' :: 'u' :: '0' :: '0' :: hexChar (c.toNat / 16) :: hexChar (c.toNat % 16) :: cs) =
      (pieces? cs).map (.unit c.toNat :: ·) := by
  have hzero : hexDigit? '0' = some 0 := rfl
  have hvalue : 4096 * 0 + 256 * 0 + 16 * (c.toNat / 16) + c.toNat % 16 = c.toNat := by omega
  rw [pieces?, hzero, hexDigit_hexChar _ (by omega), hexDigit_hexChar _ (by omega)]
  simp only [Option.bind_eq_bind, Option.bind_some, hvalue]
  cases pieces? cs <;> rfl

lemma pieces_escape (c : Char) :
    ∃ p, Stands p c ∧ ∀ cs, pieces? (escape c ++ cs) = (pieces? cs).map (p :: ·) := by
  have hform := escape_form c
  generalize escape c = written at hform ⊢
  cases hform with
  | plain hquote hback hplain => exact ⟨.char c, stands_char c, pieces_plain hback hplain⟩
  | short hunit he => exact ⟨.char c, stands_char c, pieces_short hunit he⟩
  | unit hsmall => exact ⟨.unit c.toNat, stands_unit hsmall, pieces_unit hsmall⟩

lemma readText_escape (s : String) : readText (s.toList.flatMap escape) = some s := by
  have hall (cs : List Char) :
      ∃ ps, pieces? (cs.flatMap escape) = some ps ∧ assemble? ps = some cs := by
    induction cs with
    | nil => exact ⟨[], rfl, rfl⟩
    | cons c cs ih =>
      obtain ⟨ps, hps, hcs⟩ := ih
      obtain ⟨p, hp, hpieces⟩ := pieces_escape c
      refine ⟨p :: ps, ?_, ?_⟩
      · rw [List.flatMap_cons, hpieces, hps]
        rfl
      · rw [hp, hcs]
        rfl
  obtain ⟨ps, hps, hcs⟩ := hall s.toList
  unfold readText
  rw [hps]
  simp only [Option.bind_eq_bind, Option.bind_some, hcs]
  exact congrArg some String.ofList_toList

end Texts

section Lexing

variable {K : Type} [Numeral K]

/-- From a state of the lexer, some characters lead to these tokens, latest first, and leave
nothing open but a run that is complete. -/
def Scans (l : Lexer K) (cs : List Char) (ts : List (Token K)) : Prop :=
  ∃ l', cs.foldlM Lexer.push l = some l' ∧ l'.flush = some ⟨ts, .none⟩

variable {l : Lexer K} {ts us : List (Token K)} {c : Char} {cs ds : List Char}

lemma scans_nil (h : l.flush = some ⟨ts, .none⟩) : Scans l [] ts := ⟨l, rfl, h⟩

lemma scans_after {l' : Lexer K} (hfold : cs.foldlM Lexer.push l = some l')
    (h : Scans l' ds ts) : Scans l (cs ++ ds) ts := by
  obtain ⟨l'', hfold', hflush⟩ := h
  exact ⟨l'', (foldlM_append_of hfold).trans hfold', hflush⟩

lemma scans_cons {l' : Lexer K} (hpush : l.push c = some l') (h : Scans l' cs ts) :
    Scans l (c :: cs) ts := by
  obtain ⟨l'', hfold, hflush⟩ := h
  exact ⟨l'', (foldlM_cons_of hpush).trans hfold, hflush⟩

lemma scans_append (h : Scans l cs ts)
    (hrest : ∀ l', l'.flush = some ⟨ts, .none⟩ → Scans l' ds us) : Scans l (cs ++ ds) us := by
  obtain ⟨l', hfold, hflush⟩ := h
  exact scans_after hfold (hrest l' hflush)

/-- Where nothing is left open, no string is. -/
lemma push_outside (h : l.flush = some ⟨ts, .none⟩) (c : Char) : l.push c = l.outside c := by
  obtain ⟨tokens, current⟩ := l
  cases current with
  | none => rfl
  | quoted cs b => cases h
  | run cs => rfl

lemma scans_blank (h : l.flush = some ⟨ts, .none⟩) (hc : isBlank c = true)
    (hrest : Scans ⟨ts, .none⟩ cs us) : Scans l (c :: cs) us := by
  refine scans_cons ?_ hrest
  rw [push_outside h, Lexer.outside, if_pos hc, h]

lemma scans_punctuation {t : Token K} (h : l.flush = some ⟨ts, .none⟩)
    (hc : Lexer.punctuation? c = some t) (hrest : Scans ⟨t :: ts, .none⟩ cs us) :
    Scans l (c :: cs) us := by
  have hplain : isBlank c = false ∧ c ≠ '"' := by
    grind [Lexer.punctuation?, isBlank]
  refine scans_cons ?_ hrest
  rw [push_outside h, Lexer.outside, hplain.1, if_neg Bool.false_ne_true, if_neg hplain.2, hc, h]
  rfl

lemma push_quoted {acc : List Char} (hquote : c ≠ '"') (hback : c ≠ '\\') :
    Lexer.push (K := K) ⟨ts, .quoted acc false⟩ c = some ⟨ts, .quoted (c :: acc) false⟩ := by
  unfold Lexer.push
  simp only [if_neg hquote, hback, decide_false]

lemma hexChar_plain : ∀ n < 16, hexChar n ≠ '"' ∧ hexChar n ≠ '\\' := by
  decide

/-- An escaped character never ends the string. -/
lemma push_escape (acc : List Char) (c : Char) :
    (escape c).foldlM Lexer.push (⟨ts, .quoted acc false⟩ : Lexer K) =
      some ⟨ts, .quoted ((escape c).reverse ++ acc) false⟩ := by
  have hform := escape_form c
  generalize escape c = written at hform ⊢
  cases hform with
  | plain hquote hback _ => exact foldlM_cons_of (push_quoted hquote hback)
  | short => rfl
  | unit hsmall =>
    obtain ⟨hhigh, hhigh'⟩ := hexChar_plain (c.toNat / 16) (by omega)
    obtain ⟨hlow, hlow'⟩ := hexChar_plain (c.toNat % 16) (by omega)
    have hhead : ['\\', 'u', '0', '0'].foldlM Lexer.push (⟨ts, .quoted acc false⟩ : Lexer K) =
        some ⟨ts, .quoted ('0' :: '0' :: 'u' :: '\\' :: acc) false⟩ := rfl
    change List.foldlM _ _ (['\\', 'u', '0', '0'] ++ [_, _]) = _
    rw [foldlM_append_of hhead, foldlM_cons_of (push_quoted hhigh hhigh'),
      foldlM_cons_of (push_quoted hlow hlow')]
    rfl

lemma push_escaped (acc cs : List Char) :
    (cs.flatMap escape).foldlM Lexer.push (⟨ts, .quoted acc false⟩ : Lexer K) =
      some ⟨ts, .quoted ((cs.flatMap escape).reverse ++ acc) false⟩ := by
  induction cs generalizing acc with
  | nil => rfl
  | cons c cs ih =>
    rw [List.flatMap_cons, foldlM_append_of (push_escape acc c), ih, List.reverse_append,
      List.append_assoc]

lemma scans_quote (s : String) (h : l.flush = some ⟨ts, .none⟩)
    (hrest : Scans ⟨.atom (.str s) :: ts, .none⟩ cs us) : Scans l (quote s ++ cs) us := by
  have hopen : l.push '"' = some ⟨ts, .quoted [] false⟩ := by
    rw [push_outside h, Lexer.outside, if_neg (by decide), if_pos rfl, h]
    rfl
  have hend (acc : List Char) : Lexer.push (K := K) ⟨ts, .quoted acc false⟩ '"' =
      (readText acc.reverse).map fun s => ⟨.atom (.str s) :: ts, .none⟩ := rfl
  have hclose : Lexer.push (K := K)
      ⟨ts, .quoted ((s.toList.flatMap escape).reverse ++ []) false⟩ '"' =
        some ⟨.atom (.str s) :: ts, .none⟩ := by
    rw [hend, List.append_nil, List.reverse_reverse, readText_escape]
    rfl
  unfold quote
  rw [List.cons_append, List.cons_append, List.append_assoc]
  exact scans_cons hopen (scans_after (push_escaped [] s.toList) (scans_cons hclose hrest))

/-- A character that neither ends a run nor is a token on its own. -/
structure InRun (K : Type) (c : Char) : Prop where
  not_blank : isBlank c = false
  not_quote : c ≠ '"'
  not_token : Lexer.punctuation? (K := K) c = none

lemma push_run {acc : List Char} (hc : InRun K c) :
    Lexer.push (K := K) ⟨ts, .run acc⟩ c = some ⟨ts, .run (c :: acc)⟩ := by
  change Lexer.outside _ _ = _
  rw [Lexer.outside, hc.not_blank, if_neg Bool.false_ne_true, if_neg hc.not_quote, hc.not_token]

lemma push_first (hc : InRun K c) :
    Lexer.push (K := K) ⟨ts, .none⟩ c = some ⟨ts, .run [c]⟩ := by
  change Lexer.outside _ _ = _
  rw [Lexer.outside, hc.not_blank, if_neg Bool.false_ne_true, if_neg hc.not_quote, hc.not_token]

lemma scans_run {v : Json K} (hcs : ∀ c ∈ cs, InRun K c) (hread : readRun cs = some v) :
    Scans ⟨ts, .none⟩ cs (.atom v :: ts) := by
  have hmore (cs acc : List Char) (hcs : ∀ c ∈ cs, InRun K c) :
      cs.foldlM Lexer.push (⟨ts, .run acc⟩ : Lexer K) = some ⟨ts, .run (cs.reverse ++ acc)⟩ := by
    induction cs generalizing acc with
    | nil => rfl
    | cons c cs ih =>
      rw [foldlM_cons_of (push_run (hcs c List.mem_cons_self)),
        ih _ fun d hd => hcs d (List.mem_cons_of_mem c hd), List.reverse_cons, List.append_assoc]
      rfl
  cases cs with
  | nil => cases hread
  | cons c cs =>
    refine scans_cons (push_first (hcs c List.mem_cons_self)) ⟨_, hmore cs [c] ?_, ?_⟩
    · exact fun d hd => hcs d (List.mem_cons_of_mem c hd)
    · rw [← List.reverse_cons]
      change Option.map _ (readRun (c :: cs).reverse.reverse) = _
      rw [List.reverse_reverse, hread]
      rfl

end Lexing

section Numbers

variable {K : Type}

lemma inRun_alphanum {c : Char} (hc : c.isAlphanum = true) : InRun K c := by
  have hne (d : Char) (hd : d.isAlphanum = false) : c ≠ d := by
    rintro rfl
    exact absurd hc (Bool.eq_false_iff.mp hd)
  refine ⟨?_, hne _ rfl, ?_⟩
  · simp [isBlank, hne ' ' rfl, hne '\n' rfl, hne '\t' rfl, hne '\r' rfl]
  · rw [Lexer.punctuation?]
    all_goals exact hne _ rfl

lemma inRun_word {word : String} (h : word.toList.all Char.isAlphanum = true) :
    ∀ c ∈ word.toList, InRun K c :=
  fun c hc => inRun_alphanum (List.all_eq_true.mp h c hc)

lemma inRun_digit {c : Char} (hc : c.isDigit = true) : InRun K c := by
  refine inRun_alphanum ?_
  rw [Char.isAlphanum, hc, Bool.or_true]

lemma inRun_digitChars (n : Nat) : ∀ c ∈ Decimal.digitChars n, InRun K c :=
  fun _ hc => inRun_digit (Nat.isDigit_of_mem_toDigits (by decide) (by decide) hc)

lemma inRun_sign (negative : Bool) : ∀ c ∈ Decimal.signChars negative, InRun K c := by
  unfold Decimal.signChars
  split
  next => exact List.forall_mem_singleton.mpr ⟨rfl, by decide, rfl⟩
  next => exact List.forall_mem_nil _

lemma inRun_paddedDigits (width n : Nat) : ∀ c ∈ Decimal.paddedDigits width n, InRun K c := by
  refine List.forall_mem_append.mpr ⟨fun c hc => ?_, inRun_digitChars n⟩
  rw [List.eq_of_mem_replicate hc]
  exact inRun_digit rfl

lemma inRun_positional (d : Decimal) : ∀ c ∈ d.positional, InRun K c := by
  have hpoint : InRun K '.' := ⟨rfl, by decide, rfl⟩
  have hpadded (width : Nat) := inRun_paddedDigits (K := K) width d.digits
  refine List.forall_mem_append.mpr ⟨inRun_sign _, ?_⟩
  split
  next =>
    refine List.forall_mem_append.mpr ⟨inRun_digitChars _, fun c hc => ?_⟩
    split at hc
    next => cases hc
    next =>
      rw [List.eq_of_mem_replicate hc]
      exact inRun_digit rfl
  next =>
    refine List.forall_mem_append.mpr ⟨fun c hc => hpadded _ c (List.mem_of_mem_take hc), ?_⟩
    exact List.forall_mem_cons.mpr ⟨hpoint, fun c hc => hpadded _ c (List.mem_of_mem_drop hc)⟩

lemma inRun_scientific (d : Decimal) : ∀ c ∈ d.scientific, InRun K c := by
  have hpoint : InRun K '.' := ⟨rfl, by decide, rfl⟩
  have hmark : InRun K 'e' := ⟨rfl, by decide, rfl⟩
  have hsigned (p : Prop) [Decidable p] : InRun K (if p then '-' else '+') := by
    split <;> exact ⟨rfl, by decide, rfl⟩
  have hdigits := inRun_digitChars (K := K) d.digits
  simp only [Decimal.scientific, List.forall_mem_append, List.forall_mem_cons]
  refine ⟨⟨⟨inRun_sign _, fun c hc => hdigits c (List.mem_of_mem_take hc)⟩, ?_⟩,
    hmark, hsigned _, inRun_digitChars _⟩
  split
  next => exact List.forall_mem_nil _
  next => exact List.forall_mem_cons.mpr ⟨hpoint, fun c hc => hdigits c (List.mem_of_mem_drop hc)⟩

lemma inRun_literal (d : Decimal) : ∀ c ∈ d.literal, InRun K c := by
  have hzero : InRun K '0' := inRun_digit rfl
  have hpoint : InRun K '.' := ⟨rfl, by decide, rfl⟩
  have htail : ∀ c ∈ ['.', '0'], InRun K c := by
    simp [hzero, hpoint]
  unfold Decimal.literal
  split_ifs
  · exact List.forall_mem_append.mpr ⟨inRun_sign _, List.forall_mem_cons.mpr ⟨hzero, htail⟩⟩
  · exact List.forall_mem_append.mpr ⟨inRun_positional d, htail⟩
  · exact List.forall_mem_append.mpr ⟨inRun_positional d, List.forall_mem_nil _⟩
  · exact inRun_scientific d

lemma inRun_writeNumber [Numeral K] (n : Number K) : ∀ c ∈ writeNumber n, InRun K c := by
  cases n with
  | int i => exact List.forall_mem_append.mpr ⟨inRun_sign _, inRun_digitChars _⟩
  | real x =>
    rw [writeNumber]
    split
    next d _ => exact inRun_literal d
    next => exact inRun_word rfl

end Numbers

end Stagecraft.Proofs
