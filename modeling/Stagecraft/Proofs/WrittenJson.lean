import Stagecraft.Json.Parser
import Stagecraft.Proofs.WrittenText

/-!
# Written values

A value that is written, in either style, is read back as it was: the lexer finds the value's
tokens, and the parser builds the value from them as long as it is not nested beyond the limit.
That a number's own text reads back is assumed, of the numbers that occur.
-/

namespace Stagecraft

variable {K : Type}

deriving instance DecidableEq for Number

/-- A number whose text reads back as the number. -/
def Number.ReadsBack [Numeral K] (n : Number K) : Prop :=
  Json.readNumber (Json.writeNumber n) = some n

instance [DecidableEq K] [Numeral K] (n : Number K) : Decidable n.ReadsBack :=
  inferInstanceAs (Decidable (_ = _))

namespace Json

mutual

/-- The numbers of a value, in the order they are written. -/
def numbers : Json K → List (Number K)
  | .num n => [n]
  | .arr items => itemNumbers items
  | .obj members => memberNumbers members
  | _ => []

def itemNumbers : List (Json K) → List (Number K)
  | [] => []
  | v :: rest => numbers v ++ itemNumbers rest

def memberNumbers : List (String × Json K) → List (Number K)
  | [] => []
  | (_, v) :: rest => numbers v ++ memberNumbers rest

end

mutual

/-- The tokens of a value's text. -/
def tokens : Json K → List (Token K)
  | .arr [] => [.openList, .closeList]
  | .arr (v :: rest) => .openList :: tokens v ++ itemTokens rest ++ [.closeList]
  | .obj [] => [.openRecord, .closeRecord]
  | .obj ((name, v) :: rest) =>
    .openRecord :: .atom (.str name) :: .colon :: tokens v ++ memberTokens rest ++ [.closeRecord]
  | v => [.atom v]

/-- The tokens of what follows an item of a list. -/
def itemTokens : List (Json K) → List (Token K)
  | [] => []
  | v :: rest => .comma :: tokens v ++ itemTokens rest

/-- The tokens of what follows a member of an object. -/
def memberTokens : List (String × Json K) → List (Token K)
  | [] => []
  | (name, v) :: rest => .comma :: .atom (.str name) :: .colon :: tokens v ++ memberTokens rest

end

end Json

end Stagecraft

namespace Stagecraft.Proofs

open Json

section Values

variable {K : Type} [Numeral K] {l : Lexer K} {ts us : List (Token K)} {cs : List Char}

lemma readRun_number {n : Number K} (h : readNumber cs = some n) : readRun cs = some (.num n) := by
  have hname {name : List Char} (hnone : readNumber (K := K) name = none) : cs ≠ name := by
    rintro rfl
    cases hnone.symm.trans h
  unfold readRun
  rw [if_neg (hname rfl), if_neg (hname rfl), if_neg (hname rfl), h]
  rfl

lemma isBlank_gap (style : Style) (level : Nat) : ∀ c ∈ style.gap level, isBlank c = true := by
  intro c hc
  cases style with
  | compact => cases hc
  | indented =>
    cases hc with
    | head => rfl
    | tail _ hc =>
      rw [List.eq_of_mem_replicate hc]
      rfl

/-- Blanks end a run and change nothing else. -/
lemma push_blanks (hcs : ∀ c ∈ cs, isBlank c = true) (h : l.flush = some ⟨ts, .none⟩) :
    ∃ l', cs.foldlM Lexer.push l = some l' ∧ (l' = l ∨ l' = ⟨ts, .none⟩) := by
  induction cs generalizing l with
  | nil => exact ⟨l, rfl, .inl rfl⟩
  | cons c cs ih =>
    have hpush : l.push c = some ⟨ts, .none⟩ := by
      rw [push_outside h, Lexer.outside, if_pos (hcs c List.mem_cons_self), h]
    obtain ⟨l', hfold, hl'⟩ := ih (fun d hd => hcs d (List.mem_cons_of_mem c hd))
      (rfl : Lexer.flush ⟨ts, .none⟩ = some ⟨ts, .none⟩)
    exact ⟨l', (foldlM_cons_of hpush).trans hfold, .inr (hl'.elim id id)⟩

lemma scans_gap (style : Style) (level : Nat) (hrest : Scans ⟨ts, .none⟩ cs us) :
    Scans ⟨ts, .none⟩ (style.gap level ++ cs) us := by
  obtain ⟨l', hfold, hl'⟩ := push_blanks (l := ⟨ts, .none⟩) (isBlank_gap style level) rfl
  obtain rfl : l' = ⟨ts, .none⟩ := hl'.elim id id
  exact scans_after hfold hrest

/-- The end of a container, on a line of its own. -/
lemma scans_close {c : Char} {t : Token K} (style : Style) (level : Nat)
    (h : l.flush = some ⟨ts, .none⟩) (hc : Lexer.punctuation? c = some t) :
    Scans l (style.gap level ++ [c]) (t :: ts) := by
  obtain ⟨l', hfold, hl'⟩ := push_blanks (isBlank_gap style level) h
  have hflush : l'.flush = some ⟨ts, .none⟩ := by
    obtain rfl | rfl := hl'
    · exact h
    · rfl
  exact scans_after hfold (scans_punctuation hflush hc (scans_nil rfl))

lemma scans_colon (style : Style) (hrest : Scans ⟨.colon :: ts, .none⟩ cs us) :
    Scans ⟨ts, .none⟩ (style.colon ++ cs) us := by
  cases style with
  | compact => exact scans_punctuation rfl rfl hrest
  | indented => exact scans_punctuation rfl rfl (scans_blank rfl rfl hrest)

lemma scans_name (style : Style) (level : Nat) (name : String)
    (hrest : Scans ⟨.colon :: .atom (.str name) :: ts, .none⟩ cs us) :
    Scans ⟨ts, .none⟩ (style.gap level ++ (quote name ++ (style.colon ++ cs))) us :=
  scans_gap style level (scans_quote name rfl (scans_colon style hrest))

mutual

/-- Before a value nothing is open. After it a run may be, when the value is a number or a name, so
what follows a value takes any state that has its tokens. -/
lemma scans_write (style : Style) (level : Nat) (ts : List (Token K)) :
    (v : Json K) → (∀ n ∈ v.numbers, n.ReadsBack) →
      Scans ⟨ts, .none⟩ (write style level v) (v.tokens.reverse ++ ts)
  | .null, _ => scans_run (inRun_word rfl) rfl
  | .bool true, _ => scans_run (inRun_word rfl) rfl
  | .bool false, _ => scans_run (inRun_word rfl) rfl
  | .num n, h => scans_run (inRun_writeNumber n) (readRun_number (h n List.mem_cons_self))
  | .str s, _ => by
    have hquote := scans_quote s (l := ⟨ts, .none⟩) rfl (scans_nil rfl)
    rw [List.append_nil] at hquote
    exact hquote
  | .arr [], _ => scans_punctuation rfl rfl (scans_punctuation rfl rfl (scans_nil rfl))
  | .arr (v :: rest), h => by
    obtain ⟨hv, hrest⟩ := List.forall_mem_append.mp h
    have hfirst := scans_write style (level + 1) (.openList :: ts) v hv
    simp only [write, tokens, List.cons_append, List.append_assoc, List.reverse_cons,
      List.reverse_append]
    refine scans_punctuation rfl rfl (scans_gap style _ (scans_append hfirst fun l hl => ?_))
    refine scans_append (scans_writeItems style (level + 1) rest hrest hl) fun l' hl' => ?_
    exact scans_close style level hl' rfl
  | .obj [], _ => scans_punctuation rfl rfl (scans_punctuation rfl rfl (scans_nil rfl))
  | .obj ((name, v) :: rest), h => by
    obtain ⟨hv, hrest⟩ := List.forall_mem_append.mp h
    have hfirst := scans_write style (level + 1) (.colon :: .atom (.str name) :: .openRecord :: ts)
      v hv
    simp only [write, tokens, List.cons_append, List.append_assoc, List.reverse_cons,
      List.reverse_append]
    refine scans_punctuation rfl rfl (scans_name style _ name (scans_append hfirst fun l hl => ?_))
    refine scans_append (scans_writeMembers style (level + 1) rest hrest hl) fun l' hl' => ?_
    exact scans_close style level hl' rfl

lemma scans_writeItems (style : Style) (level : Nat) :
    (items : List (Json K)) → (∀ n ∈ itemNumbers items, n.ReadsBack) →
      {l : Lexer K} → {ts : List (Token K)} → l.flush = some ⟨ts, .none⟩ →
        Scans l (writeItems style level items) ((itemTokens items).reverse ++ ts)
  | [], _, _, _, hl => scans_nil hl
  | v :: rest, h, _, ts, hl => by
    obtain ⟨hv, hrest⟩ := List.forall_mem_append.mp h
    have hfirst := scans_write style level (.comma :: ts) v hv
    simp only [writeItems, itemTokens, List.cons_append, List.append_assoc, List.reverse_cons,
      List.reverse_append]
    refine scans_punctuation hl rfl (scans_gap style _ (scans_append hfirst fun l hl => ?_))
    exact scans_writeItems style level rest hrest hl

lemma scans_writeMembers (style : Style) (level : Nat) :
    (members : List (String × Json K)) → (∀ n ∈ memberNumbers members, n.ReadsBack) →
      {l : Lexer K} → {ts : List (Token K)} → l.flush = some ⟨ts, .none⟩ →
        Scans l (writeMembers style level members) ((memberTokens members).reverse ++ ts)
  | [], _, _, _, hl => scans_nil hl
  | (name, v) :: rest, h, _, ts, hl => by
    obtain ⟨hv, hrest⟩ := List.forall_mem_append.mp h
    have hfirst := scans_write style level (.colon :: .atom (.str name) :: .comma :: ts) v hv
    simp only [writeMembers, memberTokens, List.cons_append, List.append_assoc, List.reverse_cons,
      List.reverse_append]
    refine scans_punctuation hl rfl (scans_name style _ name (scans_append hfirst fun l hl => ?_))
    exact scans_writeMembers style level rest hrest hl

end

lemma tokens_write (style : Style) (v : Json K) (h : ∀ n ∈ v.numbers, n.ReadsBack) :
    tokens? (write style 0 v) = some v.tokens := by
  obtain ⟨l, hfold, hflush⟩ := scans_write style 0 [] v h
  unfold tokens?
  have hstart : (write style 0 v).foldlM Lexer.push Lexer.start = some l := hfold
  rw [hstart]
  simp only [Option.bind_eq_bind, Option.bind_some, hflush, List.append_nil, List.reverse_reverse]

end Values

section Nesting

variable {K : Type} {limit : Nat} {stack : List (Container K)} {expect : Expect}

/-- A value may come next. -/
def TakesValue (expect : Expect) : Prop := expect = .value ∨ expect = .valueOrEnd

lemma step_atom (h : TakesValue expect) (v : Json K) :
    Progress.step limit (.inside stack expect) (.atom v) = some (Progress.put v stack) := by
  obtain rfl | rfl := h <;> rfl

lemma step_openList (h : TakesValue expect) (hstack : stack.length < limit) :
    Progress.step limit (.inside stack expect) .openList =
      some (.inside (.list [] :: stack) .valueOrEnd) := by
  have henter : Progress.enter limit (.list []) .valueOrEnd stack =
      some (.inside (.list [] :: stack) .valueOrEnd) := if_pos hstack
  obtain rfl | rfl := h <;> exact henter

lemma step_openRecord (h : TakesValue expect) (hstack : stack.length < limit) :
    Progress.step limit (.inside stack expect) .openRecord =
      some (.inside (.record [] "" :: stack) .nameOrEnd) := by
  have henter : Progress.enter limit (.record [] "") .nameOrEnd stack =
      some (.inside (.record [] "" :: stack) .nameOrEnd) := if_pos hstack
  obtain rfl | rfl := h <;> exact henter

mutual

/-- The tokens of a value put the value where it was expected, and the stack is back at its height.
The nesting that is left of the limit pays for the value's depth. -/
lemma step_tokens (stack : List (Container K)) :
    (v : Json K) → stack.length + v.depth ≤ limit → {expect : Expect} → TakesValue expect →
      v.tokens.foldlM (Progress.step limit) (.inside stack expect) = some (Progress.put v stack)
  | .null, _, _, h => foldlM_cons_of (step_atom h _)
  | .bool _, _, _, h => foldlM_cons_of (step_atom h _)
  | .num _, _, _, h => foldlM_cons_of (step_atom h _)
  | .str _, _, _, h => foldlM_cons_of (step_atom h _)
  | .arr [], hdepth, _, h => foldlM_cons_of (step_openList h hdepth)
  | .arr (v :: rest), hdepth, _, h => by
    rw [depth, listDepth] at hdepth
    have hfirst := step_tokens (.list [] :: stack) v (by rw [List.length_cons]; omega) (.inr rfl)
    have hrest := step_itemTokens stack rest (by omega) [v]
    simp only [tokens, List.cons_append, List.append_assoc]
    rw [foldlM_cons_of (step_openList h (by omega)), foldlM_append_of hfirst,
      Progress.put, foldlM_append_of hrest]
    exact foldlM_cons_of (by simp [Progress.step, Progress.closeList])
  | .obj [], hdepth, _, h => foldlM_cons_of (step_openRecord h hdepth)
  | .obj ((name, v) :: rest), hdepth, _, h => by
    rw [depth, memberDepth] at hdepth
    have hfirst := step_tokens (.record [] name :: stack) v (by rw [List.length_cons]; omega)
      (.inl rfl)
    obtain ⟨last, hrest⟩ := step_memberTokens stack rest (by omega) [(name, v)] name
    simp only [tokens, List.cons_append, List.append_assoc]
    rw [foldlM_cons_of (step_openRecord h (by omega)), foldlM_cons_of rfl, foldlM_cons_of rfl,
      foldlM_append_of hfirst, Progress.put, foldlM_append_of hrest]
    exact foldlM_cons_of (by simp [Progress.step, Progress.closeRecord])

lemma step_itemTokens (stack : List (Container K)) :
    (items : List (Json K)) → stack.length + listDepth items < limit → (acc : List (Json K)) →
      (itemTokens items).foldlM (Progress.step limit) (.inside (.list acc :: stack) .commaOrEnd) =
        some (.inside (.list (items.reverse ++ acc) :: stack) .commaOrEnd)
  | [], _, _ => rfl
  | v :: rest, hdepth, acc => by
    rw [listDepth] at hdepth
    have hfirst := step_tokens (.list acc :: stack) v (by rw [List.length_cons]; omega) (.inl rfl)
    rw [itemTokens, List.cons_append, foldlM_cons_of rfl, foldlM_append_of hfirst, Progress.put,
      step_itemTokens stack rest (by omega), List.reverse_cons, List.append_assoc,
      List.singleton_append]

lemma step_memberTokens (stack : List (Container K)) :
    (members : List (String × Json K)) → stack.length + memberDepth members < limit →
      (acc : List (String × Json K)) → (name : String) → ∃ last,
        (memberTokens members).foldlM (Progress.step limit)
            (.inside (.record acc name :: stack) .commaOrEnd) =
          some (.inside (.record (members.reverse ++ acc) last :: stack) .commaOrEnd)
  | [], _, _, name => ⟨name, rfl⟩
  | (name, v) :: rest, hdepth, acc, _ => by
    rw [memberDepth] at hdepth
    have hfirst := step_tokens (.record acc name :: stack) v (by rw [List.length_cons]; omega)
      (.inl rfl)
    obtain ⟨last, hrest⟩ := step_memberTokens stack rest (by omega) ((name, v) :: acc) name
    refine ⟨last, ?_⟩
    simp only [memberTokens, List.cons_append]
    rw [foldlM_cons_of rfl, foldlM_cons_of rfl, foldlM_cons_of rfl, foldlM_append_of hfirst,
      Progress.put, hrest, List.reverse_cons, List.append_assoc, List.singleton_append]

end

end Nesting

/-- Text written in either style reads back as the value, if its numbers do and it is not nested
beyond the limit. -/
theorem parse_render {K : Type} [Numeral K] (style : Style) (v : Json K)
    (hnumbers : ∀ n ∈ v.numbers, n.ReadsBack) (hdepth : v.depth ≤ nestingLimit) :
    parse? (v.render style) = some v := by
  have htokens : tokens? (v.render style).toList = some v.tokens := by
    rw [render, String.toList_ofList]
    exact tokens_write style v hnumbers
  have hfold := step_tokens [] v (by simpa using hdepth) (.inl rfl)
  unfold parse? ofTokens?
  rw [htokens]
  simp only [Option.bind_eq_bind, Option.bind_some, Progress.start, hfold, Progress.put]

end Stagecraft.Proofs
