import Mathlib.Data.List.Infix
import Stagecraft.Files.Store

/-!
# File trees

A path leads from directory to directory, and the places on the way are those of its beginnings.
When no file stands on the way, the directories that are missing there can be made, and nothing
else of the tree is changed.
-/

namespace Stagecraft

namespace Path

/-- A path leads through the places of its beginnings and ends at its own. -/
def Passes (p : Path) (q : List String) : Prop :=
  ∃ front, front <+: p.pieces ∧ Path.place ⟨front⟩ = q

/-- A path of a length that paths may have, and names that names may have. -/
structure Fits (p : Path) : Prop where
  text_le : p.text.utf8ByteSize ≤ FileTree.pathLimit
  pieces_le : ∀ piece ∈ p.pieces, piece.utf8ByteSize ≤ FileTree.nameLimit

instance (p : Path) (q : List String) : Decidable (p.Passes q) :=
  decidable_of_iff (∃ front ∈ p.pieces.inits, Path.place ⟨front⟩ = q) (by simp [Passes])

instance (p : Path) : Decidable p.Fits :=
  decidable_of_iff (p.text.utf8ByteSize ≤ FileTree.pathLimit ∧
    ∀ piece ∈ p.pieces, piece.utf8ByteSize ≤ FileTree.nameLimit)
    ⟨fun ⟨h, h'⟩ => ⟨h, h'⟩, fun ⟨h, h'⟩ => ⟨h, h'⟩⟩

end Path

end Stagecraft

namespace Stagecraft.Proofs

section Nodes

variable {t : FileTree} {place q : List String} {node : FileNode}

lemma node?_above (h : place.all (· = "..") = true) : t.node? place = some .directory :=
  if_pos h

lemma not_above (h : t.node? place ≠ some .directory) : place.all (· = "..") = false := by
  rw [Bool.eq_false_iff]
  exact fun habove => h (node?_above habove)

lemma node?_put (t : FileTree) (node : FileNode) (h : place.all (· = "..") = false)
    (q : List String) :
    (t.put place node).node? q = if q = place then some node else t.node? q := by
  unfold FileTree.node? FileTree.put
  dsimp only
  by_cases hq : q = place
  · subst hq
    have hnone : (t.nodes.filter fun n => n.1 ≠ q).find? (fun n => n.1 = q) = none := by
      simp [List.find?_eq_none]
    rw [h, if_pos rfl, List.find?_append, hnone]
    simp
  · have hother : (t.nodes.filter fun n => n.1 ≠ place).find? (fun n => n.1 = q) =
        t.nodes.find? fun n => n.1 = q := by
      rw [List.find?_filter]
      congr 1
      funext n
      by_cases hn : n.1 = q
      · simp [hn, hq]
      · simp [hn]
    have hlast : [(place, node)].find? (fun n => n.1 = q) = none := by
      simp [Ne.symm hq]
    rw [if_neg hq, List.find?_append, hother, hlast, Option.or_none]

lemma node?_clear (h : place.all (· = "..") = false) :
    (t.clear place).node? q = if place <+: q then none else t.node? q := by
  unfold FileTree.node? FileTree.clear
  dsimp only
  by_cases hstarts : place <+: q
  · have hbelow : ¬q.all (· = "..") = true := by
      intro hall
      rw [List.all_eq_true] at hall
      have habove : place.all (· = "..") = true :=
        List.all_eq_true.mpr fun name hname => hall name (hstarts.subset hname)
      rw [habove] at h
      cases h
    have hnone : (t.nodes.filter fun n => !place.isPrefixOf n.1).find? (fun n => n.1 = q) =
        none := by
      rw [List.find?_eq_none]
      rintro n hn heq
      rw [decide_eq_true_eq] at heq
      rw [List.mem_filter, heq, List.isPrefixOf_iff_prefix.mpr hstarts] at hn
      exact absurd hn.2 (by decide)
    rw [if_neg hbelow, hnone, if_pos hstarts]
    rfl
  · have hother : (t.nodes.filter fun n => !place.isPrefixOf n.1).find? (fun n => n.1 = q) =
        t.nodes.find? fun n => n.1 = q := by
      rw [List.find?_filter]
      congr 1
      funext n
      by_cases hn : n.1 = q
      · have hkept : place.isPrefixOf q = false := by
          rw [Bool.eq_false_iff]
          exact fun hp => hstarts (List.isPrefixOf_iff_prefix.mp hp)
        simp [hn, hkept]
      · simp [hn]
    rw [if_neg hstarts, hother]

end Nodes

section Ways

variable {t : FileTree} {ps : List String} {piece : String} {q : List String}

lemma place_concat : Path.place ⟨ps ++ [piece]⟩ = Path.follow (Path.place ⟨ps⟩) piece := by
  unfold Path.place
  rw [List.foldl_append]
  rfl

lemma passes_self : Path.Passes ⟨ps⟩ (Path.place ⟨ps⟩) :=
  ⟨ps, List.prefix_rfl, rfl⟩

lemma passes_concat : Path.Passes ⟨ps ++ [piece]⟩ q ↔
    Path.Passes ⟨ps⟩ q ∨ q = Path.place ⟨ps ++ [piece]⟩ := by
  constructor
  · rintro ⟨front, hfront, rfl⟩
    rcases List.prefix_concat_iff.mp hfront with rfl | hfront
    · exact Or.inr rfl
    · exact Or.inl ⟨front, hfront, rfl⟩
  · rintro (⟨front, hfront, rfl⟩ | rfl)
    · exact ⟨front, hfront.trans (List.prefix_append _ _), rfl⟩
    · exact passes_self

lemma step_directory (h : t.node? q = some .directory)
    (hname : piece.utf8ByteSize ≤ FileTree.nameLimit) :
    t.step q piece = .ok (Path.follow q piece) := by
  unfold FileTree.step
  rw [h]
  exact if_neg (not_lt.mpr hname)

lemma step_missing (h : t.node? q = none) : t.step q piece = .error .missing := by
  unfold FileTree.step
  rw [h]

lemma step_ok {place : List String} (h : t.step q piece = .ok place) :
    t.node? q = some .directory ∧ Path.follow q piece = place := by
  unfold FileTree.step at h
  cases hnode : t.node? q with
  | none =>
    rw [hnode] at h
    cases h
  | some node =>
    rw [hnode] at h
    cases node with
    | file text => cases h
    | directory =>
      dsimp only at h
      split at h
      · cases h
      · exact ⟨rfl, Except.ok.inj h⟩

/-- Where no file stands on the way, a walk comes to its end, or to a place where nothing is. -/
lemma walk_cases (hfree : ∀ q, Path.Passes ⟨ps⟩ q → ∀ text, t.node? q ≠ some (.file text))
    (hnames : ∀ name ∈ ps ++ [piece], name.utf8ByteSize ≤ FileTree.nameLimit) :
    ((∀ q, Path.Passes ⟨ps⟩ q → t.node? q = some .directory) ∧
      (ps ++ [piece]).foldlM t.step [] = .ok (Path.place ⟨ps ++ [piece]⟩)) ∨
    (∃ q, Path.Passes ⟨ps⟩ q ∧ t.node? q = none) ∧
      (ps ++ [piece]).foldlM t.step [] = .error .missing := by
  have hname := hnames piece (by simp)
  induction ps using List.reverseRecOn generalizing piece with
  | nil =>
    refine Or.inl ⟨?_, ?_⟩
    · rintro _ ⟨front, hfront, rfl⟩
      rw [List.prefix_nil.mp hfront]
      rfl
    · exact (bind_pure _).trans (step_directory rfl hname)
  | append_singleton ps last ih =>
    have hearlier := ih (fun q hq => hfree q (passes_concat.mpr (Or.inl hq)))
      (fun name hmem => hnames name (List.mem_append_left _ hmem)) (hnames last (by simp))
    rw [List.foldlM_append]
    rcases hearlier with ⟨hways, hwalk⟩ | ⟨⟨q, hq, hnone⟩, hwalk⟩
    · have hlast : ((ps ++ [last]).foldlM t.step [] >>= fun place => [piece].foldlM t.step place) =
          t.step (Path.place ⟨ps ++ [last]⟩) piece := by
        rw [hwalk]
        exact bind_pure (t.step (Path.place ⟨ps ++ [last]⟩) piece)
      rw [hlast]
      cases hnode : t.node? (Path.place ⟨ps ++ [last]⟩) with
      | none => exact Or.inr ⟨⟨_, passes_self, hnode⟩, step_missing hnode⟩
      | some node =>
        cases node with
        | file text => exact absurd hnode (hfree _ passes_self text)
        | directory =>
          have hplace : Path.place ⟨ps ++ [last] ++ [piece]⟩ =
              Path.follow (Path.place ⟨ps ++ [last]⟩) piece := place_concat
          rw [step_directory hnode hname, hplace]
          refine Or.inl ⟨fun q hq => ?_, rfl⟩
          rcases passes_concat.mp hq with hq | rfl
          · exact hways q hq
          · exact hnode
    · rw [hwalk]
      exact Or.inr ⟨⟨q, passes_concat.mpr (Or.inl hq), hnone⟩, rfl⟩

/-- The directory that something is in has a path of a length that paths may have. -/
lemma fits_front (hfits : Path.Fits ⟨ps ++ [piece]⟩) : Path.Fits ⟨ps⟩ := by
  refine ⟨?_, fun name hname => hfits.pieces_le name (List.mem_append_left _ hname)⟩
  refine le_trans ?_ hfits.text_le
  unfold Path.text
  dsimp only
  by_cases hps : ps = []
  · subst hps
    exact Nat.zero_le _
  · rw [String.intercalate_append_of_ne_nil hps (List.cons_ne_nil _ _),
      String.utf8ByteSize_append, String.utf8ByteSize_append]
    omega

lemma locate_walk {p : Path} (hfits : p.Fits) : t.locate p = p.pieces.foldlM t.step [] :=
  if_neg (not_lt.mpr hfits.text_le)

/-- A path leads to its place through directories. -/
lemma locate_directories (hfits : Path.Fits ⟨ps ++ [piece]⟩)
    (hways : ∀ q, Path.Passes ⟨ps⟩ q → t.node? q = some .directory) :
    t.locate ⟨ps ++ [piece]⟩ = .ok (Path.place ⟨ps ++ [piece]⟩) := by
  rw [locate_walk hfits]
  have hfree : ∀ q, Path.Passes ⟨ps⟩ q → ∀ text, t.node? q ≠ some (.file text) := by
    intro q hq text
    rw [hways q hq]
    nofun
  rcases walk_cases hfree hfits.pieces_le with h | ⟨⟨q, hq, hnone⟩, -⟩
  · exact h.2
  · rw [hways q hq] at hnone
    cases hnone

/-- A path that leads somewhere leads there through directories. -/
lemma foldlM_step_ok (h : (ps ++ [piece]).foldlM t.step [] = .ok q) :
    (∀ q, Path.Passes ⟨ps⟩ q → t.node? q = some .directory) ∧
      Path.place ⟨ps ++ [piece]⟩ = q := by
  induction ps using List.reverseRecOn generalizing piece q with
  | nil =>
    refine ⟨?_, ?_⟩
    · rintro _ ⟨front, hfront, rfl⟩
      rw [List.prefix_nil.mp hfront]
      rfl
    · exact (step_ok ((bind_pure (t.step [] piece)).symm.trans h)).2
  | append_singleton ps last ih =>
    rw [List.foldlM_append] at h
    cases hwalk : (ps ++ [last]).foldlM t.step [] with
    | error e =>
      rw [hwalk] at h
      cases h
    | ok place =>
      rw [hwalk] at h
      obtain ⟨hways, rfl⟩ := ih hwalk
      have hstep : t.step (Path.place ⟨ps ++ [last]⟩) piece = .ok q :=
        (bind_pure (t.step (Path.place ⟨ps ++ [last]⟩) piece)).symm.trans h
      obtain ⟨hnode, hq⟩ := step_ok hstep
      refine ⟨fun q hq => ?_, place_concat.trans hq⟩
      rcases passes_concat.mp hq with hq | rfl
      · exact hways q hq
      · exact hnode

lemma locate_ok (h : t.locate ⟨ps ++ [piece]⟩ = .ok q) :
    (∀ q, Path.Passes ⟨ps⟩ q → t.node? q = some .directory) ∧
      Path.place ⟨ps ++ [piece]⟩ = q := by
  unfold FileTree.locate at h
  split at h
  · cases h
  · exact foldlM_step_ok h

lemma write_located {p : Path} {text : String} (h : t.locate p = .ok q) :
    t.write p text = match t.node? q with
      | some .directory => .error .isDirectory
      | _ => .ok (t.put q (.file text)) := by
  unfold FileTree.write
  rw [h]
  rfl

end Ways

section Making

variable {t t' : FileTree} {ps : List String} {piece : String} {q : List String}

/-- All that making the directories along a path does to a tree. -/
structure Made (p : Path) (t t' : FileTree) : Prop where
  passed : ∀ q, p.Passes q → t'.node? q = some .directory
  kept : ∀ q, ¬p.Passes q → t'.node? q = t.node? q

lemma trimmed_concat (h : piece ≠ "") : Path.trimmed ⟨ps ++ [piece]⟩ = ⟨ps ++ [piece]⟩ := by
  unfold Path.trimmed
  simp [h]

lemma makeDirectory_eq {place : List String} (h : piece ≠ "")
    (hlocate : t.locate ⟨ps ++ [piece]⟩ = .ok place) :
    t.makeDirectory ⟨ps ++ [piece]⟩ = match t.node? place with
      | some _ => .error .alreadyExists
      | none => .ok (t.put place .directory) := by
  unfold FileTree.makeDirectory
  rw [trimmed_concat h, hlocate]
  rfl

/-- A directory is made where nothing is, or it is there already. -/
lemma ensureDirectory_made (h : piece ≠ "") (hfits : Path.Fits ⟨ps ++ [piece]⟩)
    (hmade : Made ⟨ps⟩ t t')
    (hfree : ∀ text, t'.node? (Path.place ⟨ps ++ [piece]⟩) ≠ some (.file text)) :
    ∃ t'', t'.ensureDirectory ⟨ps ++ [piece]⟩ = .ok t'' ∧ Made ⟨ps ++ [piece]⟩ t t'' := by
  have hlocate := locate_directories hfits hmade.passed
  have hmake := makeDirectory_eq h hlocate
  have hfind : t'.find? ⟨ps ++ [piece]⟩ = t'.node? (Path.place ⟨ps ++ [piece]⟩) := by
    unfold FileTree.find?
    rw [hlocate]
  unfold FileTree.ensureDirectory
  rw [hmake, hfind]
  cases hnode : t'.node? (Path.place ⟨ps ++ [piece]⟩) with
  | none =>
    have hput := node?_put t' .directory (not_above (hnode.trans_ne nofun))
    refine ⟨_, rfl, fun q hq => ?_, fun q hq => ?_⟩
    · rw [hput]
      rcases passes_concat.mp hq with hq | rfl
      · rw [hmade.passed q hq, ite_self]
      · rw [if_pos rfl]
    · rw [passes_concat, not_or] at hq
      rw [hput, if_neg hq.2, hmade.kept q hq.1]
  | some node =>
    cases node with
    | file text => exact absurd hnode (hfree text)
    | directory =>
      refine ⟨t', rfl, fun q hq => ?_, fun q hq => ?_⟩
      · rcases passes_concat.mp hq with hq | rfl
        · exact hmade.passed q hq
        · exact hnode
      · rw [passes_concat, not_or] at hq
        exact hmade.kept q hq.1

lemma made_refl (hways : ∀ q, Path.Passes ⟨ps⟩ q → t.node? q = some .directory) :
    Made ⟨ps⟩ t t :=
  ⟨hways, fun _ _ => rfl⟩

lemma place_standing (h : piece = "" ∨ piece = ".") :
    Path.place ⟨ps ++ [piece]⟩ = Path.place ⟨ps⟩ := by
  rw [place_concat]
  exact if_pos h

/-- A directory is made when it is there in the end, also where those above it are made first. -/
lemma makeDirectories_cons {p : Path} {above : List Path} {t₁ : FileTree}
    (hstart : t.makeDirectory p = .error .missing ∧
      FileTree.makeDirectories above t = (.ok (), t₁) ∨
      t.makeDirectory p ≠ .error .missing ∧ t₁ = t)
    (hensure : t₁.ensureDirectory p = .ok t') :
    FileTree.makeDirectories (p :: above) t = (.ok (), t') := by
  unfold FileTree.makeDirectories
  rcases hstart with ⟨hmissing, habove⟩ | ⟨hthere, rfl⟩
  · simp only [hmissing, habove, hensure]
  · cases hmake : t₁.makeDirectory p with
    | ok _ => simp only [hensure]
    | error e =>
      cases e with
      | missing => exact absurd hmake hthere
      | alreadyExists | notDirectory | isDirectory | nameTooLong | other => simp only [hensure]

lemma ancestors_concat (hempty : piece ≠ "") (hdot : piece ≠ ".") :
    Path.ancestors ⟨ps ++ [piece]⟩ = Path.stretches (piece :: ps.reverse) := by
  unfold Path.ancestors
  rw [List.reverse_concat, Path.stretches, if_neg (by simp [hempty, hdot])]
  simp

/-- The stretches of a path are made from the shortest on, once no file stands on its way. -/
lemma makeDirectories_made (backwards : List String) {t : FileTree}
    (hfits : Path.Fits ⟨backwards.reverse⟩)
    (hfree : ∀ q, Path.Passes ⟨backwards.reverse⟩ q → ∀ text, t.node? q ≠ some (.file text)) :
    ∃ t', FileTree.makeDirectories (Path.stretches backwards) t = (.ok (), t') ∧
      Made ⟨backwards.reverse⟩ t t' := by
  induction backwards with
  | nil =>
    refine ⟨t, rfl, made_refl ?_⟩
    rintro _ ⟨front, hfront, rfl⟩
    rw [List.prefix_nil.mp hfront]
    rfl
  | cons piece rest ih =>
    rw [List.reverse_cons] at hfits hfree ⊢
    have hearlier := ih (fits_front hfits) fun q hq => hfree q (passes_concat.mpr (Or.inl hq))
    unfold Path.stretches
    by_cases hskip : piece = "" ∨ (piece = "." ∧ rest ≠ [])
    · rw [if_pos hskip]
      obtain ⟨t', hmake, hmade⟩ := hearlier
      have hplace : Path.place ⟨rest.reverse ++ [piece]⟩ = Path.place ⟨rest.reverse⟩ :=
        place_standing (hskip.imp_right And.left)
      have hpasses (q : List String) : Path.Passes ⟨rest.reverse ++ [piece]⟩ q ↔
          Path.Passes ⟨rest.reverse⟩ q := by
        rw [passes_concat, hplace, or_iff_left_iff_imp]
        rintro rfl
        exact passes_self
      refine ⟨t', hmake, fun q hq => hmade.passed q ((hpasses q).mp hq), fun q hq => ?_⟩
      exact hmade.kept q (mt (hpasses q).mpr hq)
    · rw [if_neg hskip, List.reverse_cons]
      have hpiece : piece ≠ "" := fun h => hskip (Or.inl h)
      have hstart : ∃ t₁, (t.makeDirectory ⟨rest.reverse ++ [piece]⟩ = .error .missing ∧
          FileTree.makeDirectories (Path.stretches rest) t = (.ok (), t₁) ∨
          t.makeDirectory ⟨rest.reverse ++ [piece]⟩ ≠ .error .missing ∧ t₁ = t) ∧
          Made ⟨rest.reverse⟩ t t₁ := by
        rcases walk_cases (fun q hq => hfree q (passes_concat.mpr (Or.inl hq)))
          hfits.pieces_le with ⟨hways, hwalk⟩ | ⟨-, hwalk⟩
        · have hlocate := (locate_walk hfits).trans hwalk
          refine ⟨t, Or.inr ⟨?_, rfl⟩, made_refl hways⟩
          rw [makeDirectory_eq hpiece hlocate]
          cases t.node? (Path.place ⟨rest.reverse ++ [piece]⟩) <;> nofun
        · have hmissing : t.makeDirectory ⟨rest.reverse ++ [piece]⟩ = .error .missing := by
            unfold FileTree.makeDirectory
            rw [trimmed_concat hpiece, locate_walk hfits, hwalk]
            rfl
          obtain ⟨t₁, hmake, hmade⟩ := hearlier
          exact ⟨t₁, Or.inl ⟨hmissing, hmake⟩, hmade⟩
      obtain ⟨t₁, hstart, hmade⟩ := hstart
      have hnode : ∀ text, t₁.node? (Path.place ⟨rest.reverse ++ [piece]⟩) ≠ some (.file text) := by
        intro text hfile
        by_cases hpassed : Path.Passes ⟨rest.reverse⟩ (Path.place ⟨rest.reverse ++ [piece]⟩)
        · rw [hmade.passed _ hpassed] at hfile
          cases hfile
        · rw [hmade.kept _ hpassed] at hfile
          exact hfree _ passes_self text hfile
      obtain ⟨t', hensure, hmade'⟩ := ensureDirectory_made hpiece hfits hmade hnode
      exact ⟨t', makeDirectories_cons hstart hensure, hmade'⟩

/-- A path to a directory is made, with all that is missing above it. -/
lemma makeDirectories_concat (hempty : piece ≠ "") (hdot : piece ≠ ".")
    (hfits : Path.Fits ⟨ps ++ [piece]⟩)
    (hfree : ∀ q, Path.Passes ⟨ps ++ [piece]⟩ q → ∀ text, t.node? q ≠ some (.file text)) :
    ∃ t', FileStep.apply t (.makeDirectories ⟨ps ++ [piece]⟩) = (.ok (), t') ∧
      Made ⟨ps ++ [piece]⟩ t t' := by
  have hbackwards : (piece :: ps.reverse).reverse = ps ++ [piece] := by simp
  have hmade := makeDirectories_made (piece :: ps.reverse) (t := t)
  rw [hbackwards] at hmade
  obtain ⟨t', hmake, hmade⟩ := hmade hfits hfree
  refine ⟨t', ?_, hmade⟩
  rw [← hmake]
  exact congrArg (FileTree.makeDirectories · t) (ancestors_concat hempty hdot)

/-- No directory is made where a file stands. -/
lemma makeDirectories_file (hempty : piece ≠ "") (hdot : piece ≠ ".")
    (hlocate : t.locate ⟨ps ++ [piece]⟩ = .ok (Path.place ⟨ps ++ [piece]⟩)) {text : String}
    (hfile : t.node? (Path.place ⟨ps ++ [piece]⟩) = some (.file text)) :
    FileStep.apply t (.makeDirectories ⟨ps ++ [piece]⟩) = (.error .alreadyExists, t) := by
  have hmake := makeDirectory_eq hempty hlocate
  rw [hfile] at hmake
  have hfind : t.find? ⟨ps ++ [piece]⟩ = some (.file text) := by
    unfold FileTree.find?
    rw [hlocate]
    exact hfile
  have hensure : t.ensureDirectory ⟨ps ++ [piece]⟩ = .error .alreadyExists := by
    unfold FileTree.ensureDirectory
    rw [hmake, hfind]
  have hstretches : Path.stretches (piece :: ps.reverse) =
      ⟨ps ++ [piece]⟩ :: Path.stretches ps.reverse := by
    rw [Path.stretches, if_neg (by simp [hempty, hdot])]
    simp
  refine (congrArg (FileTree.makeDirectories · t) (ancestors_concat hempty hdot)).trans ?_
  rw [hstretches]
  unfold FileTree.makeDirectories
  simp only [hmake, hensure]

end Making

end Stagecraft.Proofs
