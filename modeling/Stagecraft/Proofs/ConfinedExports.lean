import Mathlib.Data.List.DropRight
import Stagecraft.Proofs.ExportedFolders
import Stagecraft.Proofs.Outcomes

/-!
# Confined exports

Whatever a movie and its entities are called, each of them has a folder whose name is one plain
name, so that an export has nothing to do with a place outside the folder of its movie. All it may
do there is make the directories that lead to that folder.
-/

namespace Stagecraft.Proofs

section Names

variable {cs : List Char} {name : String}

/-- An ASCII letter or digit, a hyphen, an underscore, a dot or a blank. -/
def SafeChar (c : Char) : Prop :=
  'a' ≤ c ∧ c ≤ 'z' ∨ 'A' ≤ c ∧ c ≤ 'Z' ∨ '0' ≤ c ∧ c ≤ '9' ∨ c = '-' ∨ c = '_' ∨ c = '.' ∨ c = ' '

/-- A name that is a path of a single piece, made of safe characters with blanks only inside. -/
structure SafeName (name : String) : Prop extends Plain name where
  single : Path.ofText name = ⟨[name]⟩
  chars : ∀ c ∈ name.toList, SafeChar c
  head : name.toList.head? ≠ some ' '
  last : name.toList.getLast? ≠ some ' '

lemma isFolderChar_iff (c : Char) : isFolderChar c = true ↔ SafeChar c := by
  have hupper : c.isUpper = decide ('A'.val ≤ c.val ∧ c.val ≤ 'Z'.val) := rfl
  have hlower : c.isLower = (decide ('a'.val ≤ c.val) && decide (c.val ≤ 'z'.val)) := rfl
  have hletter : c.isAlpha = (c.isUpper || c.isLower) := rfl
  unfold isFolderChar SafeChar
  simp only [Char.isAlphanum, hletter, hupper, hlower, Char.isDigit, Bool.or_eq_true,
    Bool.and_eq_true, decide_eq_true_eq, Char.le_def]
  tauto

lemma trimBlanks_subset : ∀ c ∈ trimBlanks cs, c ∈ cs := fun _ hc =>
  (List.dropWhile_suffix _).subset ((List.rdropWhile_prefix _ _).subset hc)

lemma trimBlanks_last : (trimBlanks cs).getLast? ≠ some ' ' := by
  intro hlast
  obtain ⟨hne, hblank⟩ := List.mem_getLast?_eq_getLast hlast
  exact List.rdropWhile_last_not (· = ' ') (cs.dropWhile (· = ' ')) hne
    (decide_eq_true hblank.symm)

lemma trimBlanks_head : (trimBlanks cs).head? ≠ some ' ' := by
  intro hhead
  obtain ⟨rest, hrest⟩ := List.rdropWhile_prefix (· = ' ') (cs.dropWhile (· = ' '))
  have hstart : (cs.dropWhile (· = ' ')).head? = some ' ' := by
    rw [← hrest, List.head?_append]
    exact congrArg (Option.or · rest.head?) hhead
  have hnot := List.head?_dropWhile_not (· = ' ') cs
  rw [hstart] at hnot
  cases hnot

lemma trimBlanks_self (hhead : cs.head? ≠ some ' ') (hlast : cs.getLast? ≠ some ' ') :
    trimBlanks cs = cs := by
  have hdrop : cs.dropWhile (· = ' ') = cs := by
    cases cs with
    | nil => rfl
    | cons c cs => exact List.dropWhile_cons_of_neg (by simpa using hhead)
  refine (congrArg (List.rdropWhile (· = ' ')) hdrop).trans (List.rdropWhile_eq_self_iff.mpr ?_)
  intro hne hblank
  exact hlast (by rw [List.getLast?_eq_some_getLast hne, of_decide_eq_true hblank])

lemma cutAtSlashes_self (h : '/' ∉ cs) : Path.cutAtSlashes cs = [cs] := by
  induction cs with
  | nil => rfl
  | cons c cs ih =>
    obtain ⟨hc, hcs⟩ := List.ne_and_not_mem_of_not_mem_cons h
    rw [Path.cutAtSlashes, if_neg hc.symm, ih hcs]

lemma SafeName.of_chars (hplain : Plain name) (hchars : ∀ c ∈ name.toList, SafeChar c)
    (hhead : name.toList.head? ≠ some ' ') (hlast : name.toList.getLast? ≠ some ' ') :
    SafeName name := by
  refine ⟨hplain, ?_, hchars, hhead, hlast⟩
  have hslash : '/' ∉ name.toList := by
    intro hmem
    have hsafe := hchars _ hmem
    revert hsafe
    unfold SafeChar
    decide
  unfold Path.ofText
  rw [cutAtSlashes_self hslash]
  simp

lemma safe_folderName (name : String) : SafeName (folderName name) := by
  have hplain := plain_folderName name
  revert hplain
  unfold folderName
  dsimp only
  split
  next =>
    intro hplain
    refine SafeName.of_chars hplain ?_ (by decide) (by decide)
    intro c hc
    obtain rfl : c = '_' := List.mem_singleton.mp hc
    unfold SafeChar
    decide
  next =>
    intro hplain
    refine SafeName.of_chars hplain ?_ ?_ ?_
    · intro c hc
      rw [String.toList_ofList] at hc
      obtain ⟨d, -, rfl⟩ := List.mem_map.mp (trimBlanks_subset c hc)
      rw [← isFolderChar_iff]
      split
      next hd => exact hd
      next => decide
    · rw [String.toList_ofList]
      exact trimBlanks_head
    · rw [String.toList_ofList]
      exact trimBlanks_last

/-- A safe name is that of its own folder. -/
lemma SafeName.folderName_eq (h : SafeName name) : folderName name = name := by
  have hmap : (name.toList.map fun c => if isFolderChar c then c else '_') = name.toList := by
    refine (List.map_congr_left fun c hc => ?_).trans (List.map_id _)
    exact if_pos ((isFolderChar_iff c).mpr (h.chars c hc))
  unfold folderName
  rw [hmap, trimBlanks_self h.head h.last]
  dsimp only
  rw [if_neg, String.ofList_toList]
  rintro (hnil | hdot | hdots)
  · exact h.ne_empty (String.toList_inj.mp hnil)
  · exact h.ne_dot (String.toList_inj.mp hdot)
  · exact h.ne_dots (String.toList_inj.mp hdots)

end Names

section Ways

variable {p p' : Path} {q : List String} {name : String}

/-- A path that goes on from another one by names that lead into folders. -/
def Below (p p' : Path) : Prop :=
  ∃ names, (∀ name ∈ names, Plain name) ∧ p'.pieces = p.pieces ++ names

lemma below_self : Below p p :=
  ⟨[], nofun, (List.append_nil _).symm⟩

lemma below_child (hp : Ended p) (h : Plain name) : Below p (p.child name) := by
  rw [child_eq hp]
  exact ⟨[name], by simpa using h, rfl⟩

lemma Below.trans {p'' : Path} (h : Below p p') (h' : Below p' p'') : Below p p'' := by
  obtain ⟨names, hnames, hp'⟩ := h
  obtain ⟨names', hnames', hp''⟩ := h'
  refine ⟨names ++ names', ?_, by rw [hp'', hp', List.append_assoc]⟩
  exact fun name hname => (List.mem_append.mp hname).elim (hnames name) (hnames' name)

lemma foldl_follow_plain {names : List String} (h : ∀ name ∈ names, Plain name) :
    names.foldl Path.follow q = q ++ names := by
  induction names generalizing q with
  | nil => exact (List.append_nil q).symm
  | cons name names ih =>
    obtain ⟨hname, hnames⟩ := List.forall_mem_cons.mp h
    rw [List.foldl_cons, hname.follow_eq, ih hnames, List.append_assoc, List.singleton_append]

lemma Below.place_below (h : Below p p') : p.place <+: p'.place := by
  obtain ⟨names, hnames, hp'⟩ := h
  unfold Path.place
  rw [hp', List.foldl_append, foldl_follow_plain hnames]
  exact List.prefix_append _ _

/-- On the way to a path below another one lie the places on the way to that one, and places
below its own. -/
lemma Below.passes (h : Below p p') (hq : p'.Passes q) : p.Passes q ∨ p.place <+: q := by
  obtain ⟨names, hnames, hp'⟩ := h
  obtain ⟨front, hfront, rfl⟩ := hq
  rw [hp'] at hfront
  rcases List.prefix_or_prefix_of_prefix hfront (List.prefix_append _ _) with hshort | ⟨rest, rfl⟩
  · exact Or.inl ⟨front, hshort, rfl⟩
  · have hrest := (List.prefix_append_right_inj _).mp hfront
    have hbelow : Below p ⟨p.pieces ++ rest⟩ :=
      ⟨rest, fun name hname => hnames name (hrest.subset hname), rfl⟩
    exact Or.inr hbelow.place_below

lemma locate_eq_place {t : FileTree} (h : t.locate p = .ok q) : q = p.place := by
  obtain ⟨pieces⟩ := p
  induction pieces using List.reverseRecOn with
  | nil =>
    unfold FileTree.locate at h
    split at h
    · cases h
    · exact (Except.ok.inj h).symm
  | append_singleton ps piece _ => exact (locate_ok h).2.symm

lemma stretches_passes {backwards : List String} (h : p ∈ Path.stretches backwards) :
    p.pieces <+: backwards.reverse := by
  induction backwards with
  | nil => cases h
  | cons piece rest ih =>
    rw [List.reverse_cons]
    have hrest (hmem : p ∈ Path.stretches rest) : p.pieces <+: rest.reverse ++ [piece] :=
      (ih hmem).trans (List.prefix_append _ _)
    unfold Path.stretches at h
    split at h
    · exact hrest h
    · rcases List.mem_cons.mp h with rfl | h
      · rw [List.reverse_cons]
      · exact hrest h

lemma trimmed_pieces (p : Path) : p.trimmed.pieces <+: p.pieces :=
  List.rdropWhile_prefix _ _

/-- The directories that are made along a path all lie on its way. -/
lemma ancestors_passes (h : p' ∈ p.ancestors) : p.Passes p'.trimmed.place := by
  have hpieces : p'.pieces <+: p.pieces := by
    rcases List.mem_cons.mp h with rfl | h
    · exact List.prefix_rfl
    · have hprefix := stretches_passes (List.mem_of_mem_tail h)
      rwa [List.reverse_reverse] at hprefix
  exact ⟨_, (trimmed_pieces p').trans hpieces, rfl⟩

end Ways

section Trees

variable {p : Path} {t t' t'' : FileTree} {place : List String} {node : FileNode}

/-- Beside the place of a path a tree is as it was, but that directories were made where nothing
was on the way there. -/
def Spared (p : Path) (t t' : FileTree) : Prop :=
  ∀ q, ¬p.place <+: q → t'.node? q = t.node? q ∨
    t.node? q = none ∧ p.Passes q ∧ t'.node? q = some .directory

lemma spared_refl : Spared p t t :=
  fun _ _ => Or.inl rfl

lemma Spared.trans (h : Spared p t t') (h' : Spared p t' t'') : Spared p t t'' := by
  intro q hq
  rcases h q hq with hkept | ⟨hnone, hpassed, hmade⟩
  · rw [← hkept]
    exact h' q hq
  · rcases h' q hq with hkept | ⟨hnone', -, -⟩
    · exact Or.inr ⟨hnone, hpassed, hkept.trans hmade⟩
    · rw [hmade] at hnone'
      cases hnone'

lemma below_not_above (hp : Ended p) (h : p.place <+: place) :
    place.all (· = "..") = false := by
  obtain ⟨ps, piece, rfl, hpiece⟩ := hp
  rw [place_concat, hpiece.follow_eq] at h
  have hmem : piece ∈ place := h.subset (by simp)
  rw [List.all_eq_false]
  exact ⟨piece, hmem, by simpa using hpiece.ne_dots⟩

lemma spared_put (hp : Ended p) (h : p.place <+: place) : Spared p t (t.put place node) := by
  intro q hq
  rw [node?_put t node (below_not_above hp h), if_neg]
  · exact Or.inl rfl
  · rintro rfl
    exact hq h

lemma spared_clear (hp : Ended p) (h : p.place <+: place) : Spared p t (t.clear place) := by
  intro q hq
  rw [node?_clear (below_not_above hp h), if_neg fun hbelow => hq (h.trans hbelow)]
  exact Or.inl rfl

/-- A directory is made only where nothing is. -/
lemma makeDirectory_ok {p' : Path} (h : t.makeDirectory p' = .ok t') :
    t.node? p'.trimmed.place = none ∧ t' = t.put p'.trimmed.place .directory := by
  obtain ⟨place, hlocate, h⟩ := bind_eq_ok.mp h
  obtain rfl := locate_eq_place hlocate
  cases hnode : t.node? p'.trimmed.place with
  | some node =>
    rw [hnode] at h
    cases h
  | none =>
    rw [hnode] at h
    cases h
    exact ⟨rfl, rfl⟩

lemma spared_makeDirectory {p' : Path} (hpassed : p.Passes p'.trimmed.place ∨
    p.place <+: p'.trimmed.place) (h : t.makeDirectory p' = .ok t') : Spared p t t' := by
  obtain ⟨hnode, rfl⟩ := makeDirectory_ok h
  intro q hq
  rw [node?_put t .directory (not_above (hnode.trans_ne nofun))]
  split
  next heq =>
    subst heq
    exact Or.inr ⟨hnode, hpassed.resolve_right hq, rfl⟩
  next => exact Or.inl rfl

lemma ensureDirectory_ok {p' : Path} (h : t.ensureDirectory p' = .ok t') :
    t' = t ∨ t.makeDirectory p' = .ok t' := by
  unfold FileTree.ensureDirectory at h
  split at h
  · exact Or.inl (Except.ok.inj h).symm
  · exact Or.inr h

/-- A directory is made, if at all, in the tree as it is or as it is with those above it. -/
lemma makeDirectories_cases (p' : Path) (above : List Path) (t : FileTree) {t' : FileTree}
    (h : (FileTree.makeDirectories (p' :: above) t).2 = t') :
    ∃ t₁, (t₁ = t ∨ t₁ = (FileTree.makeDirectories above t).2) ∧
      (t' = t₁ ∨ t₁.ensureDirectory p' = .ok t') := by
  unfold FileTree.makeDirectories at h
  split at h
  next outcome t₁ hstart =>
    refine ⟨t₁, ?_, ?_⟩
    · split at hstart
      · rw [hstart]
        exact Or.inr rfl
      · exact Or.inl (Prod.mk.inj hstart).2.symm
    · split at h
      next hensure =>
        subst h
        exact Or.inr hensure
      · exact Or.inl h.symm
      · exact Or.inl h.symm

lemma spared_makeDirectories {paths : List Path} (h : ∀ p' ∈ paths,
    p.Passes p'.trimmed.place ∨ p.place <+: p'.trimmed.place) (t : FileTree) :
    Spared p t (FileTree.makeDirectories paths t).2 := by
  induction paths generalizing t with
  | nil => exact spared_refl
  | cons p' above ih =>
    obtain ⟨hpassed, habove⟩ := List.forall_mem_cons.mp h
    obtain ⟨t₁, hstart, hend⟩ := makeDirectories_cases p' above t rfl
    have hspared : Spared p t t₁ := by
      rcases hstart with rfl | rfl
      · exact spared_refl
      · exact ih habove t
    rcases hend with heq | hensure
    · rwa [heq]
    · rcases ensureDirectory_ok hensure with heq | hmake
      · rwa [heq]
      · exact hspared.trans (spared_makeDirectory hpassed hmake)

lemma spared_write (hp : Ended p) {p' : Path} {text : String} (hbelow : Below p p')
    (h : t.write p' text = .ok t') : Spared p t t' := by
  cases hlocate : t.locate p' with
  | error e =>
    unfold FileTree.write at h
    rw [hlocate] at h
    cases h
  | ok place =>
    rw [write_located hlocate] at h
    obtain rfl := locate_eq_place hlocate
    split at h
    · cases h
    · cases h
      exact spared_put hp hbelow.place_below

/-- A step at a path below a folder spares what is beside the folder. -/
lemma spared_step (hp : Ended p) {s : FileStep} (h : Below p s.path) (t : FileTree) :
    Spared p t (s.apply t).2 := by
  cases s with
  | clear p' =>
    rw [FileStep.apply]
    cases hlocate : t.locate p' with
    | error e => exact spared_refl
    | ok place =>
      obtain rfl := locate_eq_place hlocate
      exact spared_clear hp h.place_below
  | makeDirectories p' =>
    exact spared_makeDirectories (fun _ hmem => h.passes (ancestors_passes hmem)) t
  | write p' text =>
    rw [FileStep.apply]
    cases hwrite : t.write p' text with
    | error e => exact spared_refl
    | ok t' => exact spared_write hp h hwrite

lemma spared_change (hp : Ended p) {steps : List FileStep} (h : ∀ s ∈ steps, Below p s.path)
    (t : FileTree) : Spared p t (change steps t).2 := by
  induction steps generalizing t with
  | nil => exact spared_refl
  | cons s rest ih =>
    obtain ⟨hs, hrest⟩ := List.forall_mem_cons.mp h
    have hstep := spared_step hp hs t
    rw [change_cons]
    cases happly : s.apply t with
    | mk outcome t₁ =>
      rw [happly] at hstep
      cases outcome with
      | error e => exact hstep
      | ok _ => exact hstep.trans (ih hrest t₁)

end Trees

section Asking

variable {α β : Type}

/-- How a file store answers that knows what changes it was asked for before. -/
structure Answers where
  kind? : List FileStep → Path → Option FileKind
  read : List FileStep → Path → Except FileError String
  perform : List FileStep → FileStep → Except FileError Unit

/-- Computations on a store of such answers, which note the changes they ask for. -/
structure Noting (a : Answers) (α : Type) where
  run : List FileStep → α × List FileStep

instance (a : Answers) : Monad (Noting a) where
  pure x := ⟨fun asked => (x, asked)⟩
  bind c f := ⟨fun asked => (f (c.run asked).1).run (c.run asked).2⟩

instance (a : Answers) : MonadFiles (Noting a) where
  kind? p := ⟨fun asked => (a.kind? asked p, asked)⟩
  read p := ⟨fun asked => (a.read asked p, asked)⟩
  perform s := ⟨fun asked => (a.perform asked s, asked ++ [s])⟩

/-- The changes that a computation asks for. -/
def Noting.asked {a : Answers} (c : Noting a α) : List FileStep :=
  (c.run []).2

lemma bind_run {a : Answers} (c : Noting a α) (f : α → Noting a β) (asked : List FileStep) :
    (c >>= f).run asked = (f (c.run asked).1).run (c.run asked).2 :=
  rfl

lemma perform_run {a : Answers} (s : FileStep) (asked : List FileStep) :
    (MonadFiles.perform s : Noting a (Except FileError Unit)).run asked =
      (a.perform asked s, asked ++ [s]) :=
  rfl

/-- Changes are asked for in their order, and none after the first that fails. -/
lemma performAll_asked (a : Answers) (steps asked : List FileStep) :
    ∃ front, front <+: steps ∧
      ((performAll steps : Noting a (Except FileError Unit)).run asked).2 = asked ++ front := by
  induction steps generalizing asked with
  | nil => exact ⟨[], List.prefix_rfl, (List.append_nil asked).symm⟩
  | cons s rest ih =>
    rw [performAll, bind_run, perform_run]
    dsimp only
    cases a.perform asked s with
    | error e => exact ⟨[s], ⟨rest, rfl⟩, rfl⟩
    | ok _ =>
      obtain ⟨front, hfront, hasked⟩ := ih (asked ++ [s])
      exact ⟨s :: front, List.cons_prefix_cons.mpr ⟨rfl, hfront⟩,
        hasked.trans (List.append_assoc ..)⟩

end Asking

section Exports

variable {K : Type} [Numeral K] {r : Reel K} {style : Json.Style} {root p : Path} {t : FileTree}

lemma place_movieFolder (root : Path) (name : String) :
    (movieFolder root name).place = root.place ++ [folderName name] := by
  have hfollow := (plain_folderName name).follow_eq (q := root.place)
  rw [← hfollow]
  unfold movieFolder Path.child Path.place
  rw [List.foldl_append]
  split
  next hlast =>
    obtain ⟨ps, hps⟩ := List.getLast?_eq_some_iff.mp hlast
    rw [hps, List.dropLast_concat, List.foldl_append]
    rfl
  next => rfl

lemma writeSteps_below (hp : Ended p) {files : List (String × Json K)}
    (h : ∀ f ∈ files, Plain f.1) : ∀ s ∈ writeSteps style p files, Below p s.path := by
  intro s hs
  obtain ⟨f, hf, rfl⟩ := List.mem_map.mp hs
  exact below_child hp (h f hf)

variable [Scalar K]

/-- Every step of an export is taken at the folder of the movie or below it. -/
lemma exportSteps_below (hp : Ended p) : ∀ s ∈ r.exportSteps style p, Below p s.path := by
  unfold Reel.exportSteps
  simp only [List.forall_mem_append, List.forall_mem_cons]
  refine ⟨⟨⟨below_self, below_self, nofun⟩, writeSteps_below hp listed_topFiles.plain⟩, ?_⟩
  intro s hs
  obtain ⟨e, he, hs⟩ := List.mem_flatMap.mp hs
  have hfolder := below_child hp (plain_folderName e.name)
  rcases List.mem_cons.mp hs with rfl | hs
  · exact hfolder
  · exact hfolder.trans (writeSteps_below (ended_child p (plain_folderName e.name))
      (listed_entityFiles he).plain s hs)

/-- Whatever the store answers, an export asks for steps of its layout alone. -/
lemma exportTo_asked (a : Answers) :
    (r.exportTo style root : Noting a (Except ExportError (ExportReport K))).asked <+:
      r.exportSteps style (movieFolder root r.name) := by
  unfold Reel.exportTo Noting.asked
  cases folderClash? [] r.entityNames with
  | some c => exact List.nil_prefix
  | none =>
    obtain ⟨front, hfront, hasked⟩ :=
      performAll_asked a (r.exportSteps style (movieFolder root r.name)) []
    rw [List.nil_append] at hasked
    dsimp only
    rw [bind_run]
    split
    · exact List.nil_prefix
    · rw [bind_run]
      split <;> exact hasked ▸ hfront

/-- An export leaves the tree alone or makes the changes of its layout. -/
lemma exportOn_tree (r : Reel K) (style : Json.Style) (root : Path) (t : FileTree) :
    (exportOn r style root t).2 = t ∨
    (exportOn r style root t).2 = (change (r.exportSteps style (movieFolder root r.name)) t).2 := by
  cases hfolders : folderClash? [] r.entityNames with
  | some c =>
    rw [exportOn_clash hfolders]
    exact Or.inl rfl
  | none =>
    by_cases hfile : ∀ text, t.find? (movieFolder root r.name) ≠ some (.file text)
    · right
      rw [exportOn_change hfolders hfile]
      cases change (r.exportSteps style (movieFolder root r.name)) t with
      | mk outcome t' => cases outcome <;> rfl
    · left
      push Not at hfile
      obtain ⟨text, hfile⟩ := hfile
      unfold exportOn Reel.exportTo
      rw [hfolders]
      simp only [StateT.run, bind, StateT.bind, MonadFiles.kind?, hfile]
      rfl

/-- An export keeps to the folder of its movie. -/
theorem export_stays_inside (r : Reel K) (style : Json.Style) (root : Path) (t : FileTree) :
    (∀ name, SafeName (folderName name) ∧ folderName (folderName name) = folderName name) ∧
    (movieFolder root r.name).place = root.place ++ [folderName r.name] ∧
    (∀ a : Answers,
      ∀ s ∈ (r.exportTo style root : Noting a (Except ExportError (ExportReport K))).asked,
        Below (movieFolder root r.name) s.path) ∧
    Spared (movieFolder root r.name) t (exportOn r style root t).2 := by
  have hended := ended_movieFolder root r.name
  refine ⟨fun name => ⟨safe_folderName name, (safe_folderName name).folderName_eq⟩,
    place_movieFolder root r.name, ?_, ?_⟩
  · intro a s hs
    exact exportSteps_below hended s ((exportTo_asked a).subset hs)
  · rcases exportOn_tree r style root t with heq | heq
    · rw [heq]
      exact spared_refl
    · rw [heq]
      exact spared_change hended (exportSteps_below hended) t

end Exports

section Stray

/-- A movie and a light whose names would lead elsewhere. -/
def stray : Movie Float :=
  { Movie.empty " .. " 5 with lights := [Light.named "../../etc/passwd" .point] }

def strayReel : Reel Float :=
  ⟨" .. ", ⟨5⟩, 0, [], [], [Light.named "../../etc/passwd" .point], [], []⟩

lemma stray_plan : stray.plan Settings.standard.options = .ok strayReel := by
  have hissues : stray.issues = [] := by decide +kernel
  have hevents : ([] : List (ReelEvent Float)).mergeSort (fun a b => a.frame ≤ b.frame) = [] :=
    List.mergeSort_nil
  unfold strayReel Movie.plan
  rw [← hevents, hissues]
  rfl

/-- A tree with an export of old and a file beside it. -/
def yard : FileTree :=
  ⟨[(["etc"], .directory), (["etc", "_"], .directory), (["etc", "_", "old.json"], .file "[]"),
    (["etc", "passwd"], .file "secret")]⟩

/-- The export succeeds and leaves the file alone that the light is called after. -/
theorem stray_stays_inside :
    stray.plan Settings.standard.options = .ok strayReel ∧ folderName " .. " = "_" ∧
      folderName "../../etc/passwd" = ".._.._etc_passwd" ∧
      ∃ report t', exportOn strayReel .indented ⟨["etc"]⟩ yard = (.ok report, t') ∧
        t'.node? ["etc", "passwd"] = some (.file "secret") := by
  have hfolders : folderClash? [] strayReel.entityNames = none := by decide +kernel
  have hadmits : yard.Admits (movieFolder ⟨["etc"]⟩ strayReel.name) :=
    Or.inl (by decide +kernel)
  have hfits : ∀ p ∈ strayReel.exportedFiles (movieFolder ⟨["etc"]⟩ strayReel.name), p.Fits := by
    decide +kernel
  obtain ⟨report, t', hrun⟩ := (exportOn_ok_iff .indented hfolders hadmits hfits).mpr
    (by decide +kernel)
  refine ⟨stray_plan, by decide +kernel, by decide +kernel, report, t', hrun, ?_⟩
  obtain ⟨-, -, -, hspared⟩ := export_stays_inside strayReel .indented ⟨["etc"]⟩ yard
  rw [hrun] at hspared
  rcases hspared ["etc", "passwd"] (by decide +kernel) with hkept | ⟨hnone, -, -⟩
  · exact hkept.trans (by decide +kernel)
  · exact absurd hnone (by decide +kernel)

end Stray

end Stagecraft.Proofs
