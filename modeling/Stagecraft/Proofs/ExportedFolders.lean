import Mathlib.Data.List.Nodup
import Mathlib.Data.Set.Insert
import Stagecraft.Binary64
import Stagecraft.Export.Report
import Stagecraft.Plan.Session
import Stagecraft.Proofs.FileTrees
import Stagecraft.Settings

/-!
# Exported folders

An export empties the folder of its movie and lays the files out in it, a folder for every entity.
The folders of the entities and the two files on top share one space of names, and only the folders
are told apart beforehand: where a folder is named like one of the files, the export fails when the
old one is gone already.
-/

namespace Stagecraft

variable {K : Type}

/-- The files of an exported movie: two on top, three for an actor or a camera and one for a
light. -/
def Reel.exportedFiles (r : Reel K) (directory : Path) : List Path :=
  [directory.child "manifest.json", directory.child "timeline.json"] ++
    (r.actors.flatMap fun a =>
      ["transform.json", "animation.json", "settings.json"].map
        (directory.child (folderName a.actor.name)).child) ++
    (r.cameras.flatMap fun c =>
      ["transform.json", "camera_settings.json", "settings.json"].map
        (directory.child (folderName c.camera.name)).child) ++
    (r.lights.map fun l => (directory.child (folderName l.name)).child "settings.json")

/-- A folder can be put at a path: it stands there already, or nothing is there and no file is in
the way. -/
def FileTree.Admits (t : FileTree) (p : Path) : Prop :=
  t.find? p = some .directory ∨
    (∀ q, p.place <+: q → t.node? q = none) ∧
      ∀ q, p.Passes q → ∀ text, t.node? q ≠ some (.file text)

end Stagecraft

namespace Stagecraft.Proofs

section Names

variable {p : Path} {name : String} {q : List String}

/-- A name that leads into a folder. -/
structure Plain (name : String) : Prop where
  ne_empty : name ≠ ""
  ne_dot : name ≠ "."
  ne_dots : name ≠ ".."

instance (name : String) : Decidable (Plain name) :=
  decidable_of_iff (name ≠ "" ∧ name ≠ "." ∧ name ≠ "..")
    ⟨fun h => ⟨h.1, h.2.1, h.2.2⟩, fun h => ⟨h.ne_empty, h.ne_dot, h.ne_dots⟩⟩

lemma Plain.follow_eq (h : Plain name) : Path.follow q name = q ++ [name] := by
  unfold Path.follow
  rw [if_neg (not_or.mpr ⟨h.ne_empty, h.ne_dot⟩), if_neg h.ne_dots]

lemma plain_folderName (name : String) : Plain (folderName name) := by
  unfold folderName
  dsimp only
  split
  next => decide
  next h =>
    rw [not_or, not_or] at h
    obtain ⟨hempty, hdot, hdots⟩ := h
    refine ⟨fun heq => hempty ?_, fun heq => hdot ?_, fun heq => hdots ?_⟩
    · simpa using congrArg String.toList heq
    · simpa using congrArg String.toList heq
    · simpa using congrArg String.toList heq

/-- A path that ends in a name. -/
def Ended (p : Path) : Prop :=
  ∃ ps piece, p = ⟨ps ++ [piece]⟩ ∧ Plain piece

lemma child_eq (h : Ended p) (name : String) : p.child name = ⟨p.pieces ++ [name]⟩ := by
  obtain ⟨ps, piece, rfl, hpiece⟩ := h
  unfold Path.child
  simp [hpiece.ne_empty]

lemma ended_child (p : Path) (h : Plain name) : Ended (p.child name) :=
  ⟨_, name, rfl, h⟩

lemma place_child (hp : Ended p) (h : Plain name) : (p.child name).place = p.place ++ [name] := by
  rw [child_eq hp, place_concat, h.follow_eq]

lemma passes_child (hp : Ended p) :
    (p.child name).Passes q ↔ p.Passes q ∨ q = (p.child name).place := by
  rw [child_eq hp, passes_concat]

lemma fits_of_child (hp : Ended p) (h : (p.child name).Fits) : p.Fits := by
  rw [child_eq hp] at h
  exact fits_front h

end Names

section Layouts

variable {base t t' : FileTree} {home : List String} {D : Set (List String)}
  {F : List (List String × String)} {ps : List String} {piece text : String}

/-- A tree in which a place has been emptied and then laid out with directories and files. -/
structure Laid (base : FileTree) (home : List String) (D : Set (List String))
    (F : List (List String × String)) (t : FileTree) : Prop where
  directories : ∀ q ∈ D, t.node? q = some .directory
  files : ∀ f ∈ F, t.node? f.1 = some (.file f.2)
  emptied : ∀ q, home <+: q → q ∉ D → q ∉ F.map Prod.fst → t.node? q = none
  beside : ∀ q, ¬home <+: q → q ∉ D → t.node? q = base.node? q

namespace Laid

/-- No place is that of a directory and of a file. -/
lemma apart (h : Laid base home D F t) : ∀ q ∈ D, q ∉ F.map Prod.fst := by
  intro q hq hfile
  obtain ⟨f, hf, rfl⟩ := List.mem_map.mp hfile
  have hnode := h.files f hf
  rw [h.directories _ hq] at hnode
  cases hnode

lemma locate (h : Laid base home D F t) (hfits : Path.Fits ⟨ps ++ [piece]⟩)
    (hways : ∀ q, Path.Passes ⟨ps⟩ q → q ∈ D) :
    t.locate ⟨ps ++ [piece]⟩ = .ok (Path.place ⟨ps ++ [piece]⟩) :=
  locate_directories hfits fun q hq => h.directories q (hways q hq)

/-- Where no file was laid out there is a directory or nothing. -/
lemma not_file (h : Laid base home D F t) {q : List String} (hhome : home <+: q)
    (hnew : q ∉ F.map Prod.fst) (text : String) : t.node? q ≠ some (.file text) := by
  by_cases hD : q ∈ D
  · rw [h.directories q hD]
    nofun
  · rw [h.emptied q hhome hD hnew]
    nofun

/-- A file is written unless a directory has its place. -/
lemma write (h : Laid base home D F t) (hfits : Path.Fits ⟨ps ++ [piece]⟩)
    (hways : ∀ q, Path.Passes ⟨ps⟩ q → q ∈ D) (hhome : home <+: Path.place ⟨ps ++ [piece]⟩)
    (hnew : Path.place ⟨ps ++ [piece]⟩ ∉ F.map Prod.fst) (text : String) :
    (Path.place ⟨ps ++ [piece]⟩ ∈ D → ∃ e, t.write ⟨ps ++ [piece]⟩ text = .error e) ∧
      (Path.place ⟨ps ++ [piece]⟩ ∉ D → ∃ t', t.write ⟨ps ++ [piece]⟩ text = .ok t' ∧
        Laid base home D (F ++ [(Path.place ⟨ps ++ [piece]⟩, text)]) t') := by
  rw [write_located (h.locate hfits hways)]
  constructor
  · intro hD
    rw [h.directories _ hD]
    exact ⟨_, rfl⟩
  · intro hD
    have hnone : t.node? (Path.place ⟨ps ++ [piece]⟩) = none := h.emptied _ hhome hD hnew
    rw [hnone]
    have hput := node?_put t (.file text) (not_above (hnone.trans_ne nofun))
    refine ⟨_, rfl, ?_, ?_, ?_, ?_⟩
    · intro q hq
      rw [hput, if_neg (ne_of_mem_of_not_mem hq hD)]
      exact h.directories q hq
    · intro f hf
      rw [hput]
      rcases List.mem_append.mp hf with hf | hf
      · rw [if_neg (ne_of_mem_of_not_mem (List.mem_map_of_mem hf) hnew)]
        exact h.files f hf
      · rw [List.mem_singleton.mp hf, if_pos rfl]
    · intro q hq hqD hqF
      rw [List.map_append, List.mem_append, not_or] at hqF
      rw [hput, if_neg fun heq => hqF.2 (by simp [heq])]
      exact h.emptied q hq hqD hqF.1
    · intro q hq hqD
      rw [hput, if_neg (show q ≠ _ from by rintro rfl; exact hq hhome)]
      exact h.beside q hq hqD

/-- A directory is made unless a file has its place. -/
lemma make (h : Laid base home D F t) (hpiece : Plain piece)
    (hfits : Path.Fits ⟨ps ++ [piece]⟩) (hways : ∀ q, Path.Passes ⟨ps⟩ q → q ∈ D)
    (hhome : home <+: Path.place ⟨ps ++ [piece]⟩) :
    (Path.place ⟨ps ++ [piece]⟩ ∈ F.map Prod.fst →
      ∃ e t', FileStep.apply t (.makeDirectories ⟨ps ++ [piece]⟩) = (.error e, t')) ∧
    (Path.place ⟨ps ++ [piece]⟩ ∉ F.map Prod.fst →
      ∃ t', FileStep.apply t (.makeDirectories ⟨ps ++ [piece]⟩) = (.ok (), t') ∧
        Laid base home (insert (Path.place ⟨ps ++ [piece]⟩) D) F t') := by
  have hlocate := h.locate hfits hways
  constructor
  · intro hfile
    obtain ⟨f, hf, hplace⟩ := List.mem_map.mp hfile
    have hnode := h.files f hf
    rw [hplace] at hnode
    exact ⟨_, _, makeDirectories_file hpiece.ne_empty hpiece.ne_dot hlocate hnode⟩
  · intro hnew
    have hpasses (q : List String) (hq : Path.Passes ⟨ps ++ [piece]⟩ q) :
        q = Path.place ⟨ps ++ [piece]⟩ ∨ q ∈ D :=
      (passes_concat.mp hq).symm.imp_right (hways q)
    have hfree : ∀ q, Path.Passes ⟨ps ++ [piece]⟩ q → ∀ text, t.node? q ≠ some (.file text) := by
      intro q hq text
      rcases hpasses q hq with rfl | hq
      · exact h.not_file hhome hnew text
      · rw [h.directories q hq]
        nofun
    obtain ⟨t', hmake, hmade⟩ := makeDirectories_concat hpiece.ne_empty hpiece.ne_dot hfits hfree
    refine ⟨t', hmake, ?_, ?_, ?_, ?_⟩
    · intro q hq
      by_cases hpassed : Path.Passes ⟨ps ++ [piece]⟩ q
      · exact hmade.passed q hpassed
      · rw [hmade.kept q hpassed]
        rcases Set.mem_insert_iff.mp hq with rfl | hq
        · exact absurd passes_self hpassed
        · exact h.directories q hq
    · intro f hf
      rw [hmade.kept]
      · exact h.files f hf
      · intro hpassed
        rcases hpasses _ hpassed with heq | hD
        · exact hnew (heq ▸ List.mem_map_of_mem hf)
        · exact h.apart _ hD (List.mem_map_of_mem hf)
    · intro q hq hqD hqF
      rw [hmade.kept q fun hpassed => hqD (Set.mem_insert_iff.mpr (hpasses q hpassed))]
      exact h.emptied q hq (fun hD => hqD (Set.mem_insert_of_mem _ hD)) hqF
    · intro q hq hqD
      rw [hmade.kept q fun hpassed => hqD (Set.mem_insert_iff.mpr (hpasses q hpassed))]
      exact h.beside q hq fun hD => hqD (Set.mem_insert_of_mem _ hD)

end Laid

end Layouts

section Steps

variable {base t t' : FileTree} {home : List String} {D : Set (List String)}
  {F : List (List String × String)} {s : FileStep} {steps rest : List FileStep}

/-- Makes changes to a tree, one after another. -/
def change (steps : List FileStep) (t : FileTree) : Except FileError Unit × FileTree :=
  (performAll steps : StateM FileTree (Except FileError Unit)).run t

lemma change_cons : change (s :: rest) t = match s.apply t with
    | (.ok (), t') => change rest t'
    | (.error e, t') => (.error e, t') := by
  rw [change, performAll]
  simp only [StateT.run, bind, StateT.bind, MonadFiles.perform]
  cases s.apply t with
  | mk outcome t' => cases outcome <;> rfl

/-- The places of the files that some steps write, with their texts. -/
def filesOf (steps : List FileStep) : List (List String × String) :=
  steps.filterMap fun
    | .write p text => some (p.place, text)
    | _ => none

/-- The places of the directories that some steps make. -/
def directoriesOf (steps : List FileStep) : Set (List String) :=
  {q | ∃ p, .makeDirectories p ∈ steps ∧ p.place = q}

/-- A path whose last name leads on from places that are known, within a home. -/
structure Enters (home : List String) (D : Set (List String)) (p : Path) : Prop where
  last : ∃ ps piece, p = ⟨ps ++ [piece]⟩ ∧ Plain piece ∧ ∀ q, Path.Passes ⟨ps⟩ q → q ∈ D
  within : home <+: p.place
  fits : p.Fits

/-- Steps that only write files and make directories, each where directories lead to. -/
def Rooted (home : List String) : Set (List String) → List FileStep → Prop
  | _, [] => True
  | D, s :: rest => (∀ p, s ≠ .clear p) ∧ Enters home D s.path ∧
    Rooted home (D ∪ directoriesOf [s]) rest

lemma directoriesOf_nil : directoriesOf [] = ∅ := by
  ext q
  simp [directoriesOf]

lemma filesOf_append : filesOf (steps ++ rest) = filesOf steps ++ filesOf rest :=
  List.filterMap_append

lemma directoriesOf_append :
    directoriesOf (steps ++ rest) = directoriesOf steps ∪ directoriesOf rest := by
  ext q
  simp only [directoriesOf, List.mem_append, or_and_right, exists_or, Set.mem_ofPred_eq,
    Set.mem_union]

lemma directoriesOf_make (p : Path) : directoriesOf [.makeDirectories p] = {p.place} := by
  ext q
  simp [directoriesOf, eq_comm]

lemma directoriesOf_write (p : Path) (text : String) : directoriesOf [.write p text] = ∅ := by
  ext q
  simp [directoriesOf]

lemma rooted_append : Rooted home D (steps ++ rest) ↔
    Rooted home D steps ∧ Rooted home (D ∪ directoriesOf steps) rest := by
  induction steps generalizing D with
  | nil => simp [Rooted, directoriesOf_nil]
  | cons s steps ih =>
    rw [List.cons_append, Rooted, Rooted, ih, Set.union_assoc, ← directoriesOf_append, and_assoc,
      and_assoc]
    rfl

lemma change_cons_ok : change (s :: rest) t = (.ok (), t') ↔
    ∃ t₁, s.apply t = (.ok (), t₁) ∧ change rest t₁ = (.ok (), t') := by
  rw [change_cons]
  cases hs : s.apply t with
  | mk outcome t₁ => cases outcome <;> simp

/-- A directory or a file is laid out by a step unless the other stands in its place. -/
lemma Laid.step (h : Laid base home D F t) (hclear : ∀ p, s ≠ .clear p)
    (henters : Enters home D s.path) (hnodup : ((F ++ filesOf [s]).map Prod.fst).Nodup) :
    ((∀ q ∈ D ∪ directoriesOf [s], q ∉ (F ++ filesOf [s]).map Prod.fst) →
      ∃ t', s.apply t = (.ok (), t')) ∧
    ∀ t', s.apply t = (.ok (), t') →
      Laid base home (D ∪ directoriesOf [s]) (F ++ filesOf [s]) t' := by
  obtain ⟨⟨ps, piece, hpath, hpiece, hways⟩, hhome, hfits⟩ := henters
  rw [hpath] at hhome hfits
  cases s with
  | clear p => exact absurd rfl (hclear p)
  | makeDirectories p =>
    obtain rfl : p = ⟨ps ++ [piece]⟩ := hpath
    have hfiles : F ++ filesOf [.makeDirectories ⟨ps ++ [piece]⟩] = F := List.append_nil F
    have hdirectories : D ∪ directoriesOf [.makeDirectories ⟨ps ++ [piece]⟩] =
        insert (Path.place ⟨ps ++ [piece]⟩) D := by
      rw [directoriesOf_make, Set.union_singleton]
    rw [hfiles, hdirectories]
    obtain ⟨hfile, hfree⟩ := h.make hpiece hfits hways hhome
    constructor
    · intro hdisjoint
      obtain ⟨t', hmake, -⟩ := hfree (hdisjoint _ (Set.mem_insert _ _))
      exact ⟨t', hmake⟩
    · intro t' hok
      by_cases hmem : Path.place ⟨ps ++ [piece]⟩ ∈ F.map Prod.fst
      · obtain ⟨e, t'', herror⟩ := hfile hmem
        rw [herror] at hok
        cases hok
      · obtain ⟨t'', hmake, hlaid⟩ := hfree hmem
        rw [hmake] at hok
        cases hok
        exact hlaid
  | write p text =>
    obtain rfl : p = ⟨ps ++ [piece]⟩ := hpath
    have hfiles : filesOf [.write ⟨ps ++ [piece]⟩ text] =
        [(Path.place ⟨ps ++ [piece]⟩, text)] := rfl
    rw [hfiles] at hnodup ⊢
    rw [directoriesOf_write, Set.union_empty]
    have hnew : Path.place ⟨ps ++ [piece]⟩ ∉ F.map Prod.fst := by
      rw [List.map_append, List.nodup_append] at hnodup
      exact fun hmem => hnodup.2.2 _ hmem _ (List.mem_singleton_self _) rfl
    obtain ⟨hthere, hfree⟩ := h.write hfits hways hhome hnew text
    rw [FileStep.apply]
    constructor
    · intro hdisjoint
      have hD : Path.place ⟨ps ++ [piece]⟩ ∉ D := fun hD => hdisjoint _ hD (by simp)
      obtain ⟨t', hwrite, -⟩ := hfree hD
      rw [hwrite]
      exact ⟨t', rfl⟩
    · intro t' hok
      by_cases hD : Path.place ⟨ps ++ [piece]⟩ ∈ D
      · obtain ⟨e, herror⟩ := hthere hD
        rw [herror] at hok
        cases hok
      · obtain ⟨t'', hwrite, hlaid⟩ := hfree hD
        rw [hwrite] at hok
        cases hok
        exact hlaid

/-- Steps lay out all their directories and files when none of them stands in another's place. -/
lemma Laid.all_steps (h : Laid base home D F t) (hrooted : Rooted home D steps)
    (hnodup : ((F ++ filesOf steps).map Prod.fst).Nodup) :
    ((∀ q ∈ D ∪ directoriesOf steps, q ∉ (F ++ filesOf steps).map Prod.fst) →
      ∃ t', change steps t = (.ok (), t')) ∧
    ∀ t', change steps t = (.ok (), t') →
      Laid base home (D ∪ directoriesOf steps) (F ++ filesOf steps) t' := by
  induction steps generalizing D F t with
  | nil =>
    have hfiles : F ++ filesOf [] = F := List.append_nil F
    rw [directoriesOf_nil, hfiles, Set.union_empty]
    refine ⟨fun _ => ⟨t, rfl⟩, fun t' hok => ?_⟩
    cases hok
    exact h
  | cons s rest ih =>
    obtain ⟨hclear, henters, hrest⟩ := hrooted
    have hfiles : filesOf (s :: rest) = filesOf [s] ++ filesOf rest :=
      show filesOf ([s] ++ rest) = _ from filesOf_append
    have hdirectories : directoriesOf (s :: rest) = directoriesOf [s] ∪ directoriesOf rest :=
      show directoriesOf ([s] ++ rest) = _ from directoriesOf_append
    rw [hfiles, ← List.append_assoc] at hnodup ⊢
    rw [hdirectories, ← Set.union_assoc]
    have hfirst : ((F ++ filesOf [s]).map Prod.fst).Nodup := by
      rw [List.map_append] at hnodup
      exact (List.nodup_append.mp hnodup).1
    obtain ⟨hmakes, hlaid⟩ := h.step hclear henters hfirst
    constructor
    · intro hdisjoint
      have hapart : ∀ q ∈ D ∪ directoriesOf [s], q ∉ (F ++ filesOf [s]).map Prod.fst := by
        intro q hq hmem
        apply hdisjoint q (Or.inl hq)
        rw [List.map_append]
        exact List.mem_append_left _ hmem
      obtain ⟨t₁, happly⟩ := hmakes hapart
      obtain ⟨t', hchange⟩ := (ih (hlaid t₁ happly) hrest hnodup).1 hdisjoint
      exact ⟨t', change_cons_ok.mpr ⟨t₁, happly, hchange⟩⟩
    · intro t' hok
      obtain ⟨t₁, happly, hchange⟩ := change_cons_ok.mp hok
      exact (ih (hlaid t₁ happly) hrest hnodup).2 t' hchange

/-- They are laid out only then. -/
lemma Laid.all_steps_iff (h : Laid base home D F t) (hrooted : Rooted home D steps)
    (hnodup : ((F ++ filesOf steps).map Prod.fst).Nodup) :
    (∃ t', change steps t = (.ok (), t')) ↔
      ∀ q ∈ D ∪ directoriesOf steps, q ∉ (F ++ filesOf steps).map Prod.fst := by
  obtain ⟨hmakes, hlaid⟩ := h.all_steps hrooted hnodup
  exact ⟨fun ⟨t', hchange⟩ => (hlaid t' hchange).apart, hmakes⟩

end Steps

section Emptied

variable {t : FileTree} {p : Path}

/-- Clearing a path where a folder can be put leaves nothing there and no file in the way. -/
lemma admits_clear (hp : Ended p) (h : t.Admits p) :
    ∃ t', FileStep.apply t (.clear p) = (.ok (), t') ∧
      (∀ q, p.place <+: q → t'.node? q = none) ∧ (∀ q, ¬p.place <+: q → t'.node? q = t.node? q) ∧
      ∀ q, p.Passes q → ∀ text, t'.node? q ≠ some (.file text) := by
  obtain ⟨ps, piece, rfl, hpiece⟩ := hp
  have hplace : (Path.place ⟨ps ++ [piece]⟩).all (· = "..") = false := by
    rw [place_concat, hpiece.follow_eq]
    simp [hpiece.ne_dots]
  have hclear (q : List String) := node?_clear (t := t) (q := q) hplace
  cases hlocate : t.locate ⟨ps ++ [piece]⟩ with
  | error e =>
    rw [FileStep.apply, hlocate]
    have hnothing := h.resolve_left fun hfind => by simp [FileTree.find?, hlocate] at hfind
    exact ⟨t, rfl, hnothing.1, fun _ _ => rfl, hnothing.2⟩
  | ok place =>
    obtain ⟨hways, rfl⟩ := locate_ok hlocate
    rw [FileStep.apply, hlocate]
    refine ⟨_, rfl, fun q hq => ?_, fun q hq => ?_, fun q hq text => ?_⟩
    · rw [hclear, if_pos hq]
    · rw [hclear, if_neg hq]
    · rw [hclear]
      split_ifs with hbelow
      · nofun
      · rcases passes_concat.mp hq with hq | rfl
        · rw [hways q hq]
          nofun
        · exact absurd List.prefix_rfl hbelow

/-- What is cleared and made anew is a folder with nothing in it, but for directories on its own
way. -/
lemma admits_laid (hp : Ended p) (hfits : p.Fits) (h : t.Admits p) :
    ∃ t', change [.clear p, .makeDirectories p] t = (.ok (), t') ∧
      Laid t p.place {q | p.Passes q} [] t' := by
  obtain ⟨t₁, hclear, hemptied, hbeside, hfree⟩ := admits_clear hp h
  obtain ⟨ps, piece, rfl, hpiece⟩ := hp
  obtain ⟨t₂, hmake, hmade⟩ := makeDirectories_concat hpiece.ne_empty hpiece.ne_dot hfits hfree
  refine ⟨t₂, change_cons_ok.mpr ⟨t₁, hclear, change_cons_ok.mpr ⟨t₂, hmake, rfl⟩⟩, ?_⟩
  refine ⟨hmade.passed, fun f hf => absurd hf List.not_mem_nil, fun q hq hpassed _ => ?_,
    fun q hq hpassed => ?_⟩
  · rw [hmade.kept q hpassed, hemptied q hq]
  · rw [hmade.kept q hpassed, hbeside q hq]

end Emptied

section Layouts

variable {K : Type} {D : Set (List String)} {home : List String} {p : Path}
  {files : List (String × Json K)} {style : Json.Style} {r : Reel K}

/-- Some files of different and plain names. -/
structure Listed (files : List (String × Json K)) : Prop where
  plain : ∀ f ∈ files, Plain f.1
  nodup : (files.map Prod.fst).Nodup
  ne_nil : files ≠ []

lemma listed_of_names (names : List String) (h : files.map Prod.fst = names)
    (hplain : ∀ name ∈ names, Plain name) (hnodup : names.Nodup) (hne : names ≠ []) :
    Listed files := by
  subst h
  exact ⟨List.forall_mem_map.mp hplain, hnodup, fun hnil => hne (congrArg _ hnil)⟩

lemma Listed.places_nodup (h : Listed files) (place : List String) :
    (files.map fun f => place ++ [f.1]).Nodup := by
  have hinj : Function.Injective fun name : String => place ++ [name] := by
    intro a b hab
    simpa using hab
  have hnodup := List.Nodup.map hinj h.nodup
  rwa [List.map_map] at hnodup

lemma listed_topFiles [Numeral K] : Listed r.topFiles :=
  listed_of_names ["manifest.json", "timeline.json"] rfl (by decide) (by decide) (by decide)

lemma listed_entityFiles [Scalar K] {e : EntityFiles K} (he : e ∈ r.entityFiles) :
    Listed e.files := by
  simp only [Reel.entityFiles, List.mem_append, List.mem_map] at he
  rcases he with (⟨a, -, rfl⟩ | ⟨c, -, rfl⟩) | ⟨l, -, rfl⟩
  · exact listed_of_names ["transform.json", "animation.json", "settings.json"] rfl (by decide)
      (by decide) (by decide)
  · exact listed_of_names ["transform.json", "camera_settings.json", "settings.json"] rfl
      (by decide) (by decide) (by decide)
  · exact listed_of_names ["settings.json"] rfl (by decide) (by decide) (by decide)

variable [Numeral K]

lemma filesOf_writes (hp : Ended p) (hplain : ∀ f ∈ files, Plain f.1) :
    filesOf (writeSteps style p files) =
      files.map fun f => (p.place ++ [f.1], f.2.render style) := by
  induction files with
  | nil => rfl
  | cons f files ih =>
    rw [List.forall_mem_cons] at hplain
    have hfirst : filesOf (writeSteps style p (f :: files)) =
        ((p.child f.1).place, f.2.render style) :: filesOf (writeSteps style p files) := rfl
    rw [hfirst, ih hplain.2, place_child hp hplain.1]
    rfl

lemma directoriesOf_writes : directoriesOf (writeSteps style p files) = ∅ := by
  ext q
  simp [directoriesOf, writeSteps]

/-- Files are written in a directory that is there. -/
lemma rooted_writes (hp : Ended p) (hplain : ∀ f ∈ files, Plain f.1)
    (hways : ∀ q, p.Passes q → q ∈ D) (hhome : home <+: p.place)
    (hfits : ∀ f ∈ files, (p.child f.1).Fits) : Rooted home D (writeSteps style p files) := by
  induction files with
  | nil => trivial
  | cons f files ih =>
    rw [List.forall_mem_cons] at hplain hfits
    refine ⟨nofun, ⟨⟨p.pieces, f.1, child_eq hp f.1, hplain.1, hways⟩, ?_, hfits.1⟩, ?_⟩
    · change home <+: (p.child f.1).place
      rw [place_child hp hplain.1]
      exact hhome.trans (List.prefix_append _ _)
    · rw [directoriesOf_write, Set.union_empty]
      exact ih hplain.2 hfits.2

lemma directoriesOf_entity (e : EntityFiles K) :
    directoriesOf (e.steps style p) = {(p.child (folderName e.name)).place} := by
  have hsteps : e.steps style p = [.makeDirectories (p.child (folderName e.name))] ++
      writeSteps style (p.child (folderName e.name)) e.files := rfl
  rw [hsteps, directoriesOf_append, directoriesOf_make, directoriesOf_writes, Set.union_empty]

/-- A folder is made for an entity, and its files are written there. -/
lemma rooted_entity (hp : Ended p) {e : EntityFiles K} (hlisted : Listed e.files)
    (hways : ∀ q, p.Passes q → q ∈ D) (hhome : home <+: p.place)
    (hfits : ∀ f ∈ e.files, ((p.child (folderName e.name)).child f.1).Fits) :
    Rooted home D (e.steps style p) := by
  have hended := ended_child p (plain_folderName e.name)
  have hinside : home <+: (p.child (folderName e.name)).place := by
    rw [place_child hp (plain_folderName e.name)]
    exact hhome.trans (List.prefix_append _ _)
  obtain ⟨f, hf⟩ := List.exists_mem_of_ne_nil _ hlisted.ne_nil
  have hfolder := fits_of_child hended (hfits f hf)
  refine ⟨nofun, ⟨⟨p.pieces, _, child_eq hp _, plain_folderName _, hways⟩, hinside, hfolder⟩, ?_⟩
  apply rooted_writes hended hlisted.plain ?_ hinside hfits
  intro q hq
  rw [directoriesOf_make]
  rcases (passes_child hp).mp hq with hq | rfl
  · exact Or.inl (hways q hq)
  · exact Or.inr rfl

lemma rooted_entities (hp : Ended p) {es : List (EntityFiles K)}
    (hlisted : ∀ e ∈ es, Listed e.files) (hways : ∀ q, p.Passes q → q ∈ D)
    (hhome : home <+: p.place)
    (hfits : ∀ e ∈ es, ∀ f ∈ e.files, ((p.child (folderName e.name)).child f.1).Fits) :
    Rooted home D (es.flatMap (EntityFiles.steps style p)) := by
  induction es generalizing D with
  | nil => trivial
  | cons e es ih =>
    rw [List.forall_mem_cons] at hlisted hfits
    rw [List.flatMap_cons, rooted_append]
    refine ⟨rooted_entity hp hlisted.1 hways hhome hfits.1, ?_⟩
    exact ih hlisted.2 (fun q hq => Or.inl (hways q hq)) hfits.2

variable [Scalar K]

omit [Numeral K] in
lemma entityFiles_names : r.entityFiles.map EntityFiles.name = r.entityNames := by
  simp [Reel.entityFiles, Reel.entityNames, Function.comp_def]

/-- The steps of an export, after those that make the folder. -/
def layoutSteps (r : Reel K) (style : Json.Style) (p : Path) : List FileStep :=
  writeSteps style p r.topFiles ++ r.entityFiles.flatMap (EntityFiles.steps style p)

lemma exportSteps_eq : r.exportSteps style p =
    [.clear p, .makeDirectories p] ++ layoutSteps r style p := by
  unfold Reel.exportSteps layoutSteps
  rw [List.append_assoc]

lemma exportedFiles_eq : r.exportedFiles p = (r.topFiles.map fun f => p.child f.1) ++
    r.entityFiles.flatMap fun e =>
      e.files.map fun f => (p.child (folderName e.name)).child f.1 := by
  have hlights : (r.lights.flatMap fun l => [(p.child (folderName l.name)).child "settings.json"]) =
      r.lights.map fun l => (p.child (folderName l.name)).child "settings.json" :=
    List.flatMap_pure_eq_map _ _
  simp [Reel.exportedFiles, Reel.topFiles, Reel.entityFiles, List.flatMap_map, hlights]

lemma written_exportSteps : (r.exportSteps style p).filterMap FileStep.written? =
    r.exportedFiles p := by
  have hwrites (p : Path) (files : List (String × Json K)) :
      (writeSteps style p files).filterMap FileStep.written? = files.map fun f => p.child f.1 := by
    unfold writeSteps
    rw [List.filterMap_map]
    exact congrFun List.filterMap_eq_map files
  have hentity (e : EntityFiles K) : (e.steps style p).filterMap FileStep.written? =
      e.files.map fun f => (p.child (folderName e.name)).child f.1 :=
    hwrites (p.child (folderName e.name)) e.files
  rw [exportedFiles_eq, exportSteps_eq, layoutSteps, List.filterMap_append, List.filterMap_append,
    hwrites, List.filterMap_flatMap]
  simp only [hentity]
  rfl

variable (style) in
lemma rooted_layout (hp : Ended p) (hfits : ∀ q ∈ r.exportedFiles p, q.Fits) :
    Rooted p.place {q | p.Passes q} (layoutSteps r style p) := by
  rw [exportedFiles_eq, List.forall_mem_append, List.forall_mem_map] at hfits
  refine rooted_append.mpr ⟨?_, ?_⟩
  · exact rooted_writes hp listed_topFiles.plain (fun _ hq => hq) List.prefix_rfl hfits.1
  · apply rooted_entities hp (fun e he => listed_entityFiles he) (fun q hq => Or.inl hq)
      List.prefix_rfl
    intro e he f hf
    exact hfits.2 _ (List.mem_flatMap.mpr ⟨e, he, List.mem_map_of_mem hf⟩)

variable (style r) in
/-- The places of the files and their texts. -/
lemma filesOf_layout (hp : Ended p) : filesOf (layoutSteps r style p) =
    (r.topFiles.map fun f => (p.place ++ [f.1], f.2.render style)) ++
      r.entityFiles.flatMap fun e => e.files.map fun f =>
        (p.place ++ [folderName e.name] ++ [f.1], f.2.render style) := by
  have hentities (es : List (EntityFiles K)) (hlisted : ∀ e ∈ es, Listed e.files) :
      filesOf (es.flatMap (EntityFiles.steps style p)) = es.flatMap fun e =>
        e.files.map fun f => (p.place ++ [folderName e.name] ++ [f.1], f.2.render style) := by
    induction es with
    | nil => rfl
    | cons e es ih =>
      rw [List.forall_mem_cons] at hlisted
      have hentity : filesOf (e.steps style p) =
          filesOf (writeSteps style (p.child (folderName e.name)) e.files) := rfl
      rw [List.flatMap_cons, List.flatMap_cons, filesOf_append, ih hlisted.2, hentity,
        filesOf_writes (ended_child p (plain_folderName e.name)) hlisted.1.plain,
        place_child hp (plain_folderName e.name)]
  rw [layoutSteps, filesOf_append, filesOf_writes hp listed_topFiles.plain,
    hentities _ fun e he => listed_entityFiles he]

lemma directoriesOf_layout (hp : Ended p) : directoriesOf (layoutSteps r style p) =
    {q | ∃ name ∈ r.entityNames, q = p.place ++ [folderName name]} := by
  have hentities (es : List (EntityFiles K)) :
      directoriesOf (es.flatMap (EntityFiles.steps style p)) =
      {q | ∃ name ∈ es.map EntityFiles.name, q = p.place ++ [folderName name]} := by
    induction es with
    | nil =>
      ext q
      simp [directoriesOf]
    | cons e es ih =>
      rw [List.flatMap_cons, directoriesOf_append, ih, directoriesOf_entity,
        place_child hp (plain_folderName e.name)]
      ext q
      simp
  rw [layoutSteps, directoriesOf_append, directoriesOf_writes, hentities, Set.empty_union,
    entityFiles_names]

variable (style r) in
lemma places_layout (hp : Ended p) : (filesOf (layoutSteps r style p)).map Prod.fst =
    (r.exportedFiles p).map Path.place := by
  rw [filesOf_layout style r hp, exportedFiles_eq, List.map_append, List.map_append,
    List.map_flatMap, List.map_flatMap, List.map_map, List.map_map]
  congr 1
  · exact List.map_congr_left fun f hf => (place_child hp (listed_topFiles.plain f hf)).symm
  · apply List.flatMap_congr
    intro e he
    rw [List.map_map, List.map_map]
    apply List.map_congr_left
    intro f hf
    have hplace := place_child (ended_child p (plain_folderName e.name))
      ((listed_entityFiles he).plain f hf)
    rw [place_child hp (plain_folderName e.name)] at hplace
    exact hplace.symm

variable (style) in
/-- Files have places of their own when the entities have folders of their own. -/
lemma layout_nodup (hp : Ended p) (hfolders : (r.entityNames.map folderName).Nodup) :
    ((filesOf (layoutSteps r style p)).map Prod.fst).Nodup := by
  have hentities : (r.entityFiles.flatMap fun e => e.files.map fun f =>
      p.place ++ [folderName e.name] ++ [f.1]).Nodup := by
    rw [List.nodup_flatMap]
    constructor
    · exact fun e he => (listed_entityFiles he).places_nodup _
    · rw [← entityFiles_names, List.map_map] at hfolders
      refine (List.pairwise_map.mp hfolders).imp fun {e e'} hother => ?_
      intro q hq hq'
      obtain ⟨f, -, rfl⟩ := List.mem_map.mp hq
      obtain ⟨f', -, heq⟩ := List.mem_map.mp hq'
      apply hother
      simp at heq
      exact heq.1.symm
  rw [filesOf_layout style r hp, List.map_append, List.map_map, List.map_flatMap]
  simp only [List.map_map]
  refine List.nodup_append.mpr ⟨listed_topFiles.places_nodup _, hentities, ?_⟩
  intro q hq q' hq'
  obtain ⟨f, -, rfl⟩ := List.mem_map.mp hq
  obtain ⟨e, -, hq'⟩ := List.mem_flatMap.mp hq'
  obtain ⟨f', -, rfl⟩ := List.mem_map.mp hq'
  simp

/-- A directory has the place of a file where a folder is named like a file on top, or where the
path of the folder leads through the place of a file. -/
lemma apart_layout_iff (hp : Ended p) :
    (∀ q ∈ {q | p.Passes q} ∪ directoriesOf (layoutSteps r style p),
      q ∉ (filesOf (layoutSteps r style p)).map Prod.fst) ↔
    (∀ name ∈ r.entityNames, folderName name ≠ "manifest.json" ∧
      folderName name ≠ "timeline.json") ∧
    ∀ q ∈ r.exportedFiles p, ¬p.Passes q.place := by
  have hfolder (folder : String) :
      p.place ++ [folder] ∉ (filesOf (layoutSteps r style p)).map Prod.fst ↔
        folder ≠ "manifest.json" ∧ folder ≠ "timeline.json" := by
    rw [filesOf_layout style r hp]
    simp [Reel.topFiles]
  rw [directoriesOf_layout hp]
  constructor
  · intro h
    refine ⟨fun name hname => (hfolder _).mp (h _ (Or.inr ⟨name, hname, rfl⟩)), ?_⟩
    intro q hq hpassed
    apply h _ (Or.inl hpassed)
    rw [places_layout style r hp]
    exact List.mem_map_of_mem hq
  · rintro ⟨hnames, hways⟩ q (hq | ⟨name, hname, rfl⟩)
    · rw [places_layout style r hp]
      intro hmem
      obtain ⟨p', hp', rfl⟩ := List.mem_map.mp hmem
      exact hways p' hp' hq
    · exact (hfolder _).mpr (hnames name hname)

end Layouts

section Exports

variable {K : Type} [Scalar K] [Numeral K] {r : Reel K} {style : Json.Style} {root p : Path}
  {t t' : FileTree}

lemma folderClash?_none_iff {earlier : List (String × String)} {names : List String} :
    folderClash? earlier names = none ↔
      (names.map folderName).Nodup ∧ ∀ name ∈ names, earlier.lookup (folderName name) = none := by
  induction names generalizing earlier with
  | nil => simp [folderClash?]
  | cons name names ih =>
    rw [List.map_cons, List.nodup_cons, List.forall_mem_cons, folderClash?]
    cases hfirst : earlier.lookup (folderName name) with
    | some first => simp
    | none =>
      have hlookup (other : String) :
          ((folderName name, name) :: earlier).lookup (folderName other) = none ↔
            folderName other ≠ folderName name ∧ earlier.lookup (folderName other) = none := by
        rw [List.lookup_cons]
        by_cases hother : folderName other = folderName name
        · simp [hother]
        · simp [beq_eq_false_iff_ne.mpr hother, hother]
      simp only [ih, hlookup, forall_and, List.mem_map, not_exists, not_and]
      tauto

/-- What an export leaves behind: the files of the layout, each in its place and with its text, and
no other file in the folder. Beside the folder nothing is changed but that directories are made
which lead to it. -/
structure Exported (r : Reel K) (style : Json.Style) (p : Path) (t t' : FileTree)
    (files : List Path) : Prop where
  files_eq : files = r.exportedFiles p
  apart : (files.map Path.place).Nodup
  exactly : ∀ q, p.place <+: q →
    ((∃ text, t'.node? q = some (.file text)) ↔ q ∈ files.map Path.place)
  top_text : ∀ f ∈ r.topFiles, t'.node? (p.place ++ [f.1]) = some (.file (f.2.render style))
  entity_text : ∀ e ∈ r.entityFiles, ∀ f ∈ e.files,
    t'.node? (p.place ++ [folderName e.name] ++ [f.1]) = some (.file (f.2.render style))
  beside : ∀ q, ¬p.place <+: q → t'.node? q = t.node? q ∨
    p.Passes q ∧ t'.node? q = some .directory

/-- A reel is exported to a tree. -/
def exportOn (r : Reel K) (style : Json.Style) (root : Path) (t : FileTree) :
    Except ExportError (ExportReport K) × FileTree :=
  (r.exportTo style root : StateM FileTree (Except ExportError (ExportReport K))).run t

lemma exportOn_clash {c : FolderClash} (h : folderClash? [] r.entityNames = some c) :
    exportOn r style root t = (.error (.clash c), t) := by
  unfold exportOn Reel.exportTo
  rw [h]
  rfl

lemma exportOn_change (h : folderClash? [] r.entityNames = none)
    (hfile : ∀ text, t.find? (movieFolder root r.name) ≠ some (.file text)) :
    exportOn r style root t =
      match change (r.exportSteps style (movieFolder root r.name)) t with
      | (.ok (), t') => (.ok ⟨movieFolder root r.name, r.manifest,
          (r.exportSteps style (movieFolder root r.name)).filterMap FileStep.written?⟩, t')
      | (.error e, t') => (.error (.files e), t') := by
  have hkind : (t.find? (movieFolder root r.name)).map FileNode.kind ≠ some .file := by
    cases hnode : t.find? (movieFolder root r.name) with
    | none => nofun
    | some node =>
      cases node with
      | file text => exact absurd hnode (hfile text)
      | directory => nofun
  unfold exportOn Reel.exportTo change
  rw [h]
  simp only [StateT.run, bind, StateT.bind, MonadFiles.kind?, if_neg hkind]
  cases (performAll (r.exportSteps style (movieFolder root r.name)) :
      StateM FileTree (Except FileError Unit)) t with
  | mk outcome t' => cases outcome <;> rfl

lemma not_file_of_admits (hp : Ended p) (h : t.Admits p) (text : String) :
    t.find? p ≠ some (.file text) := by
  obtain ⟨ps, piece, rfl, -⟩ := hp
  rcases h with hfind | ⟨hnothing, -⟩
  · rw [hfind]
    nofun
  · unfold FileTree.find?
    cases hlocate : t.locate ⟨ps ++ [piece]⟩ with
    | error e => nofun
    | ok place =>
      obtain ⟨-, rfl⟩ := locate_ok hlocate
      dsimp only
      rw [hnothing _ List.prefix_rfl]
      nofun

lemma ended_movieFolder (root : Path) (name : String) : Ended (movieFolder root name) :=
  ended_child root (plain_folderName name)

lemma change_append {front rest : List FileStep} {t₁ : FileTree}
    (h : change front t = (.ok (), t₁)) : change (front ++ rest) t = change rest t₁ := by
  induction front generalizing t with
  | nil =>
    cases h
    rfl
  | cons s front ih =>
    obtain ⟨t₂, happly, hchange⟩ := change_cons_ok.mp h
    rw [List.cons_append, change_cons, happly]
    exact ih hchange

variable (style) in
/-- An export that may begin goes on from a folder that is empty. -/
lemma exportOn_laid (h : folderClash? [] r.entityNames = none)
    (hadmits : t.Admits (movieFolder root r.name))
    (hfits : ∀ p ∈ r.exportedFiles (movieFolder root r.name), p.Fits) :
    ∃ t₁, Laid t (movieFolder root r.name).place {q | (movieFolder root r.name).Passes q} [] t₁ ∧
      exportOn r style root t =
        match change (layoutSteps r style (movieFolder root r.name)) t₁ with
        | (.ok (), t') => (.ok ⟨movieFolder root r.name, r.manifest,
            r.exportedFiles (movieFolder root r.name)⟩, t')
        | (.error e, t') => (.error (.files e), t') := by
  have hended := ended_movieFolder root r.name
  have hfolder : (movieFolder root r.name).Fits := by
    have hmanifest := hfits ((movieFolder root r.name).child "manifest.json")
      (by simp [Reel.exportedFiles])
    exact fits_of_child hended hmanifest
  obtain ⟨t₁, hchange, hlaid⟩ := admits_laid hended hfolder hadmits
  refine ⟨t₁, hlaid, ?_⟩
  rw [exportOn_change h (not_file_of_admits hended hadmits), written_exportSteps, exportSteps_eq,
    change_append hchange]

variable (style) in
lemma exportOn_ok_iff (h : folderClash? [] r.entityNames = none)
    (hadmits : t.Admits (movieFolder root r.name))
    (hfits : ∀ p ∈ r.exportedFiles (movieFolder root r.name), p.Fits) :
    (∃ report t', exportOn r style root t = (.ok report, t')) ↔
      (∀ name ∈ r.entityNames, folderName name ≠ "manifest.json" ∧
        folderName name ≠ "timeline.json") ∧
      ∀ p ∈ r.exportedFiles (movieFolder root r.name),
        ¬(movieFolder root r.name).Passes p.place := by
  have hended := ended_movieFolder root r.name
  obtain ⟨t₁, hlaid, hexport⟩ := exportOn_laid style h hadmits hfits
  have hiff := hlaid.all_steps_iff (rooted_layout style hended hfits)
    (layout_nodup style hended (folderClash?_none_iff.mp h).1)
  rw [List.nil_append, apart_layout_iff hended] at hiff
  rw [hexport, ← hiff]
  cases hchange : change (layoutSteps r style (movieFolder root r.name)) t₁ with
  | mk outcome t' => cases outcome <;> simp

lemma exportOn_exported {report : ExportReport K} (h : folderClash? [] r.entityNames = none)
    (hadmits : t.Admits (movieFolder root r.name))
    (hfits : ∀ p ∈ r.exportedFiles (movieFolder root r.name), p.Fits)
    (hok : exportOn r style root t = (.ok report, t')) :
    Exported r style (movieFolder root r.name) t t' report.files := by
  have hended := ended_movieFolder root r.name
  obtain ⟨t₁, hlaid, hexport⟩ := exportOn_laid style h hadmits hfits
  have hnodup := layout_nodup style hended (folderClash?_none_iff.mp h).1
  have hsteps := (hlaid.all_steps (rooted_layout style hended hfits) hnodup).2
  rw [hexport] at hok
  cases hchange : change (layoutSteps r style (movieFolder root r.name)) t₁ with
  | mk outcome t₂ =>
    rw [hchange] at hok
    cases outcome with
    | error e => cases hok
    | ok _ =>
      cases hok
      have hlaid' := hsteps t' hchange
      rw [List.nil_append] at hlaid'
      have hplaces := places_layout style r hended
      have htext := filesOf_layout style r hended
      refine ⟨rfl, ?_, fun q hq => ?_, fun f hf => ?_, fun e he f hf => ?_, fun q hq => ?_⟩
      · rw [← hplaces]
        exact hnodup
      · rw [← hplaces]
        constructor
        · rintro ⟨text, hfile⟩
          by_contra hnew
          exact hlaid'.not_file hq hnew text hfile
        · intro hmem
          obtain ⟨f, hf, rfl⟩ := List.mem_map.mp hmem
          exact ⟨f.2, hlaid'.files f hf⟩
      · apply hlaid'.files (_, _)
        rw [htext]
        exact List.mem_append_left _ (List.mem_map_of_mem hf)
      · apply hlaid'.files (_, _)
        rw [htext]
        exact List.mem_append_right _ (List.mem_flatMap.mpr ⟨e, he, List.mem_map_of_mem hf⟩)
      · by_cases hpassed : (movieFolder root r.name).Passes q
        · exact Or.inr ⟨hpassed, hlaid'.directories q (Or.inl hpassed)⟩
        · refine Or.inl (hlaid'.beside q hq ?_)
          rw [directoriesOf_layout hended]
          rintro (hpassed' | ⟨name, -, rfl⟩)
          · exact hpassed hpassed'
          · exact hq (List.prefix_append _ _)

/-- A reel is exported as its layout says unless the folder of an entity, or a directory on the way
to its own folder, has the place of one of its files. Entities that share a folder are refused
before anything is changed. -/
theorem export_lays_out (r : Reel K) (style : Json.Style) (root : Path) (t : FileTree) :
    (∀ c, folderClash? [] r.entityNames = some c →
      exportOn r style root t = (.error (.clash c), t)) ∧
    (folderClash? [] r.entityNames = none ↔ (r.entityNames.map folderName).Nodup) ∧
    (folderClash? [] r.entityNames = none → t.Admits (movieFolder root r.name) →
      (∀ p ∈ r.exportedFiles (movieFolder root r.name), p.Fits) →
      ((∃ report t', exportOn r style root t = (.ok report, t')) ↔
        (∀ name ∈ r.entityNames, folderName name ≠ "manifest.json" ∧
          folderName name ≠ "timeline.json") ∧
        ∀ p ∈ r.exportedFiles (movieFolder root r.name),
          ¬(movieFolder root r.name).Passes p.place) ∧
      ∀ report t', exportOn r style root t = (.ok report, t') →
        Exported r style (movieFolder root r.name) t t' report.files) := by
  refine ⟨fun c hc => exportOn_clash hc, by simp [folderClash?_none_iff], ?_⟩
  intro h hadmits hfits
  exact ⟨exportOn_ok_iff style h hadmits hfits,
    fun report t' hok => exportOn_exported h hadmits hfits hok⟩

end Exports

section Lit

/-- A movie of a light. -/
def lit (light : String) : Movie Float :=
  { Movie.empty "m" 5 with lights := [Light.named light .point] }

def litReel (light : String) : Reel Float :=
  ⟨"m", ⟨5⟩, 0, [], [], [Light.named light .point], [], []⟩

lemma lit_plan {light : String} (h : (lit light).issues = []) :
    (lit light).plan Settings.standard.options = .ok (litReel light) := by
  have hevents : ([] : List (ReelEvent Float)).mergeSort (fun a b => a.frame ≤ b.frame) = [] :=
    List.mergeSort_nil
  unfold litReel Movie.plan
  rw [← hevents, h]
  rfl

/-- A tree with an export of old. -/
def storeroom : FileTree :=
  ⟨[(["out"], .directory), (["out", "m"], .directory), (["out", "m", "old.json"], .file "[]")]⟩

lemma storeroom_admits : storeroom.Admits (movieFolder ⟨["out"]⟩ "m") :=
  Or.inl (by decide +kernel)

/-- The old export gives way to the new one. -/
theorem lit_lays_out : (lit "Key").plan Settings.standard.options = .ok (litReel "Key") ∧
    ∃ report t', exportOn (litReel "Key") .indented ⟨["out"]⟩ storeroom = (.ok report, t') ∧
      Exported (litReel "Key") .indented (movieFolder ⟨["out"]⟩ "m") storeroom t' report.files := by
  have hfolders : folderClash? [] (litReel "Key").entityNames = none := by decide +kernel
  have hfits : ∀ p ∈ (litReel "Key").exportedFiles (movieFolder ⟨["out"]⟩ "m"), p.Fits := by
    decide +kernel
  obtain ⟨-, -, hexport⟩ := export_lays_out (litReel "Key") .indented ⟨["out"]⟩ storeroom
  obtain ⟨hok, hexported⟩ := hexport hfolders storeroom_admits hfits
  obtain ⟨report, t', hrun⟩ := hok.mpr (by decide +kernel)
  exact ⟨lit_plan (by decide +kernel), report, t', hrun, hexported report t' hrun⟩

/-- A light whose folder is named like the manifest is not exported. -/
theorem lit_manifest_fails :
    (lit "manifest.json").plan Settings.standard.options = .ok (litReel "manifest.json") ∧
      ((litReel "manifest.json").entityNames.map folderName).Nodup ∧
      storeroom.find? (movieFolder ⟨["out"]⟩ "m") = some .directory ∧
      (∀ p ∈ (litReel "manifest.json").exportedFiles (movieFolder ⟨["out"]⟩ "m"), p.Fits) ∧
      ∀ report t', exportOn (litReel "manifest.json") .indented ⟨["out"]⟩ storeroom ≠
        (.ok report, t') := by
  have hfits : ∀ p ∈ (litReel "manifest.json").exportedFiles (movieFolder ⟨["out"]⟩ "m"),
      p.Fits := by decide +kernel
  have hfolders : folderClash? [] (litReel "manifest.json").entityNames = none := by
    decide +kernel
  refine ⟨lit_plan (by decide +kernel), by decide +kernel, by decide +kernel, hfits, ?_⟩
  intro report t' hrun
  have hok := (exportOn_ok_iff .indented hfolders storeroom_admits hfits).mp
    ⟨report, t', hrun⟩
  exact absurd hok.1 (by decide +kernel)

end Lit

end Stagecraft.Proofs
