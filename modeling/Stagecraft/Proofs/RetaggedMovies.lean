import Stagecraft.Binary64
import Stagecraft.Proofs.CommandTags
import Stagecraft.Proofs.CueSheets

/-!
# Retagged movies

In the JSON of a movie one command gets a tag that nobody knows. The check of the tags runs into
that command and reports a number for it. It counts all that is addressed to the same name before,
whether to an actor or to a camera, where every other count keeps the two apart.
-/

namespace Stagecraft

variable {K : Type}

/-- A step down into a JSON value. -/
inductive Json.Place where
  | member (name : String)
  | item (index : ℕ)

/-- Puts a value in the place that a path leads to, and leaves everything else as it is. -/
def Json.put (v : Json K) : List Json.Place → Json K → Json K
  | [], _ => v
  | .member name :: path, .obj ms =>
    .obj (ms.map fun m => (m.1, if m.1 = name then Json.put v path m.2 else m.2))
  | .item index :: path, .arr items => .arr (items.modify index (Json.put v path))
  | _ :: _, j => j

/-- The JSON of a movie, where a command of the sequence at a path has another tag. -/
def Movie.retagged (m : Movie K) (path : List Json.Place) (n : ℕ) (kind : String) : Json K :=
  Json.put (.str kind) (path ++ [.member "commands", .item n, .member "type"]) m.toJson

end Stagecraft

namespace Stagecraft.Proofs

open Json (lookup)

section Lists

variable {α β : Type} {a b : β} {l before after : List β}

/-- What a list is put together from is split with it. -/
lemma flatMap_split {f : α → List β} {as : List α} (h : as.flatMap f = before ++ b :: after) :
    ∃ front a rest left right, as = front ++ a :: rest ∧ f a = left ++ b :: right ∧
      before = front.flatMap f ++ left := by
  induction as generalizing before with
  | nil => simp at h
  | cons a as ih =>
    rw [List.flatMap_cons, List.append_eq_append_iff] at h
    rcases h with ⟨left, rfl, hrest⟩ | ⟨right, ha, hrest⟩
    · obtain ⟨front, a', rest, left', right, rfl, ha', rfl⟩ := ih hrest
      exact ⟨a :: front, a', rest, left', right, rfl, ha', by simp⟩
    · cases right with
      | nil =>
        have hfrom : as.flatMap f = [] ++ b :: after := hrest.symm
        obtain ⟨front, a', rest, left', right, rfl, ha', hnil⟩ := ih hfrom
        refine ⟨a :: front, a', rest, left', right, rfl, ha', ?_⟩
        rw [List.flatMap_cons, List.append_assoc, ← hnil, ha, List.append_nil, List.append_nil]
      | cons b' right =>
        obtain ⟨rfl, -⟩ := List.cons.inj hrest
        exact ⟨[], a, as, before, right, rfl, ha, rfl⟩

lemma eq_of_singleton_eq_append (h : [a] = before ++ b :: after) : before = [] ∧ b = a := by
  cases before with
  | nil => exact ⟨rfl, (List.cons.inj h).1.symm⟩
  | cons c before => simp at h

end Lists

section Places

variable {K : Type} {name other : String} {v j : Json K} {path : List Json.Place}

lemma lookup_mapped (f : String → Json K → Json K) (ms : List (String × Json K)) :
    lookup name (ms.map fun m => (m.1, f m.1 m.2)) = (lookup name ms).map (f name) := by
  induction ms with
  | nil => rfl
  | cons m ms ih =>
    rw [List.map_cons, lookup_cons, ih, lookup_cons]
    by_cases h : m.1 = name
    · simp [h]
    · simp [h]

lemma get?_put_member (name : String) (j : Json K) :
    (Json.put v (.member name :: path) j).get? name = (j.get? name).map (Json.put v path) := by
  cases j with
  | obj ms =>
    refine (lookup_mapped (fun n w => if n = name then Json.put v path w else w) ms).trans ?_
    simp only [if_true]
    rfl
  | null | bool | num | str | arr => rfl

lemma get?_put_other (h : other ≠ name) (j : Json K) :
    (Json.put v (.member name :: path) j).get? other = j.get? other := by
  cases j with
  | obj ms =>
    refine (lookup_mapped (fun n w => if n = name then Json.put v path w else w) ms).trans ?_
    simp only [if_neg h]
    exact Option.map_id'
  | null | bool | num | str | arr => rfl

variable (v path) in
lemma listAt?_put {front rest : List (Json K)} {a : Json K}
    (h : listAt? name j = some (front ++ a :: rest)) :
    listAt? name (Json.put v (.member name :: .item front.length :: path) j) =
      some (front ++ Json.put v path a :: rest) := by
  unfold listAt? at h ⊢
  rw [get?_put_member]
  cases hv : j.get? name with
  | none =>
    rw [hv] at h
    cases h
  | some w =>
    rw [hv] at h
    cases w with
    | arr items =>
      cases h
      simp [Json.put, Json.asList?, List.modify_eq_take_cons_drop]
    | null | bool | num | str | obj => cases h

end Places

section Scans

variable {K : Type} {m : Movie K} {earlier : List (Block K)} {b : Block K} {v : Json K}
  {path rest : List Json.Place}

/-- Where a unit stands in the JSON of a movie, when groups are taken apart, and which units of the
script come before it. -/
inductive StandsAt (m : Movie K) : List Json.Place → List (Block K) → Block K → Prop
  | alone {front rest : List (Block K)} {b : Block K} (hscript : m.script = front ++ b :: rest)
    (hflat : ∀ members, b ≠ .simultaneous members) :
    StandsAt m [.member "script", .item front.length] (front.flatMap Block.flatten) b
  | member {front rest before after : List (Block K)} {b : Block K}
    (hscript : m.script = front ++ .simultaneous (before ++ b :: after) :: rest) :
    StandsAt m [.member "script", .item front.length, .member "members", .item before.length]
      (front.flatMap Block.flatten ++ before) b

/-- A unit that stands in a movie comes behind those before it, when groups are taken apart. -/
lemma StandsAt.sequences_eq (h : StandsAt m path earlier b) :
    ∃ later, m.sequences = earlier ++ b :: later := by
  unfold Movie.sequences
  cases h with
  | @alone front rest _ hscript hflat =>
    refine ⟨rest.flatMap Block.flatten, ?_⟩
    rw [hscript, List.flatMap_append, List.flatMap_cons]
    cases b with
    | actor q => rfl
    | camera q => rfl
    | simultaneous members => exact absurd rfl (hflat members)
  | @member front rest before after _ hscript =>
    refine ⟨after ++ rest.flatMap Block.flatten, ?_⟩
    rw [hscript, List.flatMap_append, List.flatMap_cons]
    simp [Block.flatten]

/-- Every unit stands somewhere in its movie. -/
lemma exists_standsAt {later : List (Block K)} (h : m.sequences = earlier ++ b :: later) :
    ∃ path, StandsAt m path earlier b := by
  obtain ⟨front, unit, rest, before, after, hscript, hunit, rfl⟩ := flatMap_split h
  cases unit with
  | simultaneous members =>
    have hmembers : members = before ++ b :: after := hunit
    rw [hmembers] at hscript
    exact ⟨_, .member hscript⟩
  | actor q =>
    obtain ⟨rfl, rfl⟩ := eq_of_singleton_eq_append hunit
    rw [List.append_nil]
    exact ⟨_, .alone hscript nofun⟩
  | camera q =>
    obtain ⟨rfl, rfl⟩ := eq_of_singleton_eq_append hunit
    rw [List.append_nil]
    exact ⟨_, .alone hscript nofun⟩

/-- Whom a unit addresses, by the members that the check of the tags goes by, and the tags it knows
for their commands. -/
inductive Drives (j : Json K) (name : String) : List String → Prop
  | actor (hactor : textAt? "actor" j = some name) : Drives j name Command.kinds
  | camera (hactor : textAt? "actor" j = none) (hcamera : textAt? "camera" j = some name) :
    Drives j name CameraCommand.kinds

namespace Drives

variable {j : Json K} {name : String} {known : List String}

lemma ofSequence (h : Drives j name known) {items : List (Json K)}
    (hlist : listAt? "commands" j = some items) :
    RawCommand.ofSequence j = items.map fun c => ⟨name, known, c⟩ := by
  cases h with
  | actor hactor => exact ofSequence_actor hactor hlist
  | camera hactor hcamera => exact ofSequence_camera hactor hcamera hlist

/-- Whom a unit addresses does not depend on its commands. -/
lemma put (h : Drives j name known) :
    Drives (Json.put v (.member "commands" :: path) j) name known := by
  have htext : ∀ other, other ≠ "commands" →
      textAt? other (Json.put v (.member "commands" :: path) j) = textAt? other j := by
    intro other hother
    unfold textAt?
    rw [get?_put_other hother]
  cases h with
  | actor hactor => exact .actor ((htext "actor" (by decide)).trans hactor)
  | camera hactor hcamera =>
    exact .camera ((htext "actor" (by decide)).trans hactor)
      ((htext "camera" (by decide)).trans hcamera)

end Drives

/-- The commands of a unit as the check of the tags sees them. -/
def rawCommands (b : Block K) : List (RawCommand K) :=
  RawCommand.ofSequence b.toJson

lemma rawCommands_actor (q : ActorSequence K) : rawCommands (.actor q) =
    q.commands.map fun c => ⟨q.actor, Command.kinds, c.toJson⟩ :=
  List.map_map

lemma rawCommands_camera (q : CameraSequence K) : rawCommands (.camera q) =
    q.commands.map fun c => ⟨q.camera, CameraCommand.kinds, c.toJson⟩ :=
  List.map_map

lemma ofBlock_toJson (b : Block K) :
    RawCommand.ofBlock b.toJson = b.flatten.flatMap rawCommands := by
  cases b with
  | actor q => exact (List.append_nil _).symm
  | camera q => exact (List.append_nil _).symm
  | simultaneous members =>
    have hmembers : RawCommand.ofBlock (Block.simultaneous members).toJson =
        (Block.listToJson members).flatMap RawCommand.ofSequence := rfl
    rw [hmembers, listToJson_eq_map, List.flatMap_map]
    rfl

lemma ofUnits_toJson (l : List (Block K)) :
    (l.map Block.toJson).flatMap RawCommand.ofBlock =
      (l.flatMap Block.flatten).flatMap rawCommands := by
  rw [List.flatMap_map, List.flatMap_assoc]
  exact List.flatMap_congr fun b _ => ofBlock_toJson b

lemma listAt?_script (m : Movie K) :
    listAt? "script" m.toJson = some (m.script.map Block.toJson) := by
  simp [listAt?, Movie.toJson, Json.get?, Json.asList?, listToJson_eq_map]

lemma ofBlock_of_not_members {j : Json K} (h : listAt? "members" j = none) :
    RawCommand.ofBlock j = RawCommand.ofSequence j := by
  unfold listAt? at h
  unfold RawCommand.ofBlock
  rw [h]

lemma ofBlock_of_members {j : Json K} {items : List (Json K)}
    (h : listAt? "members" j = some items) :
    RawCommand.ofBlock j = items.flatMap RawCommand.ofSequence := by
  unfold listAt? at h
  unfold RawCommand.ofBlock
  rw [h]

variable (v rest) in
/-- What is put into the commands of a unit changes what the check sees of that unit, and nothing
it sees before. -/
lemma StandsAt.ofMovie_put (h : StandsAt m path earlier b) : ∃ later,
    RawCommand.ofMovie (Json.put v (path ++ .member "commands" :: rest) m.toJson) =
      earlier.flatMap rawCommands ++
        (RawCommand.ofSequence (Json.put v (.member "commands" :: rest) b.toJson) ++ later) := by
  have hscript := listAt?_script m
  have hofMovie : ∀ {j : Json K} {items : List (Json K)}, listAt? "script" j = some items →
      RawCommand.ofMovie j = items.flatMap RawCommand.ofBlock := by
    intro j items hitems
    unfold listAt? at hitems
    unfold RawCommand.ofMovie
    rw [hitems]
    rfl
  cases h with
  | @alone front after _ hsplit hflat =>
    rw [hsplit, List.map_append, List.map_cons] at hscript
    have hput := listAt?_put v (.member "commands" :: rest) hscript
    rw [List.length_map] at hput
    have hmembers :
        listAt? "members" (Json.put v (.member "commands" :: rest) b.toJson) = none := by
      unfold listAt?
      rw [get?_put_other (by decide)]
      cases b with
      | actor q => rfl
      | camera q => rfl
      | simultaneous members => exact absurd rfl (hflat members)
    refine ⟨(after.map Block.toJson).flatMap RawCommand.ofBlock, (hofMovie hput).trans ?_⟩
    rw [List.flatMap_append, List.flatMap_cons, ofUnits_toJson, ofBlock_of_not_members hmembers]
  | @member front outer before after _ hsplit =>
    rw [hsplit, List.map_append, List.map_cons] at hscript
    have hput := listAt?_put v
      (.member "members" :: .item before.length :: .member "commands" :: rest) hscript
    rw [List.length_map] at hput
    have hgroup : listAt? "members" (Block.simultaneous (before ++ b :: after)).toJson =
        some (before.map Block.toJson ++ b.toJson :: after.map Block.toJson) := by
      rw [← List.map_cons, ← List.map_append, ← listToJson_eq_map]
      rfl
    have hmembers := listAt?_put v (.member "commands" :: rest) hgroup
    rw [List.length_map] at hmembers
    refine ⟨(after.map Block.toJson).flatMap RawCommand.ofSequence ++
      (outer.map Block.toJson).flatMap RawCommand.ofBlock, (hofMovie hput).trans ?_⟩
    rw [List.flatMap_append, List.flatMap_cons, ofUnits_toJson, ofBlock_of_members hmembers,
      List.flatMap_append, List.flatMap_cons, List.flatMap_map]
    simp only [List.flatMap_append, List.append_assoc]
    rfl

end Scans

section Numbers

variable {K : Type} {m : Movie K} {earlier : List (Block K)} {name kind text : String}
  {path : List Json.Place}

/-- The check counts what is addressed to a name, to an actor or a camera. -/
lemma count_rawCommands (name : String) (units : List (Block K)) :
    ((units.flatMap rawCommands).map RawCommand.entity).count name =
      Movie.actorCommandCount name units + Movie.cameraCommandCount name units := by
  unfold Movie.actorCommandCount Movie.cameraCommandCount
  induction units with
  | nil => rfl
  | cons b units ih =>
    simp only [List.flatMap_cons, List.map_append, List.count_append, List.length_append, ih]
    cases b with
    | actor q =>
      by_cases hname : q.actor = name
      · simp [rawCommands_actor, Function.comp_def, hname]
        omega
      · simp [rawCommands_actor, Function.comp_def, List.count_replicate, hname]
    | camera q =>
      by_cases hname : q.camera = name
      · simp [rawCommands_camera, Function.comp_def, hname]
        omega
      · simp [rawCommands_camera, Function.comp_def, List.count_replicate, hname]
    | simultaneous members =>
      have hnone : rawCommands (.simultaneous members) = [] := rfl
      simp [hnone]

lemma rawCommands_known (units : List (Block K)) :
    ∀ c ∈ units.flatMap rawCommands, c.kind ∈ c.known := by
  intro c hc
  obtain ⟨b, -, hc⟩ := List.mem_flatMap.mp hc
  exact known_ofSequence b c hc

variable [Scalar K] [Numeral K]

/-- The check reports a command that has got an unknown tag by the number of those before it that
are addressed to its name. -/
lemma read_retagged {b : Block K} {known : List String} {before after : List (Json K)} {c : Json K}
    (hstands : StandsAt m path earlier b) (hdrives : Drives b.toJson name known)
    (hcommands : listAt? "commands" b.toJson = some (before ++ c :: after))
    (htag : (c.get? "type").isSome = true) (hkind : kind ∉ known)
    (hparse : Json.parse? text = some (m.retagged path before.length kind)) :
    Movie.read (K := K) text = .error (.unknownCommand name
      (Movie.actorCommandCount name earlier + Movie.cameraCommandCount name earlier +
        before.length) kind) := by
  let raw (c : Json K) : RawCommand K := ⟨name, known, c⟩
  have hput := listAt?_put (.str kind) [.member "type"] hcommands
  have hsequence := hdrives.put.ofSequence hput
  have hwhole := hdrives.ofSequence hcommands
  obtain ⟨later, hmovie⟩ := hstands.ofMovie_put (.str kind)
    [.item before.length, .member "type"]
  have htyped : (raw (Json.put (.str kind) [.member "type"] c)).kind = kind := by
    apply kind_of_tag
    obtain ⟨tag, htag⟩ := Option.isSome_iff_exists.mp htag
    rw [get?_put_member, htag]
    rfl
  have hfront : ∀ a ∈ earlier.flatMap rawCommands ++ before.map raw, a.kind ∈ a.known := by
    intro a ha
    rcases List.mem_append.mp ha with ha | ha
    · exact rawCommands_known earlier a ha
    · apply known_ofSequence b a
      rw [hwhole, List.map_append]
      exact List.mem_append_left _ ha
  have hsplit : RawCommand.ofMovie (m.retagged path before.length kind) =
      (earlier.flatMap rawCommands ++ before.map raw) ++
        raw (Json.put (.str kind) [.member "type"] c) :: (after.map raw ++ later) := by
    refine hmovie.trans ?_
    rw [hsequence, List.map_append, List.map_cons]
    simp only [List.append_assoc, List.cons_append]
    rfl
  have hunknown : (raw (Json.put (.str kind) [.member "type"] c)).kind ∉ known := by
    rw [htyped]
    exact hkind
  rw [read_of_parse hparse, Movie.ofRaw, hsplit, check_first hfront hunknown, htyped,
    List.map_append, List.count_append, count_rawCommands]
  simp [raw, Function.comp_def]
  rfl

end Numbers

end Stagecraft.Proofs
