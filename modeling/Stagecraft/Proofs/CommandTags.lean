import Stagecraft.Binary64
import Stagecraft.Proofs.MovieCodecs
import Stagecraft.Proofs.Outcomes
import Stagecraft.Proofs.WrittenJson

/-!
# Tags of commands

The check of command tags reads a script on its own: it goes by the members it finds, where the
decoder goes by the tag of a unit and passes over members it does not know. So a movie can be
decoded and still be refused. `ScriptSeen` says when the two readings agree on a decoded movie:
every command is an object with its tag as text, no camera sequence with commands names an actor
too, and what a sequence holds beside its fields does not look like commands with other tags.
-/

namespace Stagecraft

/-- The tag of a command is one its entity knows. -/
def RawCommand.Known {K : Type} (c : RawCommand K) : Prop :=
  c.kind ∈ c.known

end Stagecraft

namespace Stagecraft.Proofs

open Json (Reader lookup)

section Records

variable {K α β : Type} {name tag : String} {ms : List (String × Json K)} {f : α → Reader K β}
  {b : β} {nested : Bool} {cases : List (String × Reader K α)} {a : α}

/-- What a reader takes from an object, which it leaves as it is. -/
def Takes (r : Reader K α) (ms : List (String × Json K)) (a : Option α) : Prop :=
  StateT.run r (.named ms) = a.map fun a => (a, .named ms)

lemma Takes.run_ok {r : Reader K α} {taken : Option α} (h : Takes r ms taken)
    (hrun : Reader.run (r >>= f) (.named ms) = some b) :
    ∃ a, taken = some a ∧ Reader.run (f a) (.named ms) = some b := by
  unfold Takes at h
  unfold Reader.run at hrun
  rw [StateT.run_bind, h] at hrun
  cases taken with
  | none => cases hrun
  | some a => exact ⟨a, rfl, hrun⟩

lemma takes_next (name : String) (ms : List (String × Json K)) :
    Takes (Reader.next? name) ms (some (lookup name ms)) := rfl

lemma takes_lift (taken : Option α) : Takes (taken : Reader K α) ms taken := by
  cases taken <;> rfl

lemma takes_field (read : Json K → Option α) :
    Takes (Reader.field name read) ms ((lookup name ms).bind read) := by
  unfold Takes Reader.field
  rw [StateT.run_bind, takes_next]
  cases lookup name ms with
  | none => rfl
  | some v => exact takes_lift (read v)

lemma takes_fieldD (standard : α) (read : Json K → Option α) :
    Takes (Reader.fieldD name standard read) ms ((lookup name ms).elim (some standard) read) := by
  unfold Takes Reader.fieldD
  rw [StateT.run_bind, takes_next]
  cases lookup name ms with
  | none => rfl
  | some v => exact takes_lift (read v)

lemma takes_field? (name : String) (ms : List (String × Json K)) (read : Json K → Option α) :
    ∃ taken, Takes (Reader.field? name read) ms taken := by
  unfold Takes Reader.field?
  rw [StateT.run_bind, takes_next]
  cases lookup name ms with
  | none => exact ⟨some none, rfl⟩
  | some v =>
    cases v with
    | null => exact ⟨some none, rfl⟩
    | bool | num | str | arr | obj => exact ⟨_, takes_lift (some <$> read _)⟩

/-- An object that is read by its tag is read by one of the cases. -/
lemma choice_obj (h : Json.choice nested tag cases (.obj ms) = some a) :
    ∃ c ∈ cases, c.2.run (.named ms) = some a := by
  obtain ⟨⟨v, rest⟩, hv, h⟩ := Option.bind_eq_some_iff.mp h
  obtain ⟨w, -, hrest⟩ := Option.map_eq_some_iff.mp hv
  obtain ⟨i, -, h⟩ := Option.bind_eq_some_iff.mp h
  obtain ⟨c, hc, h⟩ := Option.bind_eq_some_iff.mp h
  cases hrest
  exact ⟨c, List.mem_of_getElem? hc, h⟩

/-- A tag that is text is the name of one of the cases. -/
lemma choice_tag {j : Json K} {kind : String} (h : Json.choice nested tag cases j = some a)
    (htag : j.get? tag = some (.str kind)) : kind ∈ cases.map Prod.fst := by
  cases j with
  | obj ms =>
    obtain ⟨⟨v, rest⟩, hv, h⟩ := Option.bind_eq_some_iff.mp h
    obtain ⟨i, hi, -⟩ := Option.bind_eq_some_iff.mp h
    obtain ⟨w, hw, hrest⟩ := Option.map_eq_some_iff.mp hv
    cases hrest
    cases hw.symm.trans htag
    obtain ⟨hlt, hkind, -⟩ := List.findIdx?_eq_some_iff_getElem.mp hi
    rw [← of_decide_eq_true hkind]
    exact List.getElem_mem hlt
  | null | bool | num | str | arr => cases htag

end Records

section Scans

variable {K : Type}

/-- A command that is an object with its tag as text. -/
def TextTagged (c : Json K) : Prop :=
  ∃ kind, c.get? "type" = some (.str kind)

def textAt? (name : String) (j : Json K) : Option String :=
  (j.get? name).bind Json.asString?

def listAt? (name : String) (j : Json K) : Option (List (Json K)) :=
  (j.get? name).bind Json.asList?

/-- The check sees a sequence as it is decoded. The decoder takes a group in a group for what it
is, and the check for a sequence if it looks like one. -/
def SequenceSeen (j : Json K) : Block K → Prop
  | .actor _ => ∀ items ∈ listAt? "commands" j, ∀ c ∈ items, TextTagged c
  | .camera _ => ∀ items ∈ listAt? "commands" j, (∀ c ∈ items, TextTagged c) ∧
      ((textAt? "actor" j).isSome → items = [])
  | .simultaneous _ => ∀ c ∈ RawCommand.ofSequence j, c.Known

/-- The check sees a unit of the script as it is decoded. Whatever has members it takes for a
group. -/
def UnitSeen (j : Json K) (b : Block K) : Prop :=
  match listAt? "members" j, b with
  | some items, .simultaneous members => List.Forall₂ SequenceSeen items members
  | some items, _ => ∀ stray ∈ items, ∀ c ∈ RawCommand.ofSequence stray, c.Known
  | none, b => SequenceSeen j b

/-- The check sees the script of a movie as it is decoded. -/
def ScriptSeen (raw : Json K) (m : Movie K) : Prop :=
  ∀ items ∈ listAt? "script" raw, List.Forall₂ UnitSeen items m.script

lemma kind_of_tag {c : RawCommand K} {kind : String}
    (h : c.command.get? "type" = some (.str kind)) : c.kind = kind := by
  unfold RawCommand.kind
  rw [h]
  rfl

lemma kind_of_not_textTagged {c : RawCommand K} (h : ¬TextTagged c.command) :
    c.kind = "<missing>" := by
  unfold RawCommand.kind
  cases htag : c.command.get? "type" with
  | none => rfl
  | some v =>
    cases v with
    | str kind => exact absurd ⟨kind, htag⟩ h
    | null | bool | num | arr | obj => rfl

/-- A command is known when the decoder reads it by the tags its entity knows, and its tag is
text. -/
lemma known_iff_textTagged {α : Type} {nested : Bool} {cases : List (String × Reader K α)} {a : α}
    {c : RawCommand K} (h : Json.choice nested "type" cases c.command = some a)
    (hknown : c.known = cases.map Prod.fst) (hmissing : "<missing>" ∉ c.known) :
    c.Known ↔ TextTagged c.command := by
  unfold RawCommand.Known
  by_cases htagged : TextTagged c.command
  · obtain ⟨kind, htag⟩ := htagged
    rw [kind_of_tag htag, hknown]
    exact iff_of_true (choice_tag h htag) ⟨kind, htag⟩
  · rw [kind_of_not_textTagged htagged]
    exact iff_of_false hmissing htagged

variable [Scalar K] {nested : Bool} {entity : String} {c : Json K}

lemma command_known_iff {command : Command K} (h : Command.ofJson nested c = some command) :
    RawCommand.Known ⟨entity, Command.kinds, c⟩ ↔ TextTagged c :=
  known_iff_textTagged (c := ⟨entity, Command.kinds, c⟩) h rfl (by simp [Command.kinds])

lemma cameraCommand_known_iff {command : CameraCommand K}
    (h : CameraCommand.ofJson nested c = some command) :
    RawCommand.Known ⟨entity, CameraCommand.kinds, c⟩ ↔ TextTagged c :=
  known_iff_textTagged (c := ⟨entity, CameraCommand.kinds, c⟩) h rfl
    (by simp [CameraCommand.kinds])

/-- No tag of a camera command is one of an actor command. -/
lemma cameraCommand_unknown {command : CameraCommand K}
    (h : CameraCommand.ofJson nested c = some command) :
    ¬RawCommand.Known ⟨entity, Command.kinds, c⟩ := by
  intro hknown
  have hcamera : RawCommand.kind ⟨entity, Command.kinds, c⟩ ∈ CameraCommand.kinds := by
    by_cases htagged : TextTagged c
    · have hknown' : RawCommand.Known ⟨entity, CameraCommand.kinds, c⟩ :=
        (cameraCommand_known_iff h).mpr htagged
      exact hknown'
    · unfold RawCommand.Known at hknown
      rw [kind_of_not_textTagged htagged] at hknown
      simp [Command.kinds] at hknown
  have hdisjoint : ∀ kind ∈ CameraCommand.kinds, kind ∉ Command.kinds := by decide
  exact hdisjoint _ hcamera hknown

end Scans

section Units

variable {K : Type} [Scalar K] {nested : Bool} {n : ℕ} {ms : List (String × Json K)} {b : Block K}
  {j : Json K}

/-- What the decoder finds in an object that it takes for a unit of the script. -/
inductive DecodedUnit (ms : List (String × Json K)) : Block K → Prop
  | actor {q : ActorSequence K} {items : List (Json K)}
      (hactor : lookup "actor" ms = some (.str q.actor))
      (hcommands : lookup "commands" ms = some (.arr items))
      (hitems : List.Forall₂ (fun j c => Command.ofJson true j = some c) items q.commands) :
      DecodedUnit ms (.actor q)
  | camera {q : CameraSequence K} {items : List (Json K)}
      (hcamera : lookup "camera" ms = some (.str q.camera))
      (hcommands : lookup "commands" ms = some (.arr items))
      (hitems : List.Forall₂ (fun j c => CameraCommand.ofJson true j = some c) items q.commands) :
      DecodedUnit ms (.camera q)
  | simultaneous {members : List (Block K)} {items : List (Json K)} {n : ℕ}
      (hmembers : lookup "members" ms = some (.arr items))
      (hitems : List.Forall₂ (fun j b => Block.ofLevels true n j = some b) items members) :
      DecodedUnit ms (.simultaneous members)

omit [Scalar K] in
lemma lookup_text {name s : String} (h : (lookup name ms).bind Json.text? = some s) :
    lookup name ms = some (.str s) := by
  obtain ⟨v, hv, hs⟩ := Option.bind_eq_some_iff.mp h
  cases v with
  | str text =>
    cases hs
    exact hv
  | null | bool | num | arr | obj => cases hs

omit [Scalar K] in
lemma lookup_list {α : Type} {name : String} {read : Json K → Option α} {as : List α}
    (h : (lookup name ms).bind (Json.list? read) = some as) :
    ∃ items, lookup name ms = some (.arr items) ∧
      List.Forall₂ (fun j a => read j = some a) items as := by
  obtain ⟨v, hv, has⟩ := Option.bind_eq_some_iff.mp h
  cases v with
  | arr items => exact ⟨items, hv, mapM_eq_some_iff.mp has⟩
  | null | bool | num | str | obj => cases has

lemma decodedUnit (h : Block.ofLevels nested n (.obj ms) = some b) : DecodedUnit ms b := by
  cases n with
  | zero => cases h
  | succ n =>
    obtain ⟨c, hc, hread⟩ := choice_obj h
    simp only [List.mem_cons, List.not_mem_nil, or_false] at hc
    rcases hc with rfl | rfl | rfl
    · obtain ⟨actor, hactor, hread⟩ := (takes_field _).run_ok hread
      obtain ⟨commands, hcommands, hread⟩ := (takes_field _).run_ok hread
      obtain ⟨items, hlist, hitems⟩ := lookup_list hcommands
      cases hread
      exact .actor (lookup_text hactor) hlist hitems
    · obtain ⟨camera, hcamera, hread⟩ := (takes_field _).run_ok hread
      obtain ⟨commands, hcommands, hread⟩ := (takes_field _).run_ok hread
      obtain ⟨items, hlist, hitems⟩ := lookup_list hcommands
      cases hread
      exact .camera (lookup_text hcamera) hlist hitems
    · obtain ⟨members, hmembers, hread⟩ := (takes_field _).run_ok hread
      obtain ⟨items, hlist, hitems⟩ := lookup_list hmembers
      cases hread
      exact .simultaneous hlist hitems

omit [Scalar K] in
/-- What is no object has no members, so the check passes over it. -/
lemma get?_of_not_obj (h : ∀ ms, j ≠ .obj ms) (name : String) : j.get? name = none := by
  cases j with
  | obj ms => exact absurd rfl (h ms)
  | null | bool | num | str | arr => rfl

omit [Scalar K] in
lemma ofSequence_actor {actor : String} {items : List (Json K)}
    (hactor : textAt? "actor" j = some actor) (hlist : listAt? "commands" j = some items) :
    RawCommand.ofSequence j = items.map fun c => ⟨actor, Command.kinds, c⟩ := by
  unfold textAt? at hactor
  unfold listAt? at hlist
  unfold RawCommand.ofSequence
  rw [hactor, hlist]
  rfl

omit [Scalar K] in
lemma ofSequence_camera {camera : String} {items : List (Json K)}
    (hactor : textAt? "actor" j = none) (hcamera : textAt? "camera" j = some camera)
    (hlist : listAt? "commands" j = some items) :
    RawCommand.ofSequence j = items.map fun c => ⟨camera, CameraCommand.kinds, c⟩ := by
  unfold textAt? at hactor hcamera
  unfold listAt? at hlist
  unfold RawCommand.ofSequence
  rw [hactor, hcamera, hlist]
  rfl

omit [Scalar K] in
lemma textAt?_obj {name s : String} (h : lookup name ms = some (.str s)) :
    textAt? name (.obj ms) = some s :=
  congrArg (Option.bind · Json.asString?) h

omit [Scalar K] in
lemma listAt?_obj {name : String} {items : List (Json K)}
    (h : lookup name ms = some (.arr items)) : listAt? name (.obj ms) = some items :=
  congrArg (Option.bind · Json.asList?) h

lemma known_actorSequence_iff {q : ActorSequence K} {items : List (Json K)}
    (hactor : textAt? "actor" j = some q.actor) (hlist : listAt? "commands" j = some items)
    (hitems : List.Forall₂ (fun j c => Command.ofJson true j = some c) items q.commands) :
    (∀ c ∈ RawCommand.ofSequence j, c.Known) ↔ SequenceSeen j (.actor q) := by
  simp only [ofSequence_actor hactor hlist, List.forall_mem_map, SequenceSeen, hlist,
    Option.mem_some_iff, forall_eq']
  refine forall₂_congr fun c hc => ?_
  obtain ⟨command, -, hread⟩ := mem_of_forall₂_left hitems hc
  exact command_known_iff hread

lemma known_cameraSequence_iff {q : CameraSequence K} {items : List (Json K)}
    (hcamera : textAt? "camera" j = some q.camera) (hlist : listAt? "commands" j = some items)
    (hitems : List.Forall₂ (fun j c => CameraCommand.ofJson true j = some c) items q.commands) :
    (∀ c ∈ RawCommand.ofSequence j, c.Known) ↔ SequenceSeen j (.camera q) := by
  have hread : ∀ c ∈ items, ∃ command, CameraCommand.ofJson true c = some command := by
    intro c hc
    obtain ⟨command, -, hread⟩ := mem_of_forall₂_left hitems hc
    exact ⟨command, hread⟩
  cases hactor : textAt? "actor" j with
  | none =>
    simp only [ofSequence_camera hactor hcamera hlist, List.forall_mem_map, SequenceSeen, hlist,
      hactor, Option.mem_some_iff, forall_eq', Option.isSome_none, Bool.false_eq_true,
      false_implies, and_true]
    refine forall₂_congr fun c hc => ?_
    obtain ⟨command, hcommand⟩ := hread c hc
    exact cameraCommand_known_iff hcommand
  | some actor =>
    -- The check takes the commands for an actor's, so it passes only when there are none.
    simp only [ofSequence_actor hactor hlist, List.forall_mem_map, SequenceSeen, hlist, hactor,
      Option.mem_some_iff, forall_eq', Option.isSome_some, true_implies]
    constructor
    · intro hknown
      have hnil : items = [] := by
        refine List.eq_nil_iff_forall_not_mem.mpr fun c hc => ?_
        obtain ⟨command, hcommand⟩ := hread c hc
        exact cameraCommand_unknown hcommand (hknown c hc)
      rw [hnil]
      exact ⟨nofun, rfl⟩
    · rintro ⟨-, rfl⟩
      exact nofun

/-- The check lets a decoded sequence pass exactly when it sees it as it is decoded. -/
lemma known_ofSequence_iff (h : Block.ofLevels nested n j = some b) :
    (∀ c ∈ RawCommand.ofSequence j, c.Known) ↔ SequenceSeen j b := by
  by_cases hobj : ∃ ms, j = .obj ms
  · obtain ⟨ms, rfl⟩ := hobj
    cases decodedUnit h with
    | actor hactor hcommands hitems =>
      exact known_actorSequence_iff (textAt?_obj hactor) (listAt?_obj hcommands) hitems
    | camera hcamera hcommands hitems =>
      exact known_cameraSequence_iff (textAt?_obj hcamera) (listAt?_obj hcommands) hitems
    | simultaneous hmembers hitems => exact Iff.rfl
  · have hnone := get?_of_not_obj fun ms hms => hobj ⟨ms, hms⟩
    have hsequence : RawCommand.ofSequence j = [] := by simp [RawCommand.ofSequence, hnone]
    rw [hsequence]
    cases b <;> simp [SequenceSeen, listAt?, hnone, hsequence]

lemma known_ofBlock_iff (h : Block.ofLevels nested n j = some b) :
    (∀ c ∈ RawCommand.ofBlock j, c.Known) ↔ UnitSeen j b := by
  unfold RawCommand.ofBlock UnitSeen listAt?
  cases hmembers : (j.get? "members").bind Json.asList? with
  | none => exact known_ofSequence_iff h
  | some items =>
    rw [List.forall_mem_flatMap]
    cases b with
    | actor q => exact Iff.rfl
    | camera q => exact Iff.rfl
    | simultaneous members =>
      obtain ⟨ms, rfl⟩ : ∃ ms, j = .obj ms := by
        by_contra hobj
        rw [get?_of_not_obj fun ms hms => hobj ⟨ms, hms⟩] at hmembers
        cases hmembers
      cases decodedUnit h with
      | simultaneous hlist hitems =>
        cases (listAt?_obj hlist).symm.trans hmembers
        exact forall_mem_iff_forall₂ hitems fun j b hread => known_ofSequence_iff hread

end Units

section Movies

variable {K : Type} [Scalar K] {raw : Json K} {m : Movie K}

/-- The script of a decoded object is decoded unit by unit. -/
lemma decoded_script (h : Movie.ofJson raw = some m) :
    ∀ items ∈ listAt? "script" raw,
      List.Forall₂ (fun j b => Block.ofJson j = some b) items m.script := by
  intro items hitems
  by_cases hobj : ∃ ms, raw = .obj ms
  · obtain ⟨ms, rfl⟩ := hobj
    have hread : Reader.run _ (.named ms) = some m := h
    obtain ⟨_, hduration⟩ := takes_field? "duration" ms (TimeSpan.ofJson (K := K) false)
    obtain ⟨name, -, hread⟩ := (takes_field _).run_ok hread
    obtain ⟨fps, -, hread⟩ := (takes_field _).run_ok hread
    obtain ⟨duration, -, hread⟩ := hduration.run_ok hread
    obtain ⟨actors, -, hread⟩ := (takes_fieldD _ _).run_ok hread
    obtain ⟨cameras, -, hread⟩ := (takes_fieldD _ _).run_ok hread
    obtain ⟨lights, -, hread⟩ := (takes_fieldD _ _).run_ok hread
    obtain ⟨splines, -, hread⟩ := (takes_fieldD _ _).run_ok hread
    obtain ⟨script, hscript, hread⟩ := (takes_fieldD _ _).run_ok hread
    obtain ⟨timeline, -, hread⟩ := (takes_fieldD _ _).run_ok hread
    cases hread
    have hlookup : (lookup "script" ms).bind Json.asList? = some items := hitems
    cases hv : lookup "script" ms with
    | none =>
      rw [hv] at hlookup
      cases hlookup
    | some v =>
      rw [hv] at hlookup hscript
      cases v with
      | arr _ =>
        cases hlookup
        exact mapM_eq_some_iff.mp hscript
      | null | bool | num | str | obj => cases hlookup
  · have hnone := get?_of_not_obj (fun ms hms => hobj ⟨ms, hms⟩) "script"
    simp [listAt?, hnone] at hitems

/-- The check lets a decoded movie pass exactly when it sees the script as it is decoded. -/
theorem known_ofMovie_iff (h : Movie.ofJson raw = some m) :
    (∀ c ∈ RawCommand.ofMovie raw, c.Known) ↔ ScriptSeen raw m := by
  have hscript := decoded_script h
  unfold RawCommand.ofMovie ScriptSeen
  change (∀ c ∈ ((listAt? "script" raw).getD []).flatMap RawCommand.ofBlock, c.Known) ↔ _
  rw [List.forall_mem_flatMap]
  cases hlist : listAt? "script" raw with
  | none => exact iff_of_true nofun nofun
  | some items =>
    simp only [Option.getD_some, Option.mem_some_iff, forall_eq']
    exact forall_mem_iff_forall₂ (hscript items hlist) fun j b hread => known_ofBlock_iff hread

omit [Scalar K] in
/-- The check reports the first command with an unknown tag, by its place among the commands to
its entity. -/
lemma check_unknown {commands : List (RawCommand K)} (h : ¬∀ c ∈ commands, c.Known)
    (earlier : List String) :
    ∃ front c rest, commands = front ++ c :: rest ∧ (∀ a ∈ front, a.Known) ∧ ¬c.Known ∧
      RawCommand.check earlier commands = .error (.unknownCommand c.entity
        ((front.map RawCommand.entity).count c.entity + earlier.count c.entity) c.kind) := by
  have hsplit : ∃ front c rest, commands = front ++ c :: rest ∧ (∀ a ∈ front, a.Known) ∧
      ¬c.Known := by
    induction commands with
    | nil => exact absurd (List.forall_mem_nil _) h
    | cons c commands ih =>
      by_cases hc : c.Known
      · have hrest : ¬∀ c ∈ commands, c.Known :=
          fun hrest => h (List.forall_mem_cons.mpr ⟨hc, hrest⟩)
        obtain ⟨front, d, rest, rfl, hfront, hd⟩ := ih hrest
        exact ⟨c :: front, d, rest, rfl, List.forall_mem_cons.mpr ⟨hc, hfront⟩, hd⟩
      · exact ⟨[], c, commands, rfl, List.forall_mem_nil _, hc⟩
  obtain ⟨front, c, rest, rfl, hfront, hc⟩ := hsplit
  exact ⟨front, c, rest, rfl, hfront, hc, check_first hfront hc earlier⟩

/-- A movie that is decoded is read exactly when the check of the tags sees its script as it is
decoded. Otherwise the first command whose tag the check does not know is reported. -/
theorem read_decoded_iff [Numeral K] {text : String} (hparse : Json.parse? text = some raw)
    (hdecode : Movie.ofJson raw = some m) :
    (Movie.read text = .ok m ↔ ScriptSeen raw m) ∧
      (¬ScriptSeen raw m → ∃ front c rest, RawCommand.ofMovie raw = front ++ c :: rest ∧
        (∀ a ∈ front, a.Known) ∧ ¬c.Known ∧
        Movie.read (K := K) text = .error (.unknownCommand c.entity
          ((front.map RawCommand.entity).count c.entity) c.kind)) := by
  have hread : Movie.read text = (RawCommand.check [] (RawCommand.ofMovie raw)).map fun _ => m := by
    rw [read_of_parse hparse, Movie.ofRaw, hdecode]
    cases RawCommand.check [] (RawCommand.ofMovie raw) <;> rfl
  rw [← known_ofMovie_iff hdecode, hread]
  by_cases hknown : ∀ c ∈ RawCommand.ofMovie raw, c.Known
  · rw [check_ok hknown]
    exact ⟨iff_of_true rfl hknown, fun h => absurd hknown h⟩
  · obtain ⟨front, c, rest, hcommands, hfront, hc, hcheck⟩ := check_unknown hknown []
    rw [hcheck]
    refine ⟨iff_of_false nofun hknown, fun _ => ⟨front, c, rest, hcommands, hfront, hc, rfl⟩⟩

end Movies

section Strays

/-- A movie with one camera sequence, which names an actor beside its camera. -/
def strayActor : Json Float :=
  .obj [("name", .str "stray"), ("fps", .ofNat 30),
    ("cameras", .arr [.obj [("name", .str "C"),
      ("location", .obj [("x", .ofNat 0), ("y", .ofNat 0), ("z", .ofNat 0)])]]),
    ("script", .arr [.obj [("block", .str "camera"), ("camera", .str "C"), ("actor", .str "A"),
      ("commands", .arr [.obj [("type", .str "stop_tracking")]])]])]

lemma strayActor_parses : Json.parse? strayActor.indented = some strayActor := by
  have hnumbers : ∀ n ∈ strayActor.numbers, n.ReadsBack := by decide +kernel
  have hdepth : strayActor.depth ≤ Json.nestingLimit := by decide +kernel
  exact parse_render .indented strayActor hnumbers hdepth

lemma strayActor_decodes : (Movie.ofJson strayActor).isSome = true := rfl

/-- The decoder passes over the actor, and the check looks for the tags of an actor. -/
theorem strayActor_refused :
    Json.parse? strayActor.indented = some strayActor ∧
      (Movie.ofJson strayActor).isSome = true ∧
      Movie.read (K := Float) strayActor.indented =
        .error (.unknownCommand "A" 0 "stop_tracking") := by
  have hcheck : RawCommand.check [] (RawCommand.ofMovie strayActor) =
      .error (.unknownCommand "A" 0 "stop_tracking") := rfl
  refine ⟨strayActor_parses, strayActor_decodes, ?_⟩
  rw [read_of_parse strayActor_parses, Movie.ofRaw, hcheck]
  rfl

theorem strayActor_read_iff : ∃ m, Movie.ofJson strayActor = some m ∧
    (Movie.read strayActor.indented = .ok m ↔ ScriptSeen strayActor m) ∧
    (¬ScriptSeen strayActor m → ∃ front c rest, RawCommand.ofMovie strayActor = front ++ c :: rest ∧
      (∀ a ∈ front, a.Known) ∧ ¬c.Known ∧
      Movie.read (K := Float) strayActor.indented = .error (.unknownCommand c.entity
        ((front.map RawCommand.entity).count c.entity) c.kind)) := by
  obtain ⟨m, hm⟩ := Option.isSome_iff_exists.mp strayActor_decodes
  exact ⟨m, hm, read_decoded_iff strayActor_parses hm⟩

end Strays

end Stagecraft.Proofs
