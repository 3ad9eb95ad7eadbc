import Stagecraft.Proofs.CueSheets
import Stagecraft.Proofs.RetaggedMovies

/-!
# Offending commands

An issue with a command names the command's entity and its number: its place among the commands to
the entity, in the order of the script with groups taken apart. The check counts sequence by
sequence; an issue names a command exactly when the command at that place breaks the rule.
-/

namespace Stagecraft

variable {K : Type}

/-- The command that makes use of a part of a movie, by its entity and its number. -/
def Usage.command? : Usage → Option (String × ℕ)
  | .command entity index => some (entity, index)
  | _ => none

/-- The command that an issue names. -/
def Issue.command? : Issue K → Option (String × ℕ)
  | .wrongKind usage _ _ _ => usage.command?
  | .unresolved _ _ usage => usage.command?
  | .command entity index _ => some (entity, index)
  | _ => none

end Stagecraft

namespace Stagecraft.Proofs

section Positions

variable {K : Type} {m : Movie K} {name : String} {index : ℕ}

/-- What stands at an index of a list that is put together, stands in one of its parts. -/
lemma flatMap_getElem?_iff {α β : Type} {f : β → List α} {l : List β} {a : α} :
    (l.flatMap f)[index]? = some a ↔ ∃ front b rest before after, l = front ++ b :: rest ∧
      f b = before ++ a :: after ∧ index = (front.flatMap f).length + before.length := by
  constructor
  · intro h
    obtain ⟨hlt, ha⟩ := List.getElem?_eq_some_iff.mp h
    have hsplit :
        l.flatMap f = (l.flatMap f).take index ++ a :: (l.flatMap f).drop (index + 1) := by
      rw [← ha, ← List.drop_eq_getElem_cons hlt, List.take_append_drop]
    obtain ⟨front, b, rest, before, after, hl, hb, htake⟩ := flatMap_split hsplit
    refine ⟨front, b, rest, before, after, hl, hb, ?_⟩
    rw [← List.length_append, ← htake, List.length_take_of_le hlt.le]
  · rintro ⟨front, b, rest, before, after, rfl, hb, rfl⟩
    rw [List.flatMap_append, List.flatMap_cons, hb,
      List.getElem?_append_right (Nat.le_add_right _ _), Nat.add_sub_cancel_left]
    simp

/-- An actor's command stands behind its commands in the sequences before, and those before in its
own sequence. -/
lemma commandsFor_getElem?_iff {c : Command K} :
    (m.commandsFor name)[index]? = some c ↔ ∃ earlier q later before after,
      m.sequences = earlier ++ .actor q :: later ∧ q.actor = name ∧
      q.commands = before ++ c :: after ∧
      index = Movie.actorCommandCount name earlier + before.length := by
  refine Iff.trans flatMap_getElem?_iff ⟨?_, ?_⟩
  · rintro ⟨earlier, b, later, before, after, hsequences, hb, hindex⟩
    cases b with
    | actor q =>
      by_cases hname : q.actor = name
      · simp only [hname, if_true] at hb
        exact ⟨earlier, q, later, before, after, hsequences, hname, hb, hindex⟩
      · simp [hname] at hb
    | camera q => simp at hb
    | simultaneous members => simp at hb
  · rintro ⟨earlier, q, later, before, after, hsequences, hname, hcommands, hindex⟩
    exact ⟨earlier, .actor q, later, before, after, hsequences, by simp [hname, hcommands], hindex⟩

/-- So does a camera's. -/
lemma cueCommands_getElem?_iff {c : CameraCommand K} :
    (cueCommands m name)[index]? = some c ↔ ∃ earlier q later before after,
      m.sequences = earlier ++ .camera q :: later ∧ q.camera = name ∧
      q.commands = before ++ c :: after ∧
      index = Movie.cameraCommandCount name earlier + before.length := by
  refine Iff.trans flatMap_getElem?_iff ⟨?_, ?_⟩
  · rintro ⟨earlier, b, later, before, after, hsequences, hb, hindex⟩
    cases b with
    | camera q =>
      by_cases hname : q.camera = name
      · simp only [hname, if_true] at hb
        exact ⟨earlier, q, later, before, after, hsequences, hname, hb, hindex⟩
      · simp [hname] at hb
    | actor q => simp at hb
    | simultaneous members => simp at hb
  · rintro ⟨earlier, q, later, before, after, hsequences, hname, hcommands, hindex⟩
    exact ⟨earlier, .camera q, later, before, after, hsequences, by simp [hname, hcommands], hindex⟩

lemma actorCommandCount_reverse (name : String) (units : List (Block K)) :
    Movie.actorCommandCount name units.reverse = Movie.actorCommandCount name units :=
  ((List.reverse_perm units).flatMap_right _).length_eq

lemma cameraCommandCount_reverse (name : String) (units : List (Block K)) :
    Movie.cameraCommandCount name units.reverse = Movie.cameraCommandCount name units :=
  ((List.reverse_perm units).flatMap_right _).length_eq

end Positions

section Issues

variable {K : Type} {m : Movie K} {issue : Issue K} {entity : String} {index : ℕ}

lemma eq_of_mem_ite {p : Prop} [Decidable p] {other : Issue K}
    (h : issue ∈ if p then [other] else []) : issue = other :=
  List.mem_singleton.mp (List.mem_ite_nil_right.mp h).2

lemma nameIssue?_command? {expected : EntityKind} {name : String} {usage : Usage}
    (h : m.nameIssue? expected name usage = some issue) : issue.command? = usage.command? := by
  unfold Movie.nameIssue? at h
  cases hkind : m.kind? name with
  | none =>
    simp only [hkind, Option.some.injEq] at h
    rw [← h]
    rfl
  | some kind =>
    simp only [hkind] at h
    split at h
    · cases h
    · cases h
      rfl

lemma nameIssues_command? {earlier declared : List (String × EntityKind)}
    (h : issue ∈ Movie.nameIssues earlier declared) : issue.command? = none := by
  induction declared generalizing earlier with
  | nil => cases h
  | cons entry declared ih =>
    obtain ⟨name, kind⟩ := entry
    unfold Movie.nameIssues at h
    split at h
    · rcases List.mem_cons.mp h with rfl | h
      · rfl
      · exact ih h
    · rcases List.mem_append.mp h with h | h
      · split at h
        · rw [List.mem_singleton.mp h]
          rfl
        · cases h
      · exact ih h

lemma memberIssues_command? {block : ℕ} {earlier : List String} {members : List (Block K)}
    (h : issue ∈ Movie.memberIssues block earlier members) : issue.command? = none := by
  induction members generalizing earlier with
  | nil => cases h
  | cons b members ih =>
    unfold Movie.memberIssues at h
    split at h
    · rcases List.mem_cons.mp h with rfl | h
      · rfl
      · exact ih h
    · split at h
      · rcases List.mem_cons.mp h with rfl | h
        · rfl
        · exact ih h
      · exact ih h

lemma groupIssues_command? (h : issue ∈ m.groupIssues) : issue.command? = none := by
  obtain ⟨⟨b, block⟩, -, h⟩ := List.mem_flatMap.mp h
  cases b with
  | simultaneous members => exact memberIssues_command? h
  | actor q => cases h
  | camera q => cases h

variable [Scalar K]

lemma zoomIssues_command? {camera : String} {occupancy : Option K} {min max : K}
    (h : issue ∈ Movie.zoomIssues camera occupancy min max) : issue.command? = none := by
  unfold Movie.zoomIssues at h
  rcases List.mem_append.mp h with h | h
  · split at h
    · split at h
      · cases h
      · rw [List.mem_singleton.mp h]
        rfl
    · cases h
  · rw [eq_of_mem_ite h]
    rfl

lemma actorIssues_command? {a : Actor K} (h : issue ∈ Movie.actorIssues a) :
    issue.command? = none := by
  unfold Movie.actorIssues at h
  rcases List.mem_append.mp h with h | h
  · rw [eq_of_mem_ite h]
    rfl
  · rw [eq_of_mem_ite h]
    rfl

lemma splineIssues_command? {spline : Spline K} (h : issue ∈ Movie.splineIssues spline) :
    issue.command? = none := by
  unfold Movie.splineIssues at h
  rcases List.mem_append.mp h with h | h
  · rw [eq_of_mem_ite h]
    rfl
  · rw [eq_of_mem_ite h]
    rfl

lemma cameraIssues_command? {c : Camera K} (h : issue ∈ m.cameraIssues c) :
    issue.command? = none := by
  unfold Movie.cameraIssues at h
  rcases List.mem_append.mp h with h | h
  · rcases List.mem_append.mp h with h | h
    · rw [eq_of_mem_ite h]
      rfl
    · split at h
      · exact nameIssue?_command? (by simpa using h)
      · cases h
  · split at h
    · exact zoomIssues_command? h
    · cases h

lemma eventIssues_command? {event : ℕ} {e : TimelineEvent K} (h : issue ∈ m.eventIssues event e) :
    issue.command? = none := by
  unfold Movie.eventIssues at h
  rcases List.mem_append.mp h with h | h
  · rw [eq_of_mem_ite h]
    rfl
  · split at h
    · exact nameIssue?_command? (by simpa using h)
    · cases h

lemma commandIssues_command? {actor : String} {c : Command K}
    (h : issue ∈ m.commandIssues actor index c) : issue.command? = some (actor, index) := by
  unfold Movie.commandIssues at h
  split at h
  · cases h
  · split at h
    · rw [List.mem_singleton.mp h]
      rfl
    · exact nameIssue?_command? (by simpa using h)
  · cases h
  · rw [eq_of_mem_ite h]
    rfl
  · cases h
  · exact nameIssue?_command? (by simpa using h)

/-- A zoom's bounds are reported for its camera, and not for the command. -/
lemma cameraCommandIssues_command? {camera : String} {c : CameraCommand K}
    (h : issue ∈ m.cameraCommandIssues camera index c) (hcommand : issue.command? ≠ none) :
    issue.command? = some (camera, index) := by
  unfold Movie.cameraCommandIssues at h
  rcases List.mem_append.mp h with h | h
  · split at h
    · exact nameIssue?_command? (by simpa using h)
    · cases h
  · split at h
    · exact absurd (zoomIssues_command? h) hcommand
    · rw [eq_of_mem_ite h]
      rfl
    · rw [eq_of_mem_ite h]
      rfl
    · cases h

/-- A list with a head is split before its head or behind it. -/
lemma exists_split_cons {α : Type} {p : List α → α → List α → Prop} {a : α} {l : List α} :
    (∃ before c after, a :: l = before ++ c :: after ∧ p before c after) ↔
      p [] a l ∨ ∃ before c after, l = before ++ c :: after ∧ p (a :: before) c after := by
  constructor
  · rintro ⟨before, c, after, hsplit, h⟩
    cases before with
    | nil =>
      obtain ⟨rfl, rfl⟩ := List.cons.inj hsplit
      exact Or.inl h
    | cons b before =>
      obtain ⟨rfl, rfl⟩ := List.cons.inj hsplit
      exact Or.inr ⟨before, c, after, rfl, h⟩
  · rintro (h | ⟨before, c, after, rfl, h⟩)
    · exact ⟨[], a, l, rfl, h⟩
    · exact ⟨a :: before, c, after, rfl, h⟩

omit [Scalar K] in
lemma mem_numbered_iff {α : Type} (f : α → ℕ → List (Issue K)) {l : List α} {n : ℕ} :
    issue ∈ (l.zipIdx n).flatMap (fun p => f p.1 p.2) ↔
      ∃ before c after, l = before ++ c :: after ∧ issue ∈ f c (n + before.length) := by
  induction l generalizing n with
  | nil => simp
  | cons a l ih =>
    have hshift (before : List α) : n + 1 + before.length = n + (a :: before).length := by
      rw [List.length_cons, Nat.add_comm before.length, Nat.add_assoc]
    rw [List.zipIdx_cons, List.flatMap_cons, List.mem_append, ih, exists_split_cons]
    simp only [hshift]
    rfl

lemma mem_scriptIssues_iff {earlier units : List (Block K)} :
    issue ∈ m.scriptIssues earlier units ↔ ∃ front b rest, units = front ++ b :: rest ∧
      issue ∈ m.sequenceIssues (front.reverse ++ earlier) b := by
  induction units generalizing earlier with
  | nil => simp [Movie.scriptIssues]
  | cons a units ih =>
    have hshift (front : List (Block K)) :
        front.reverse ++ a :: earlier = (a :: front).reverse ++ earlier := by
      rw [List.reverse_cons, List.append_assoc, List.singleton_append]
    rw [Movie.scriptIssues, List.mem_append, ih, exists_split_cons]
    simp only [hshift]
    rfl

omit [Scalar K] in
/-- A sequence under a wrong name has no other issue, and that one names no command. -/
lemma mem_named_iff {expected : EntityKind} {name : String} {usage : Usage} {issues : List (Issue K)}
    (husage : usage.command? = none) (h : issue.command? ≠ none) :
    (issue ∈ match m.nameIssue? expected name usage with
      | some other => [other]
      | none => issues) ↔ m.nameIssue? expected name usage = none ∧ issue ∈ issues := by
  cases hname : m.nameIssue? expected name usage with
  | some other =>
    simp only [List.mem_singleton, reduceCtorEq, false_and, iff_false]
    rintro rfl
    exact h ((nameIssue?_command? hname).trans husage)
  | none => simp only [true_and]

lemma mem_sequenceIssues_actor_iff {units : List (Block K)} {q : ActorSequence K}
    (h : issue.command? ≠ none) : issue ∈ m.sequenceIssues units (.actor q) ↔
      m.nameIssue? .actor q.actor .actorSequence = none ∧ ∃ before c after,
        q.commands = before ++ c :: after ∧ issue ∈ m.commandIssues q.actor
          (Movie.actorCommandCount q.actor units + before.length) c := by
  refine (mem_named_iff rfl h).trans (and_congr_right fun _ => ?_)
  exact mem_numbered_iff fun c i => m.commandIssues q.actor i c

lemma mem_sequenceIssues_camera_iff {units : List (Block K)} {q : CameraSequence K}
    (h : issue.command? ≠ none) : issue ∈ m.sequenceIssues units (.camera q) ↔
      m.nameIssue? .camera q.camera .cameraSequence = none ∧ ∃ before c after,
        q.commands = before ++ c :: after ∧ issue ∈ m.cameraCommandIssues q.camera
          (Movie.cameraCommandCount q.camera units + before.length) c := by
  refine (mem_named_iff rfl h).trans (and_congr_right fun _ => ?_)
  exact mem_numbered_iff fun c i => m.cameraCommandIssues q.camera i c

/-- A command breaks a rule of the movie, in the eyes of the check. -/
inductive Offends (m : Movie K) (entity : String) (index : ℕ) : Issue K → Prop
  | actor {c : Command K} {issue : Issue K}
    (hentity : m.nameIssue? .actor entity .actorSequence = none)
    (hc : (m.commandsFor entity)[index]? = some c)
    (hissue : issue ∈ m.commandIssues entity index c) : Offends m entity index issue
  | camera {c : CameraCommand K} {issue : Issue K}
    (hentity : m.nameIssue? .camera entity .cameraSequence = none)
    (hc : (cueCommands m entity)[index]? = some c)
    (hissue : issue ∈ m.cameraCommandIssues entity index c) : Offends m entity index issue
  | tillEnd {a : Actor K} {c : Command K} (ha : a ∈ m.actors) (hname : a.name = entity)
    (hc : (m.commandsFor entity)[index]? = some c) (hend : c.isTillEnd = true)
    (hfirst : ∀ c' ∈ (m.commandsFor entity).take index, c'.isTillEnd = false)
    (hnext : index + 1 < (m.commandsFor entity).length) :
    Offends m entity index (.command entity index .tillEndNotLast)

omit [Scalar K] in
/-- An actor is stopped at its first stay to the end, when more commands follow. -/
lemma mem_tillEndIssues_iff {a : Actor K} : issue ∈ m.tillEndIssues a ↔ ∃ index c,
    (m.commandsFor a.name)[index]? = some c ∧ c.isTillEnd = true ∧
    (∀ c' ∈ (m.commandsFor a.name).take index, c'.isTillEnd = false) ∧
    index + 1 < (m.commandsFor a.name).length ∧ issue = .command a.name index .tillEndNotLast := by
  unfold Movie.tillEndIssues
  generalize m.commandsFor a.name = commands
  constructor
  · intro h
    cases hfind : commands.findIdx? Command.isTillEnd with
    | none => simp [hfind] at h
    | some index =>
      simp only [hfind] at h
      obtain ⟨hnext, h⟩ := List.mem_ite_nil_right.mp h
      obtain ⟨hlt, hend, hfirst⟩ := List.findIdx?_eq_some_iff_getElem.mp hfind
      refine ⟨index, commands[index], List.getElem?_eq_getElem hlt, hend, ?_, hnext,
        List.mem_singleton.mp h⟩
      intro c' hc'
      obtain ⟨j, hj, rfl⟩ := List.mem_take_iff_getElem.mp hc'
      exact Bool.eq_false_iff.mpr (hfirst j (lt_min_iff.mp hj).1)
  · rintro ⟨index, c, hc, hend, hfirst, hnext, rfl⟩
    obtain ⟨hlt, rfl⟩ := List.getElem?_eq_some_iff.mp hc
    have hfind : commands.findIdx? Command.isTillEnd = some index := by
      refine List.findIdx?_eq_some_iff_getElem.mpr ⟨hlt, hend, fun j hj => ?_⟩
      exact Bool.eq_false_iff.mp
        (hfirst _ (List.mem_take_iff_getElem.mpr ⟨j, lt_min hj (hj.trans hlt), rfl⟩))
    simp [hfind, hnext]

/-- Commands are named by the checks of the script and of the stays to the end alone. -/
lemma mem_issues_iff_of_command? (h : issue.command? ≠ none) : issue ∈ m.issues ↔
    issue ∈ m.scriptIssues [] m.sequences ∨ ∃ a ∈ m.actors, issue ∈ m.tillEndIssues a := by
  have hlists : ∀ {α : Type} {f : α → List (Issue K)} {l : List α},
      (∀ a, issue ∈ f a → issue.command? = none) → issue ∉ l.flatMap f := by
    intro α f l hf hissue
    obtain ⟨a, -, hissue⟩ := List.mem_flatMap.mp hissue
    exact h (hf a hissue)
  unfold Movie.issues
  simp only [List.mem_append]
  constructor
  · rintro (((((((((hissue | hissue) | hissue) | hissue) | hissue) | hissue) | hissue) | hissue) |
      hissue) | hissue)
    · rw [List.mem_singleton.mp (List.mem_ite_nil_left.mp hissue).2] at h
      exact absurd rfl h
    · split at hissue
      · rw [eq_of_mem_ite hissue] at h
        exact absurd rfl h
      · cases hissue
    · exact absurd (nameIssues_command? hissue) h
    · exact absurd hissue (hlists fun _ => actorIssues_command?)
    · exact absurd hissue (hlists fun _ => cameraIssues_command?)
    · exact absurd hissue (hlists fun _ => splineIssues_command?)
    · exact absurd (groupIssues_command? hissue) h
    · exact Or.inl hissue
    · exact Or.inr (List.mem_flatMap.mp hissue)
    · exact absurd hissue (hlists fun _ => eventIssues_command?)
  · rintro (hissue | hissue)
    · exact Or.inl (Or.inl (Or.inr hissue))
    · exact Or.inl (Or.inr (List.mem_flatMap.mpr hissue))

/-- The commands that issues name are those that break the rules, and all of them are named. -/
theorem issue_names_offender (h : issue.command? = some (entity, index)) :
    issue ∈ m.issues ↔ Offends m entity index issue := by
  have hcommand : issue.command? ≠ none := by
    rw [h]
    exact Option.some_ne_none _
  rw [mem_issues_iff_of_command? hcommand, mem_scriptIssues_iff]
  constructor
  · rintro (⟨earlier, b, later, hsequences, hissue⟩ | ⟨a, ha, hissue⟩)
    · rw [List.append_nil] at hissue
      cases b with
      | actor q =>
        obtain ⟨hentity, before, c, after, hcommands, hissue⟩ :=
          (mem_sequenceIssues_actor_iff hcommand).mp hissue
        rw [actorCommandCount_reverse] at hissue
        cases h.symm.trans (commandIssues_command? hissue)
        exact .actor hentity (commandsFor_getElem?_iff.mpr
          ⟨earlier, q, later, before, after, hsequences, rfl, hcommands, rfl⟩) hissue
      | camera q =>
        obtain ⟨hentity, before, c, after, hcommands, hissue⟩ :=
          (mem_sequenceIssues_camera_iff hcommand).mp hissue
        rw [cameraCommandCount_reverse] at hissue
        cases h.symm.trans (cameraCommandIssues_command? hissue hcommand)
        exact .camera hentity (cueCommands_getElem?_iff.mpr
          ⟨earlier, q, later, before, after, hsequences, rfl, hcommands, rfl⟩) hissue
      | simultaneous members => cases hissue
    · obtain ⟨i, c, hc, hend, hfirst, hnext, rfl⟩ := mem_tillEndIssues_iff.mp hissue
      cases h
      exact .tillEnd ha rfl hc hend hfirst hnext
  · intro hoffends
    cases hoffends with
    | actor hentity hc hissue =>
      obtain ⟨earlier, q, later, before, after, hsequences, rfl, hcommands, rfl⟩ :=
        commandsFor_getElem?_iff.mp hc
      refine Or.inl ⟨earlier, .actor q, later, hsequences, ?_⟩
      rw [mem_sequenceIssues_actor_iff hcommand, List.append_nil, actorCommandCount_reverse]
      exact ⟨hentity, before, _, after, hcommands, hissue⟩
    | camera hentity hc hissue =>
      obtain ⟨earlier, q, later, before, after, hsequences, rfl, hcommands, rfl⟩ :=
        cueCommands_getElem?_iff.mp hc
      refine Or.inl ⟨earlier, .camera q, later, hsequences, ?_⟩
      rw [mem_sequenceIssues_camera_iff hcommand, List.append_nil, cameraCommandCount_reverse]
      exact ⟨hentity, before, _, after, hcommands, hissue⟩
    | tillEnd ha hname hc hend hfirst hnext =>
      subst hname
      exact Or.inr ⟨_, ha, mem_tillEndIssues_iff.mpr ⟨index, _, hc, hend, hfirst, hnext, rfl⟩⟩

end Issues

end Stagecraft.Proofs
