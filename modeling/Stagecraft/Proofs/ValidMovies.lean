import Stagecraft.Movie.Validation
import Stagecraft.Proofs.Outcomes
import Stagecraft.Proofs.RealScalar

/-!
# Valid movies

What a movie without issues is known to satisfy: a rate that divides time, names that tell the
entities apart, and commands whose own checks pass.
-/

namespace Stagecraft.Proofs

section Names

variable {K : Type} {m : Movie K}

lemma nameIssues_nil {earlier l : List (String × EntityKind)}
    (h : Movie.nameIssues (K := K) earlier l = []) :
    (l.map Prod.fst).Nodup ∧ ∀ e ∈ l, isBlankText e.1 = false ∧ earlier.lookup e.1 = none := by
  induction l generalizing earlier with
  | nil => exact ⟨List.nodup_nil, fun e he => absurd he List.not_mem_nil⟩
  | cons entity rest ih =>
    obtain ⟨name, kind⟩ := entity
    unfold Movie.nameIssues at h
    cases hblank : isBlankText name with
    | true => simp [hblank] at h
    | false =>
      simp only [hblank, Bool.false_eq_true, if_false, List.append_eq_nil_iff] at h
      obtain ⟨hfirst, hrest⟩ := h
      have hnew : earlier.lookup name = none := by
        cases hl : earlier.lookup name with
        | none => rfl
        | some first => simp [hl] at hfirst
      obtain ⟨hnodup, hlater⟩ := ih hrest
      have hlookup : ∀ e ∈ rest, e.1 ≠ name ∧ earlier.lookup e.1 = none := by
        intro e he
        have hl := (hlater e he).2
        rw [List.lookup_cons] at hl
        cases heq : e.1 == name with
        | true => simp [heq] at hl
        | false =>
          simp only [heq] at hl
          exact ⟨by simpa using heq, hl⟩
      refine ⟨List.nodup_cons.mpr ⟨?_, hnodup⟩, ?_⟩
      · intro hmem
        obtain ⟨e, he, hname⟩ := List.mem_map.mp hmem
        exact (hlookup e he).1 hname
      · intro e he
        rcases List.mem_cons.mp he with rfl | he
        · exact ⟨hblank, hnew⟩
        · exact ⟨(hlater e he).1, (hlookup e he).2⟩

lemma mem_of_lookup {l : List (String × EntityKind)} {name : String} {kind : EntityKind}
    (h : l.lookup name = some kind) : (name, kind) ∈ l := by
  obtain ⟨front, rest, rfl, -⟩ := List.lookup_eq_some_iff.mp h
  exact List.mem_append_right front List.mem_cons_self

/-- A name that passes its check is declared with the kind it is used for. -/
lemma declared_of_nameIssue? {expected : EntityKind} {name : String} {usage : Usage}
    (h : m.nameIssue? expected name usage = none) : (name, expected) ∈ m.declared := by
  unfold Movie.nameIssue? at h
  cases hk : m.kind? name with
  | none => simp [hk] at h
  | some kind =>
    simp only [hk] at h
    have hkind : kind = expected := by
      by_contra hne
      simp [hne] at h
    unfold Movie.kind? at hk
    cases hblank : isBlankText name with
    | true => simp [hblank] at hk
    | false =>
      simp only [hblank, Bool.false_eq_true, if_false] at hk
      rw [← hkind]
      exact List.mem_reverse.mp (mem_of_lookup hk)

/-- Whether a name passes does not depend on where it is used. -/
lemma nameIssue?_none {expected : EntityKind} {name : String} {usage : Usage} (usage' : Usage)
    (h : m.nameIssue? expected name usage = none) : m.nameIssue? expected name usage' = none := by
  unfold Movie.nameIssue? at h ⊢
  cases hkind : m.kind? name with
  | none => simp [hkind] at h
  | some kind =>
    simp only [hkind] at h ⊢
    by_cases hexpected : kind = expected
    · rw [if_pos hexpected]
    · rw [if_neg hexpected] at h
      cases h

lemma mem_declared_actor {name : String} (h : (name, EntityKind.actor) ∈ m.declared) :
    ∃ a ∈ m.actors, a.name = name := by
  simpa [Movie.declared] using h

lemma mem_declared_camera {name : String} (h : (name, EntityKind.camera) ∈ m.declared) :
    ∃ c ∈ m.cameras, c.name = name := by
  simpa [Movie.declared] using h

lemma mem_declared_spline {name : String} (h : (name, EntityKind.spline) ∈ m.declared) :
    ∃ s ∈ m.splines, s.name = name := by
  simpa [Movie.declared] using h

end Names

section Script

variable {K : Type} {m : Movie K}

/-- The members of a group pass when each drives an entity and no two the same. -/
lemma memberIssues_nil_iff {block : ℕ} {earlier : List String} {l : List (Block K)} :
    Movie.memberIssues block earlier l = [] ↔ (∀ b ∈ l, b.entity? ≠ none) ∧
      (l.map Block.entity?).Nodup ∧ ∀ b ∈ l, ∀ name ∈ earlier, b.entity? ≠ some name := by
  induction l generalizing earlier with
  | nil => simp [Movie.memberIssues]
  | cons b rest ih =>
    unfold Movie.memberIssues
    cases hb : b.entity? with
    | none => simp [hb]
    | some name =>
      by_cases hmem : name ∈ earlier
      · simp only [hmem, if_true, reduceCtorEq, false_iff]
        exact fun h => h.2.2 b List.mem_cons_self name hmem hb
      · simp only [hmem, if_false, ih, List.forall_mem_cons, List.map_cons, List.nodup_cons, hb]
        grind

/-- It only matters which entities the members drive, in any order. -/
lemma memberIssues_nil_of_perm {l l' : List (Block K)}
    (hperm : (l.map Block.entity?).Perm (l'.map Block.entity?))
    (h : Movie.memberIssues 0 [] l = []) : Movie.memberIssues 0 [] l' = [] := by
  obtain ⟨hdriven, hnodup, -⟩ := memberIssues_nil_iff.mp h
  refine memberIssues_nil_iff.mpr ⟨fun b hb hnone => ?_, hperm.nodup_iff.mp hnodup, ?_⟩
  · have hmem : none ∈ l.map Block.entity? := by
      rw [hperm.mem_iff, ← hnone]
      exact List.mem_map_of_mem hb
    obtain ⟨b', hb', hnone'⟩ := List.mem_map.mp hmem
    exact hdriven b' hb' hnone'
  · exact fun b _ name hname => absurd hname List.not_mem_nil

/-- A stay to the end may only be the last command of its actor. -/
lemma tillEndIssues_nil_iff_dropLast {a : Actor K} : m.tillEndIssues a = [] ↔
    ∀ c ∈ (m.commandsFor a.name).dropLast, c.isTillEnd = false := by
  unfold Movie.tillEndIssues
  dsimp only
  cases hfind : (m.commandsFor a.name).findIdx? Command.isTillEnd with
  | none =>
    rw [List.findIdx?_eq_none_iff] at hfind
    exact iff_of_true rfl fun c hc => hfind c (List.mem_of_mem_dropLast hc)
  | some index =>
    obtain ⟨hlt, htill, hfirst⟩ := List.findIdx?_eq_some_iff_getElem.mp hfind
    dsimp only
    rw [List.forall_mem_iff_forall_getElem]
    constructor
    · intro hnil i hi
      rw [List.length_dropLast] at hi
      have hlast : ¬index + 1 < (m.commandsFor a.name).length := by
        intro hlate
        rw [if_pos hlate] at hnil
        cases hnil
      rw [List.getElem_dropLast]
      exact Bool.eq_false_iff.mpr (hfirst i (by omega))
    · intro hopen
      refine if_neg fun hlate => ?_
      have hclash := hopen index (by rw [List.length_dropLast]; omega)
      rw [List.getElem_dropLast, htill] at hclash
      cases hclash

variable [Scalar K]

lemma numbered_flatMap_nil_iff {α β : Type} {f : α → ℕ → List β}
    (hf : ∀ a i j, f a i = [] → f a j = []) {l : List α} {n : ℕ} :
    ((l.zipIdx n).flatMap fun p => f p.1 p.2) = [] ↔ ∀ a ∈ l, f a 0 = [] := by
  rw [List.flatMap_eq_nil_iff]
  induction l generalizing n with
  | nil => simp
  | cons a l ih =>
    rw [List.zipIdx_cons, List.forall_mem_cons, List.forall_mem_cons, ih]
    exact and_congr_left fun _ => ⟨hf a n 0, hf a 0 n⟩

omit [Scalar K] in
/-- The groups of a script pass when the members of each do, wherever it stands. -/
theorem groupIssues_nil_iff : m.groupIssues = [] ↔ ∀ b ∈ m.script, ∀ members,
    b = .simultaneous members → Movie.memberIssues 0 [] members = [] := by
  unfold Movie.groupIssues
  rw [List.flatMap_eq_nil_iff, List.forall_mem_zipIdx', List.forall_mem_iff_forall_getElem]
  refine forall₂_congr fun i hi => ?_
  cases m.script[i] with
  | actor q => exact iff_of_true rfl nofun
  | camera q => exact iff_of_true rfl nofun
  | simultaneous members =>
    constructor
    · rintro h _ ⟨⟩
      exact memberIssues_nil_iff.mpr (memberIssues_nil_iff.mp h)
    · exact fun h => memberIssues_nil_iff.mpr (memberIssues_nil_iff.mp (h members rfl))

/-- Whether a command to an actor passes does not depend on its index. -/
lemma commandIssues_nil {actor : String} {c : Command K} {i : ℕ} (j : ℕ)
    (h : m.commandIssues actor i c = []) : m.commandIssues actor j c = [] := by
  cases c with
  | move c => rfl
  | face c =>
    obtain ⟨target, duration, animation⟩ := c
    cases target with
    | direction d offset => rfl
    | yaw degrees => rfl
    | actor name =>
      unfold Movie.commandIssues at h ⊢
      by_cases hself : name = actor
      · simp [hself] at h
      · simp only [hself, if_false, Option.toList_eq_nil_iff] at h ⊢
        exact nameIssue?_none _ h
  | stay c =>
    obtain ⟨length, animation⟩ := c
    cases length with
    | lasting span => rfl
    | waiting moment =>
      unfold Movie.commandIssues at h ⊢
      by_cases hpast : moment.internal < 0
      · simp [hpast] at h
      · simp [hpast]
    | tillEnd => rfl
  | follow c =>
    unfold Movie.commandIssues at h ⊢
    rw [Option.toList_eq_nil_iff] at h ⊢
    exact nameIssue?_none _ h

/-- Nor does it for a command to a camera. -/
lemma cameraCommandIssues_nil {camera : String} {c : CameraCommand K} {i : ℕ} (j : ℕ)
    (h : m.cameraCommandIssues camera i c = []) : m.cameraCommandIssues camera j c = [] := by
  unfold Movie.cameraCommandIssues at h ⊢
  obtain ⟨hsubject, hcommand⟩ := List.append_eq_nil_iff.mp h
  refine List.append_eq_nil_iff.mpr ⟨?_, ?_⟩
  · cases hs : c.subject? with
    | none => rfl
    | some subject =>
      simp only [hs, Option.toList_eq_nil_iff] at hsubject ⊢
      exact nameIssue?_none _ hsubject
  · cases c with
    | setFocalLength mm =>
      by_cases hmm : mm ≤ 0
      · simp [hmm] at hcommand
      · simp [hmm]
    | hold duration =>
      by_cases hpast : duration.internal < 0
      · simp [hpast] at hcommand
      · simp [hpast]
    | autoZoom subject occupancy minFocal maxFocal => exact hcommand
    | lookAt | autoFocus | stopTracking => rfl

lemma sequenceIssues_actor_nil_iff {before : List (Block K)} {q : ActorSequence K} :
    m.sequenceIssues before (.actor q) = [] ↔
      m.nameIssue? .actor q.actor .actorSequence = none ∧
        ∀ c ∈ q.commands, m.commandIssues q.actor 0 c = [] := by
  unfold Movie.sequenceIssues
  cases hname : m.nameIssue? .actor q.actor .actorSequence with
  | some issue => simp [hname]
  | none =>
    have hnumbered := numbered_flatMap_nil_iff (f := fun c i => m.commandIssues q.actor i c)
      (fun _ _ j => commandIssues_nil j) (l := q.commands)
      (n := Movie.actorCommandCount q.actor before)
    simp only [hname, true_and]
    exact hnumbered

lemma sequenceIssues_camera_nil_iff {before : List (Block K)} {q : CameraSequence K} :
    m.sequenceIssues before (.camera q) = [] ↔
      m.nameIssue? .camera q.camera .cameraSequence = none ∧
        ∀ c ∈ q.commands, m.cameraCommandIssues q.camera 0 c = [] := by
  unfold Movie.sequenceIssues
  cases hname : m.nameIssue? .camera q.camera .cameraSequence with
  | some issue => simp [hname]
  | none =>
    have hnumbered := numbered_flatMap_nil_iff
      (f := fun c i => m.cameraCommandIssues q.camera i c)
      (fun _ _ j => cameraCommandIssues_nil j) (l := q.commands)
      (n := Movie.cameraCommandCount q.camera before)
    simp only [hname, true_and]
    exact hnumbered

/-- A script passes when each of its sequences does, wherever it stands. -/
theorem scriptIssues_nil_iff {earlier l : List (Block K)} :
    m.scriptIssues earlier l = [] ↔ ∀ b ∈ l, m.sequenceIssues [] b = [] := by
  have hplace : ∀ (before : List (Block K)) (b : Block K),
      m.sequenceIssues before b = [] ↔ m.sequenceIssues [] b = [] := by
    intro before b
    cases b with
    | actor q => rw [sequenceIssues_actor_nil_iff, sequenceIssues_actor_nil_iff]
    | camera q => rw [sequenceIssues_camera_nil_iff, sequenceIssues_camera_nil_iff]
    | simultaneous members => rfl
  induction l generalizing earlier with
  | nil => simp [Movie.scriptIssues]
  | cons b rest ih =>
    rw [Movie.scriptIssues, List.append_eq_nil_iff, hplace, List.forall_mem_cons]
    exact and_congr_right fun _ => ih

end Script

section Checks

variable {K : Type} [Scalar K] {m : Movie K}

/-- The checks of names and of the script that a movie without issues has passed. -/
structure Checked (m : Movie K) : Prop where
  names_nodup : (m.declared.map Prod.fst).Nodup
  splines_pass : ∀ s ∈ m.splines, Movie.splineIssues s = []
  groups_pass : m.groupIssues = []
  script_passes : m.scriptIssues [] m.sequences = []
  ends_pass : ∀ a ∈ m.actors, m.tillEndIssues a = []

theorem checked_of_issues_nil (h : m.issues = []) : Checked m := by
  simp only [Movie.issues, List.append_eq_nil_iff, List.flatMap_eq_nil_iff] at h
  obtain ⟨⟨⟨⟨⟨⟨-, hnames⟩, -⟩, -⟩, hsplines⟩, hgroups⟩, hscript⟩ := h.1.1
  exact ⟨(nameIssues_nil hnames).1, hsplines, hgroups, hscript, h.1.2⟩

namespace Checked

lemma actorNames_nodup (h : Checked m) : (m.actors.map Actor.name).Nodup := by
  have hnames := h.names_nodup
  simp only [Movie.declared, List.map_append, List.map_map] at hnames
  exact (List.nodup_append.mp (List.nodup_append.mp (List.nodup_append.mp hnames).1).1).1

lemma cameraNames_nodup (h : Checked m) : (m.cameras.map Camera.name).Nodup := by
  have hnames := h.names_nodup
  simp only [Movie.declared, List.map_append, List.map_map] at hnames
  exact (List.nodup_append.mp (List.nodup_append.mp (List.nodup_append.mp hnames).1).1).2.1

lemma actor_ne_camera (h : Checked m) {a : Actor K} (ha : a ∈ m.actors) {c : Camera K}
    (hc : c ∈ m.cameras) : a.name ≠ c.name := by
  have hnames := h.names_nodup
  simp only [Movie.declared, List.map_append, List.map_map] at hnames
  have hapart := (List.nodup_append.mp (List.nodup_append.mp (List.nodup_append.mp hnames).1).1).2.2
  exact hapart _ (List.mem_map_of_mem ha) _ (List.mem_map_of_mem hc)

/-- The members of a group each drive an entity. -/
lemma members_driven (h : Checked m) {members : List (Block K)}
    (hmembers : Block.simultaneous members ∈ m.script) : ∀ b ∈ members, b.entity? ≠ none := by
  have hgroup := groupIssues_nil_iff.mp h.groups_pass _ hmembers members rfl
  exact (memberIssues_nil_iff.mp hgroup).1

/-- An actor's sequences address a declared actor, and each command of theirs passes. -/
lemma actor_sequence (h : Checked m) {q : ActorSequence K} (hq : Block.actor q ∈ m.sequences) :
    (∃ a ∈ m.actors, a.name = q.actor) ∧ ∀ c ∈ q.commands, m.commandIssues q.actor 0 c = [] := by
  obtain ⟨hname, hcommands⟩ :=
    sequenceIssues_actor_nil_iff.mp (scriptIssues_nil_iff.mp h.script_passes _ hq)
  exact ⟨mem_declared_actor (declared_of_nameIssue? hname), hcommands⟩

/-- A camera's sequences address a declared camera, and each command of theirs passes. -/
lemma camera_sequence (h : Checked m) {q : CameraSequence K}
    (hq : Block.camera q ∈ m.sequences) : (∃ c ∈ m.cameras, c.name = q.camera) ∧
      ∀ c ∈ q.commands, m.cameraCommandIssues q.camera 0 c = [] := by
  obtain ⟨hname, hcommands⟩ :=
    sequenceIssues_camera_nil_iff.mp (scriptIssues_nil_iff.mp h.script_passes _ hq)
  exact ⟨mem_declared_camera (declared_of_nameIssue? hname), hcommands⟩

/-- The actor a camera's command follows is declared. -/
lemma subject_declared (h : Checked m) {q : CameraSequence K} (hq : Block.camera q ∈ m.sequences)
    {c : CameraCommand K} (hc : c ∈ q.commands) {name : String} (hname : c.subject? = some name) :
    ∃ a ∈ m.actors, a.name = name := by
  have hpass := (h.camera_sequence hq).2 c hc
  unfold Movie.cameraCommandIssues at hpass
  obtain ⟨hsubject, -⟩ := List.append_eq_nil_iff.mp hpass
  rw [hname] at hsubject
  exact mem_declared_actor (declared_of_nameIssue? (by simpa using hsubject))

end Checked

/-- The checks a movie without issues has passed. -/
structure Valid (m : Movie ℝ) : Prop extends Checked m where
  rate_pos : 0 < m.fps.fps
  duration_nonneg : ∀ d, m.duration = some d → 0 ≤ d.internal
  actors_pass : ∀ a ∈ m.actors, Movie.actorIssues a = []
  cameras_pass : ∀ c ∈ m.cameras, m.cameraIssues c = []

theorem valid_of_issues_nil {m : Movie ℝ} (h : m.issues = []) : Valid m := by
  have hchecked := checked_of_issues_nil h
  simp only [Movie.issues, List.append_eq_nil_iff, List.flatMap_eq_nil_iff] at h
  obtain ⟨⟨⟨⟨⟨⟨⟨⟨⟨hrate, hduration⟩, -⟩, hactors⟩, hcameras⟩, -⟩, -⟩, -⟩, -⟩, -⟩ := h
  refine ⟨hchecked, ?_, ?_, hactors, hcameras⟩
  · rw [← isValid_real]
    by_contra hne
    simp [hne] at hrate
  · intro d hd
    by_contra hneg
    rw [hd] at hduration
    simp [not_le.mp hneg] at hduration

lemma actorIssues_named (name : String) : Movie.actorIssues (Actor.named name : Actor ℝ) = [] := by
  have hradius : (Actor.named name : Actor ℝ).radius.internal = 0.35 * 100 := rfl
  have hheight : (Actor.named name : Actor ℝ).height.internal = 1.8 * 100 := rfl
  unfold Movie.actorIssues
  rw [hradius, hheight, zero_real, if_neg (by norm_num), if_neg (by norm_num)]
  rfl

end Checks

section Alike

variable {K : Type} [Scalar K] {m m' : Movie K}

/-- Two movies that differ in nothing that is checked. -/
structure ChecksLike (m m' : Movie K) : Prop where
  name_eq : m'.name = m.name
  fps_eq : m'.fps = m.fps
  duration_eq : m'.duration = m.duration
  script_eq : m'.script = m.script
  timeline_eq : m'.timeline = m.timeline
  declared_eq : m'.declared = m.declared
  actors_alike : List.Forall₂ (fun a a' =>
    Movie.actorIssues a' = Movie.actorIssues a ∧ a'.name = a.name) m.actors m'.actors
  cameras_alike : List.Forall₂ (fun c c' => m.cameraIssues c' = m.cameraIssues c)
    m.cameras m'.cameras
  splines_alike : List.Forall₂ (fun s s' => Movie.splineIssues s' = Movie.splineIssues s)
    m.splines m'.splines

omit [Scalar K] in
/-- Names are looked up among what is declared. -/
lemma nameIssue?_congr (h : m'.declared = m.declared) : m'.nameIssue? = m.nameIssue? := by
  funext expected name usage
  unfold Movie.nameIssue? Movie.kind?
  rw [h]

lemma sequenceIssues_congr (h : m'.declared = m.declared) :
    m'.sequenceIssues = m.sequenceIssues := by
  have hname := nameIssue?_congr h
  have hcommand : m'.commandIssues = m.commandIssues := by
    funext actor index c
    unfold Movie.commandIssues
    rw [hname]
  have hcamera : m'.cameraCommandIssues = m.cameraCommandIssues := by
    funext camera index c
    unfold Movie.cameraCommandIssues
    rw [hname]
  funext earlier b
  unfold Movie.sequenceIssues
  rw [hname, hcommand, hcamera]

lemma scriptIssues_congr (h : m'.declared = m.declared) (earlier l : List (Block K)) :
    m'.scriptIssues earlier l = m.scriptIssues earlier l := by
  induction l generalizing earlier with
  | nil => rfl
  | cons b rest ih =>
    unfold Movie.scriptIssues
    rw [sequenceIssues_congr h, ih]

/-- Movies that differ in nothing that is checked have the same issues. -/
theorem ChecksLike.issues_eq (h : ChecksLike m m') : m'.issues = m.issues := by
  have hname := nameIssue?_congr h.declared_eq
  have hsequences : m'.sequences = m.sequences := by
    unfold Movie.sequences
    rw [h.script_eq]
  have hgroups : m'.groupIssues = m.groupIssues := by
    unfold Movie.groupIssues
    rw [h.script_eq]
  have hcamera : m'.cameraIssues = m.cameraIssues := by
    funext c
    unfold Movie.cameraIssues
    rw [hname]
  have hevents : m'.eventIssues = m.eventIssues := by
    funext index e
    unfold Movie.eventIssues
    rw [hname]
  have htillEnd : m'.actors.flatMap m'.tillEndIssues = m.actors.flatMap m.tillEndIssues := by
    refine flatMap_eq_of_forall₂ (h.actors_alike.imp fun a a' ha => ?_)
    unfold Movie.tillEndIssues Movie.commandsFor
    rw [hsequences, ha.2]
  unfold Movie.issues
  rw [h.fps_eq, h.name_eq, h.duration_eq, h.declared_eq, hgroups, hsequences, htillEnd,
    scriptIssues_congr h.declared_eq, hcamera, hevents, h.timeline_eq,
    flatMap_eq_of_forall₂ (h.actors_alike.imp fun _ _ ha => ha.1),
    flatMap_eq_of_forall₂ h.cameras_alike, flatMap_eq_of_forall₂ h.splines_alike]

end Alike

end Stagecraft.Proofs
