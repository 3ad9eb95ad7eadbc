import Stagecraft.Proofs.OrderedNumbers
import Stagecraft.Proofs.ValidMovies
import Stagecraft.Proofs.WrittenMovies

/-!
# Well-formed movies

A movie in which no number is undefined has no issues exactly when it is well formed, part by part.
The checks take short cuts: a name that is blank or repeated is looked up as if it were not, a
sequence for no known entity is passed over, and a group within a group is not looked into. Each of
them is sound because what was cut short is an issue by itself.
-/

namespace Stagecraft

variable {K : Type} [Scalar K]

/-- A zoom that can be framed. -/
structure ZoomFits (occupancy : Option K) (least greatest : K) : Prop where
  occupancy : ∀ o, occupancy = some o → 0 < o ∧ o ≤ 1
  least_pos : 0 < least
  ordered : least ≤ greatest

structure ActorFits (a : Actor K) : Prop where
  radius_nonneg : 0 ≤ a.radius.internal
  height_pos : 0 < a.height.internal

structure CameraFits (m : Movie K) (c : Camera K) : Prop where
  sensorHeight_pos : 0 < c.sensorHeight
  focalLength_pos : 0 < c.focalLength
  attached : ∀ t, c.attachment = some t → ∃ a ∈ m.actors, a.name = t.actor
  zoom : ∀ z, c.autoZoom = some z → ZoomFits (some z.occupancy) z.minFocal z.maxFocal

structure SplineFits (s : Spline K) : Prop where
  two_points : 2 ≤ s.points.length
  tension_nonneg : 0 ≤ s.tension

/-- A group of sequences, no two of one entity. -/
structure GroupFits (members : List (Block K)) : Prop where
  flat : ∀ inner, .simultaneous inner ∉ members
  apart : (members.map Block.entity?).Nodup

/-- What a command asks of the movie and of its actor. -/
def CommandFits (m : Movie K) (actor : String) : Command K → Prop
  | .move _ => True
  | .face ⟨.actor name, _, _⟩ => name ≠ actor ∧ ∃ a ∈ m.actors, a.name = name
  | .face _ => True
  | .stay ⟨.waiting moment, _⟩ => 0 ≤ moment.internal
  | .stay _ => True
  | .follow c => ∃ s ∈ m.splines, s.name = c.spline

/-- What a command asks of a camera. The least and the greatest number stand in for a bound that is
not stated. -/
def ShotFits : CameraCommand K → Prop
  | .autoZoom _ occupancy minFocal maxFocal =>
    ZoomFits occupancy (minFocal.getD Scalar.leastNormal) (maxFocal.getD Scalar.greatest)
  | .setFocalLength mm => 0 < mm
  | .hold duration => 0 ≤ duration.internal
  | _ => True

structure CameraCommandFits (m : Movie K) (c : CameraCommand K) : Prop where
  subject : ∀ name, c.subject? = some name → ∃ a ∈ m.actors, a.name = name
  shot : ShotFits c

structure EventFits (m : Movie K) (e : TimelineEvent K) : Prop where
  moment_nonneg : 0 ≤ e.moment.internal
  cut : ∀ moment camera, e = .cameraCut moment camera → ∃ c ∈ m.cameras, c.name = camera

/-- A movie that can be told apart by its names and whose parts fit together. -/
structure WellFormed (m : Movie K) : Prop where
  rate : Scalar.isFinite m.fps.fps = true ∧ 0 < m.fps.fps
  duration_nonneg : ∀ d, m.duration = some d → 0 ≤ d.internal
  named : ∀ e ∈ m.declared, isBlankText e.1 = false
  distinct : (m.declared.map Prod.fst).Nodup
  actors : ∀ a ∈ m.actors, ActorFits a
  cameras : ∀ c ∈ m.cameras, CameraFits m c
  splines : ∀ s ∈ m.splines, SplineFits s
  groups : ∀ members, .simultaneous members ∈ m.script → GroupFits members
  actorSequences : ∀ q, .actor q ∈ m.sequences →
    (∃ a ∈ m.actors, a.name = q.actor) ∧ ∀ c ∈ q.commands, CommandFits m q.actor c
  cameraSequences : ∀ q, .camera q ∈ m.sequences →
    (∃ c ∈ m.cameras, c.name = q.camera) ∧ ∀ c ∈ q.commands, CameraCommandFits m c
  stays : ∀ a ∈ m.actors, ∀ before c after, m.commandsFor a.name = before ++ c :: after →
    (∀ b ∈ before, b.isTillEnd = false) → c.isTillEnd = true → after = []
  events : ∀ e ∈ m.timeline, EventFits m e

end Stagecraft

namespace Stagecraft.Proofs

section Numbers

variable {K α : Type} [Scalar K] {P : K → Prop} {encode : α → Json K}

/-- All numbers of a value satisfy a predicate. -/
def Each (P : K → Prop) (v : Json K) : Prop :=
  ∀ n ∈ v.numbers, P n.value

@[simp] lemma each_ofReal (x : K) : Each P (.ofReal x) ↔ P x := by
  simp [Each, Json.ofReal, Json.numbers, Number.value]

@[simp] lemma each_str (s : String) : Each P (.str s) :=
  fun _ hn => absurd hn List.not_mem_nil

@[simp] lemma each_obj_nil : Each P (.obj []) :=
  fun _ hn => absurd hn List.not_mem_nil

@[simp] lemma each_obj_cons {name : String} {v : Json K} {ms : List (String × Json K)} :
    Each P (.obj ((name, v) :: ms)) ↔ Each P v ∧ Each P (.obj ms) := by
  unfold Each
  rw [← List.forall_mem_append]
  rfl

@[simp] lemma each_obj_append {ms ns : List (String × Json K)} :
    Each P (.obj (ms ++ ns)) ↔ Each P (.obj ms) ∧ Each P (.obj ns) := by
  induction ms with
  | nil => simp
  | cons m ms ih =>
    obtain ⟨name, v⟩ := m
    rw [List.cons_append, each_obj_cons, ih, each_obj_cons, and_assoc]

@[simp] lemma each_obj_optional {name : String} {a : Option α} :
    Each P (.obj (Json.optional name encode a)) ↔ ∀ x ∈ a, Each P (encode x) := by
  cases a <;> simp [Json.optional]

@[simp] lemma each_list {as : List α} :
    Each P (.arr (as.map encode)) ↔ ∀ a ∈ as, Each P (encode a) := by
  induction as with
  | nil => simp [Each, Json.numbers, Json.itemNumbers]
  | cons a as ih =>
    rw [List.forall_mem_cons, ← ih, List.map_cons]
    unfold Each
    rw [← List.forall_mem_append]
    rfl

@[simp] lemma each_timeSpan {t : TimeSpan K} : Each P t.toJson ↔ P t.value := by
  simp [TimeSpan.toJson]

@[simp] lemma each_distance {d : Distance K} : Each P d.toJson ↔ P d.value := by
  simp [Distance.toJson]

lemma each_sequence {m : Movie K} (h : Each P (.arr (m.script.map Block.toJson))) {b : Block K}
    (hb : b ∈ m.sequences) : Each P b.toJson := by
  obtain ⟨block, hblock, hb⟩ := List.mem_flatMap.mp hb
  have hnumbers := each_list.mp h block hblock
  cases block with
  | actor q =>
    obtain rfl := List.mem_singleton.mp hb
    exact hnumbers
  | camera q =>
    obtain rfl := List.mem_singleton.mp hb
    exact hnumbers
  | simultaneous members =>
    simp only [Block.toJson, listToJson_eq_map, each_obj_cons, each_list] at hnumbers
    exact hnumbers.2.1 b hb

end Numbers

section Names

variable {K : Type} {m : Movie K}

/-- Names that tell the entities of a movie apart. -/
structure Named (m : Movie K) : Prop where
  named : ∀ e ∈ m.declared, isBlankText e.1 = false
  distinct : (m.declared.map Prod.fst).Nodup

lemma nameIssues_eq_nil {earlier l : List (String × EntityKind)} (hnodup : (l.map Prod.fst).Nodup)
    (hnew : ∀ e ∈ l, isBlankText e.1 = false ∧ earlier.lookup e.1 = none) :
    Movie.nameIssues (K := K) earlier l = [] := by
  induction l generalizing earlier with
  | nil => rfl
  | cons e rest ih =>
    obtain ⟨name, kind⟩ := e
    rw [List.map_cons, List.nodup_cons] at hnodup
    rw [List.forall_mem_cons] at hnew
    obtain ⟨⟨hblank, hfirst⟩, hrest⟩ := hnew
    have hlater : ∀ e ∈ rest, isBlankText e.1 = false ∧
        ((name, kind) :: earlier).lookup e.1 = none := by
      intro e he
      have hother : (e.1 == name) = false := by
        rw [beq_eq_false_iff_ne]
        rintro rfl
        exact hnodup.1 (List.mem_map.mpr ⟨e, he, rfl⟩)
      rw [List.lookup_cons, hother]
      exact hrest e he
    simp [Movie.nameIssues, hblank, hfirst, ih hnodup.2 hlater]

lemma nameIssues_nil_iff : Movie.nameIssues (K := K) [] m.declared = [] ↔ Named m := by
  constructor
  · intro h
    obtain ⟨hnodup, hnew⟩ := nameIssues_nil h
    exact ⟨fun e he => (hnew e he).1, hnodup⟩
  · intro h
    exact nameIssues_eq_nil h.distinct fun e he => ⟨h.named e he, rfl⟩

lemma lookup_of_mem {l : List (String × EntityKind)} (hnodup : (l.map Prod.fst).Nodup)
    {name : String} {kind : EntityKind} (h : (name, kind) ∈ l) : l.lookup name = some kind := by
  obtain ⟨front, rest, rfl⟩ := List.append_of_mem h
  rw [List.map_append, List.map_cons] at hnodup
  rw [List.lookup_eq_some_iff]
  refine ⟨front, rest, rfl, fun e he => ?_⟩
  rw [bne_iff_ne]
  rintro rfl
  exact (List.nodup_middle.mp hnodup).notMem (by simp [List.mem_map_of_mem he])

/-- A name passes where it is used when it is declared with that kind. -/
lemma Named.nameIssue?_iff (h : Named m) {kind : EntityKind} {name : String} {usage : Usage} :
    m.nameIssue? kind name usage = none ↔ (name, kind) ∈ m.declared := by
  refine ⟨declared_of_nameIssue?, fun hmem => ?_⟩
  have hdistinct : (m.declared.reverse.map Prod.fst).Nodup := by
    rw [List.map_reverse, List.nodup_reverse]
    exact h.distinct
  have hlookup := lookup_of_mem hdistinct (List.mem_reverse.mpr hmem)
  simp [Movie.nameIssue?, Movie.kind?, h.named _ hmem, hlookup]

lemma declared_actor_iff {name : String} :
    (name, EntityKind.actor) ∈ m.declared ↔ ∃ a ∈ m.actors, a.name = name := by
  simp [Movie.declared]

lemma declared_camera_iff {name : String} :
    (name, EntityKind.camera) ∈ m.declared ↔ ∃ c ∈ m.cameras, c.name = name := by
  simp [Movie.declared]

lemma declared_spline_iff {name : String} :
    (name, EntityKind.spline) ∈ m.declared ↔ ∃ s ∈ m.splines, s.name = name := by
  simp [Movie.declared]

end Names

section Parts

variable {K : Type} [Scalar K] [Scalar.Ordered K] {m : Movie K} {x y : K}

omit [Scalar.Ordered K] in
lemma ite_nil_iff {α : Type} {p : Prop} [Decidable p] {a : α} :
    (if p then [a] else []) = [] ↔ ¬p := by
  by_cases h : p <;> simp [h]

lemma negative_iff (h : Scalar.Defined x) : ¬x < 0 ↔ 0 ≤ x :=
  Scalar.Ordered.not_lt h Scalar.Ordered.zero

lemma nonpositive_iff (h : Scalar.Defined x) : ¬x ≤ 0 ↔ 0 < x :=
  Scalar.Ordered.not_le h Scalar.Ordered.zero

lemma actorIssues_nil_iff {a : Actor K} (h : Each Scalar.Defined a.toJson) :
    Movie.actorIssues a = [] ↔ ActorFits a := by
  simp only [Actor.toJson, each_obj_append, each_obj_cons, each_distance] at h
  obtain ⟨⟨-, -, -, -, hradius, hheight, -⟩, -⟩ := h
  unfold Movie.actorIssues
  rw [List.append_eq_nil_iff, ite_nil_iff, ite_nil_iff,
    negative_iff (Scalar.Ordered.distance _ hradius),
    nonpositive_iff (Scalar.Ordered.distance _ hheight)]
  exact ⟨fun h => ⟨h.1, h.2⟩, fun h => ⟨h.radius_nonneg, h.height_pos⟩⟩

lemma splineIssues_nil_iff {s : Spline K} (h : Each Scalar.Defined s.toJson) :
    Movie.splineIssues s = [] ↔ SplineFits s := by
  simp only [Spline.toJson, each_obj_cons, each_ofReal] at h
  obtain ⟨-, -, -, htension, -⟩ := h
  unfold Movie.splineIssues
  rw [List.append_eq_nil_iff, ite_nil_iff, ite_nil_iff, negative_iff htension, not_lt]
  exact ⟨fun h => ⟨h.1, h.2⟩, fun h => ⟨h.two_points, h.tension_nonneg⟩⟩

lemma zoomIssues_nil_iff {camera : String} {occupancy : Option K} (hx : Scalar.Defined x)
    (hy : Scalar.Defined y) :
    Movie.zoomIssues camera occupancy x y = [] ↔ ZoomFits occupancy x y := by
  have hbounds : ¬(x ≤ 0 ∨ y < x) ↔ 0 < x ∧ x ≤ y := by
    rw [not_or, nonpositive_iff hx, Scalar.Ordered.not_lt hy hx]
  unfold Movie.zoomIssues
  rw [List.append_eq_nil_iff, ite_nil_iff, hbounds]
  constructor
  · rintro ⟨hoccupancy, hpos, hle⟩
    refine ⟨?_, hpos, hle⟩
    rintro o rfl
    by_contra hout
    simp [hout] at hoccupancy
  · rintro ⟨hoccupancy, hpos, hle⟩
    refine ⟨?_, hpos, hle⟩
    cases occupancy with
    | none => rfl
    | some o => exact if_pos (hoccupancy o rfl)

lemma cameraIssues_nil_iff (hn : Named m) {c : Camera K} (h : Each Scalar.Defined c.toJson) :
    m.cameraIssues c = [] ↔ CameraFits m c := by
  simp only [Camera.toJson, each_obj_append, each_obj_cons, each_ofReal, each_obj_optional,
    ZoomConfig.toJson] at h
  obtain ⟨⟨⟨-, -, -, hfocal, hsensor, -⟩, -⟩, hzoom⟩ := h
  have hoptics : ¬(c.sensorHeight ≤ 0 ∨ c.focalLength ≤ 0) ↔
      0 < c.sensorHeight ∧ 0 < c.focalLength := by
    rw [not_or, nonpositive_iff hsensor, nonpositive_iff hfocal]
  have hfits : CameraFits m c ↔ ((0 < c.sensorHeight ∧ 0 < c.focalLength) ∧
      ∀ t, c.attachment = some t → ∃ a ∈ m.actors, a.name = t.actor) ∧
      ∀ z, c.autoZoom = some z → ZoomFits (some z.occupancy) z.minFocal z.maxFocal := by
    constructor
    · rintro ⟨hs, hf, ha, hz⟩
      exact ⟨⟨⟨hs, hf⟩, ha⟩, hz⟩
    · rintro ⟨⟨⟨hs, hf⟩, ha⟩, hz⟩
      exact ⟨hs, hf, ha, hz⟩
  unfold Movie.cameraIssues
  rw [List.append_eq_nil_iff, List.append_eq_nil_iff, ite_nil_iff, hoptics, hfits]
  refine and_congr (and_congr_right fun _ => ?_) ?_
  · cases c.attachment with
    | none => simp
    | some t => simp [hn.nameIssue?_iff, declared_actor_iff]
  · cases hz : c.autoZoom with
    | none => simp
    | some z =>
      obtain ⟨-, hmin, hmax, -⟩ := hzoom z hz
      simp [zoomIssues_nil_iff hmin hmax]

lemma commandIssues_nil_iff (hn : Named m) {actor : String} {c : Command K}
    (h : Each Scalar.Defined c.toJson) :
    m.commandIssues actor 0 c = [] ↔ CommandFits m actor c := by
  cases c with
  | move c => exact iff_of_true rfl trivial
  | face c =>
    obtain ⟨target, duration, animation⟩ := c
    cases target with
    | direction d offset => exact iff_of_true rfl trivial
    | yaw degrees => exact iff_of_true rfl trivial
    | actor name =>
      unfold Movie.commandIssues CommandFits
      dsimp only
      rw [← declared_actor_iff]
      by_cases hself : name = actor
      · simp [hself]
      · simp [hself, hn.nameIssue?_iff]
  | stay c =>
    obtain ⟨length, animation⟩ := c
    cases length with
    | lasting span => exact iff_of_true rfl trivial
    | waiting moment =>
      simp only [Command.toJson, StayLength.toJson, List.cons_append, each_obj_cons,
        each_timeSpan] at h
      unfold Movie.commandIssues CommandFits
      rw [ite_nil_iff, negative_iff (Scalar.Ordered.timeSpan _ h.2.1.1)]
    | tillEnd => exact iff_of_true rfl trivial
  | follow c =>
    unfold Movie.commandIssues CommandFits
    rw [Option.toList_eq_nil_iff, hn.nameIssue?_iff, declared_spline_iff]

omit [Scalar.Ordered K] in
/-- A bound that is not stated is replaced by a number that is defined. -/
lemma defined_getD {bound : Option K} (h : ∀ b ∈ bound, Scalar.Defined b)
    (hx : Scalar.Defined x) : Scalar.Defined (bound.getD x) := by
  cases bound with
  | none => exact hx
  | some b => exact h b rfl

lemma cameraCommandIssues_nil_iff (hn : Named m) {camera : String} {c : CameraCommand K}
    (h : Each Scalar.Defined c.toJson) :
    m.cameraCommandIssues camera 0 c = [] ↔ CameraCommandFits m c := by
  have hfits : CameraCommandFits m c ↔
      (∀ name, c.subject? = some name → ∃ a ∈ m.actors, a.name = name) ∧ ShotFits c :=
    ⟨fun ⟨hs, hc⟩ => ⟨hs, hc⟩, fun ⟨hs, hc⟩ => ⟨hs, hc⟩⟩
  unfold Movie.cameraCommandIssues
  rw [List.append_eq_nil_iff, hfits]
  refine and_congr ?_ ?_
  · cases c.subject? with
    | none => simp
    | some name => simp [hn.nameIssue?_iff, declared_actor_iff]
  · cases c with
    | autoZoom subject occupancy minFocal maxFocal =>
      simp only [CameraCommand.toJson, each_obj_cons, each_obj_append, each_obj_optional,
        each_ofReal] at h
      obtain ⟨-, ⟨⟨-, -⟩, hmin⟩, hmax⟩ := h
      exact zoomIssues_nil_iff (defined_getD hmin Scalar.Ordered.leastNormal)
        (defined_getD hmax Scalar.Ordered.greatest)
    | setFocalLength mm =>
      simp only [CameraCommand.toJson, each_obj_cons, each_ofReal] at h
      unfold ShotFits
      rw [ite_nil_iff, nonpositive_iff h.2.1]
    | hold duration =>
      simp only [CameraCommand.toJson, each_obj_cons, each_timeSpan] at h
      unfold ShotFits
      rw [ite_nil_iff, negative_iff (Scalar.Ordered.timeSpan _ h.2.1)]
    | lookAt | autoFocus | stopTracking => exact iff_of_true rfl trivial

lemma eventIssues_nil_iff (hn : Named m) {index : ℕ} {e : TimelineEvent K}
    (h : Each Scalar.Defined e.toJson) : m.eventIssues index e = [] ↔ EventFits m e := by
  have hmoment : Scalar.Defined e.moment.value := by
    cases e <;> simp only [TimelineEvent.toJson, each_obj_cons, each_timeSpan] at h <;> exact h.2.1
  have hfits : EventFits m e ↔ 0 ≤ e.moment.internal ∧
      ∀ moment camera, e = .cameraCut moment camera → ∃ c ∈ m.cameras, c.name = camera :=
    ⟨fun h => ⟨h.moment_nonneg, h.cut⟩, fun h => ⟨h.1, h.2⟩⟩
  unfold Movie.eventIssues
  rw [List.append_eq_nil_iff, ite_nil_iff, negative_iff (Scalar.Ordered.timeSpan _ hmoment), hfits]
  refine and_congr_right fun _ => ?_
  cases e with
  | cameraCut moment camera => simp [hn.nameIssue?_iff, declared_camera_iff]
  | marker moment label => simp

omit [Scalar K] [Scalar.Ordered K] in
lemma group_fits_iff {members : List (Block K)} :
    Movie.memberIssues 0 [] members = [] ↔ GroupFits members := by
  rw [memberIssues_nil_iff]
  have hflat : (∀ b ∈ members, b.entity? ≠ none) ↔ ∀ inner, .simultaneous inner ∉ members := by
    constructor
    · intro h inner hinner
      exact h _ hinner rfl
    · intro h b hb hnone
      cases b with
      | actor q => cases hnone
      | camera q => cases hnone
      | simultaneous inner => exact h inner hb
  rw [hflat]
  exact ⟨fun ⟨hf, ha, _⟩ => ⟨hf, ha⟩,
    fun ⟨hf, ha⟩ => ⟨hf, ha, fun _ _ _ hname => absurd hname List.not_mem_nil⟩⟩

omit [Scalar K] [Scalar.Ordered K] in
/-- The first stay to the end is the last command of its actor. -/
lemma tillEndIssues_nil_iff {a : Actor K} : m.tillEndIssues a = [] ↔
    ∀ before c after, m.commandsFor a.name = before ++ c :: after →
      (∀ b ∈ before, b.isTillEnd = false) → c.isTillEnd = true → after = [] := by
  rw [tillEndIssues_nil_iff_dropLast]
  generalize m.commandsFor a.name = commands
  constructor
  · rintro hopen before c after rfl - hc
    by_contra hafter
    have hmem : c ∈ (before ++ c :: after).dropLast := by
      rw [List.dropLast_append_cons, List.dropLast_cons_of_ne_nil hafter]
      exact List.mem_append_right before List.mem_cons_self
    rw [hopen c hmem] at hc
    cases hc
  · intro hlast
    by_contra hclosed
    obtain ⟨c, hfind⟩ : ∃ c, commands.dropLast.find? Command.isTillEnd = some c := by
      rw [← Option.isSome_iff_exists, List.find?_isSome]
      simpa using hclosed
    obtain ⟨hc, before, after, hsplit, hbefore⟩ := List.find?_eq_some_iff_append.mp hfind
    have hne : commands ≠ [] := by
      rintro rfl
      cases hfind
    have hcommands : commands = before ++ c :: (after ++ [commands.getLast hne]) := by
      rw [← List.cons_append, ← List.append_assoc, ← hsplit, List.dropLast_append_getLast]
    have hnone := hlast _ _ _ hcommands (by simpa using hbefore) hc
    exact List.append_ne_nil_of_right_ne_nil after (List.cons_ne_nil _ _) hnone

end Parts

section Movies

variable {K : Type} [Scalar K] {m : Movie K}

lemma rate_nil_iff : (if m.fps.isValid then [] else [Issue.frameRate m.name m.fps.fps]) = [] ↔
    Scalar.isFinite m.fps.fps = true ∧ 0 < m.fps.fps := by
  have hvalid : m.fps.isValid = true ↔ Scalar.isFinite m.fps.fps = true ∧ 0 < m.fps.fps := by
    unfold FrameRate.isValid
    rw [Bool.and_eq_true, decide_eq_true_iff]
  rw [← hvalid]
  cases m.fps.isValid <;> simp

lemma named_of_issues_nil (h : m.issues = []) : Named m := by
  simp only [Movie.issues, List.append_eq_nil_iff] at h
  exact nameIssues_nil_iff.mp h.1.1.1.1.1.1.1.2

variable [Scalar.Ordered K]

lemma duration_nil_iff (h : ∀ d ∈ m.duration, Scalar.Defined d.value) : (match m.duration with
      | some d => if d.internal < 0 then [Issue.durationNegative] else []
      | none => []) = ([] : List (Issue K)) ↔ ∀ d, m.duration = some d → 0 ≤ d.internal := by
  cases hd : m.duration with
  | none => simp
  | some d => simp [negative_iff (Scalar.Ordered.timeSpan d (h d hd))]

lemma sequence_fits_iff (hn : Named m) {b : Block K} (h : Each Scalar.Defined b.toJson) :
    m.sequenceIssues [] b = [] ↔
      (∀ q, b = .actor q → (∃ a ∈ m.actors, a.name = q.actor) ∧
        ∀ c ∈ q.commands, CommandFits m q.actor c) ∧
      ∀ q, b = .camera q → (∃ c ∈ m.cameras, c.name = q.camera) ∧
        ∀ c ∈ q.commands, CameraCommandFits m c := by
  cases b with
  | actor q =>
    simp only [Block.toJson, each_obj_cons, each_list] at h
    rw [sequenceIssues_actor_nil_iff, hn.nameIssue?_iff, declared_actor_iff,
      forall₂_congr fun c hc => commandIssues_nil_iff hn (h.2.2.1 c hc)]
    simp
  | camera q =>
    simp only [Block.toJson, each_obj_cons, each_list] at h
    rw [sequenceIssues_camera_nil_iff, hn.nameIssue?_iff, declared_camera_iff,
      forall₂_congr fun c hc => cameraCommandIssues_nil_iff hn (h.2.2.1 c hc)]
    simp
  | simultaneous members =>
    refine iff_of_true rfl ⟨?_, ?_⟩
    · intro q hq
      cases hq
    · intro q hq
      cases hq

lemma script_fits_iff (hn : Named m) (h : ∀ b ∈ m.sequences, Each Scalar.Defined b.toJson) :
    m.scriptIssues [] m.sequences = [] ↔
      (∀ q, .actor q ∈ m.sequences → (∃ a ∈ m.actors, a.name = q.actor) ∧
        ∀ c ∈ q.commands, CommandFits m q.actor c) ∧
      ∀ q, .camera q ∈ m.sequences → (∃ c ∈ m.cameras, c.name = q.camera) ∧
        ∀ c ∈ q.commands, CameraCommandFits m c := by
  rw [scriptIssues_nil_iff, forall₂_congr fun b hb => sequence_fits_iff hn (h b hb)]
  constructor
  · intro hfits
    exact ⟨fun q hq => (hfits _ hq).1 q rfl, fun q hq => (hfits _ hq).2 q rfl⟩
  · rintro ⟨hactors, hcameras⟩ b hb
    refine ⟨?_, ?_⟩
    · rintro q rfl
      exact hactors q hb
    · rintro q rfl
      exact hcameras q hb

/-- The parts of a movie whose names tell its entities apart are checked one by one. -/
lemma issues_nil_iff_of_named (hn : Named m) (h : Each Scalar.Defined m.toJson) :
    m.issues = [] ↔ WellFormed m := by
  simp only [Movie.toJson, listToJson_eq_map, List.cons_append, List.nil_append, each_obj_cons,
    each_obj_append, each_obj_optional, each_timeSpan] at h
  obtain ⟨-, -, hduration, hactors, hcameras, -, hsplines, hscript, htimeline, -⟩ := h
  have hactorParts : m.actors.flatMap Movie.actorIssues = [] ↔ ∀ a ∈ m.actors, ActorFits a := by
    rw [List.flatMap_eq_nil_iff]
    exact forall₂_congr fun a ha => actorIssues_nil_iff (each_list.mp hactors a ha)
  have hcameraParts : m.cameras.flatMap m.cameraIssues = [] ↔
      ∀ c ∈ m.cameras, CameraFits m c := by
    rw [List.flatMap_eq_nil_iff]
    exact forall₂_congr fun c hc => cameraIssues_nil_iff hn (each_list.mp hcameras c hc)
  have hsplineParts : m.splines.flatMap Movie.splineIssues = [] ↔
      ∀ s ∈ m.splines, SplineFits s := by
    rw [List.flatMap_eq_nil_iff]
    exact forall₂_congr fun s hs => splineIssues_nil_iff (each_list.mp hsplines s hs)
  have hgroups : m.groupIssues = [] ↔
      ∀ members, .simultaneous members ∈ m.script → GroupFits members := by
    rw [groupIssues_nil_iff]
    constructor
    · exact fun hg members hmembers => group_fits_iff.mp (hg _ hmembers members rfl)
    · rintro hg _ hb members rfl
      exact group_fits_iff.mpr (hg members hb)
  have hsequences := script_fits_iff hn fun b hb => each_sequence hscript hb
  have hends : m.actors.flatMap m.tillEndIssues = [] ↔ ∀ a ∈ m.actors, ∀ before c after,
      m.commandsFor a.name = before ++ c :: after →
        (∀ b ∈ before, b.isTillEnd = false) → c.isTillEnd = true → after = [] := by
    rw [List.flatMap_eq_nil_iff]
    exact forall₂_congr fun a _ => tillEndIssues_nil_iff
  have hevents : (m.timeline.zipIdx.flatMap fun p => m.eventIssues p.2 p.1) = [] ↔
      ∀ e ∈ m.timeline, EventFits m e := by
    rw [List.flatMap_eq_nil_iff, List.forall_mem_zipIdx', List.forall_mem_iff_forall_getElem]
    exact forall₂_congr fun i hi =>
      eventIssues_nil_iff hn (each_list.mp htimeline _ (List.getElem_mem hi))
  unfold Movie.issues
  simp only [List.append_eq_nil_iff]
  rw [rate_nil_iff, hactorParts, hcameraParts, hsplineParts, hgroups, hsequences, hends, hevents,
    nameIssues_nil_iff]
  constructor
  · rintro ⟨⟨⟨⟨⟨⟨⟨⟨⟨hr, hd⟩, hn⟩, ha⟩, hc⟩, hs⟩, hg⟩, hq⟩, ht⟩, he⟩
    exact ⟨hr, (duration_nil_iff hduration).mp hd, hn.named, hn.distinct, ha, hc, hs, hg,
      hq.1, hq.2, ht, he⟩
  · intro w
    have hspan := (duration_nil_iff hduration).mpr w.duration_nonneg
    exact ⟨⟨⟨⟨⟨⟨⟨⟨⟨w.rate, hspan⟩, hn⟩, w.actors⟩, w.cameras⟩, w.splines⟩, w.groups⟩,
      w.actorSequences, w.cameraSequences⟩, w.stays⟩, w.events⟩

/-- The checks find nothing exactly in the movies that are well formed. -/
theorem issues_nil_iff_wellFormed (m : Movie Float) (h : ∀ n ∈ m.numbers, n.value.isNaN = false) :
    m.issues = [] ↔ WellFormed m := by
  have heach : Each Scalar.Defined m.toJson := fun n hn => defined_iff.mpr (h n hn)
  by_cases hn : Named m
  · exact issues_nil_iff_of_named hn heach
  · exact iff_of_false (mt named_of_issues_nil hn) fun w => hn ⟨w.named, w.distinct⟩

theorem duet_wellFormed : (∀ n ∈ duet.numbers, n.value.isNaN = false) ∧ WellFormed duet := by
  have hnumbers : ∀ n ∈ duet.numbers, n.value.isNaN = false := by decide +kernel
  have hissues : duet.issues = [] := by decide +kernel
  exact ⟨hnumbers, (issues_nil_iff_wellFormed duet hnumbers).mp hissues⟩

end Movies

end Stagecraft.Proofs
