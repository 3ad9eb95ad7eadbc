import Stagecraft.Digest.Content
import Stagecraft.Proofs.IndependentSteps
import Stagecraft.Proofs.PlannedMovies

/-!
# Recounted runs

A run counts its commands and remembers its spans, but nothing that it keys depends on either: the
index of a command only stands in reports and errors. So two sessions whose runs agree in all but
those counts go on alike, whatever steps they are given, and are finished, shot and shown as reels
that play back the same.
-/

namespace Stagecraft

/-- A run without its counts: the number of its commands, the index of a stay that waits and the
spans played so far. -/
def Run.uncounted {K : Type} (r : Run K) : Run K :=
  { r with nextIndex := 0, parked := r.parked.map fun p => { p with index := 0 }, spans := [] }

end Stagecraft

namespace Stagecraft.Proofs

section Runs

variable {K : Type} {r r' r'' : Run K}

/-- The same run but for its counts. -/
structure Recounted (r r' : Run K) : Prop where
  uncounted_eq : r'.uncounted = r.uncounted

namespace Recounted

lemma refl (r : Run K) : Recounted r r := ⟨rfl⟩

lemma trans (h : Recounted r r') (h' : Recounted r' r'') : Recounted r r'' :=
  ⟨h'.uncounted_eq.trans h.uncounted_eq⟩

lemma actor_eq (h : Recounted r r') : r'.actor = r.actor := (congrArg Run.actor h.uncounted_eq :)

lemma pose_eq (h : Recounted r r') : r'.pose = r.pose := (congrArg Run.pose h.uncounted_eq :)

lemma cursor_eq (h : Recounted r r') : r'.cursor = r.cursor :=
  (congrArg Run.cursor h.uncounted_eq :)

lemma lane_eq (h : Recounted r r') : r'.lane = r.lane := (congrArg Run.lane h.uncounted_eq :)

lemma transform_eq (h : Recounted r r') : r'.transform = r.transform :=
  (congrArg Run.transform h.uncounted_eq :)

lemma animation_eq (h : Recounted r r') : r'.animation = r.animation :=
  (congrArg Run.animation h.uncounted_eq :)

lemma parked_eq (h : Recounted r r') :
    (r'.parked.map fun p => { p with index := 0 }) = r.parked.map fun p => { p with index := 0 } :=
  congrArg Run.parked h.uncounted_eq

lemma isParked_eq (h : Recounted r r') : r'.parked.isSome = r.parked.isSome := by
  have hparked := congrArg Option.isSome h.parked_eq
  rwa [Option.isSome_map, Option.isSome_map] at hparked

lemma counted (h : Recounted r r') (index index' : ℕ) :
    Recounted { r with nextIndex := index } { r' with nextIndex := index' } :=
  ⟨h.uncounted_eq⟩

lemma withLane (h : Recounted r r') (lane : Option (K × Lane K)) :
    Recounted { r with lane := lane } { r' with lane := lane } :=
  ⟨congrArg (fun q : Run K => { q with lane := lane }) h.uncounted_eq⟩

/-- A stay that waits was counted when it was met. -/
lemma park (h : Recounted r r') (index index' : ℕ) (clip : Option (Clip K)) :
    Recounted { r with parked := some ⟨index, r.cursor, clip⟩ }
      { r' with parked := some ⟨index', r'.cursor, clip⟩ } :=
  ⟨congrArg (fun q : Run K => { q with parked := some ⟨0, q.cursor, clip⟩ }) h.uncounted_eq⟩

lemma unpark (h : Recounted r r') :
    Recounted { r with parked := none } { r' with parked := none } :=
  ⟨congrArg (fun q : Run K => { q with parked := none }) h.uncounted_eq⟩

end Recounted

variable [Scalar K] {rate : FrameRate K} {index index' : ℕ}

lemma uncounted_keyAll (g : ℕ → Pose K) (frames : List ℕ) (r : Run K) :
    (keyAll g frames r).uncounted = keyAll g frames r.uncounted := by
  induction frames generalizing r with
  | nil => rfl
  | cons f frames ih => exact ih (r.key f (g f))

lemma uncounted_animate (rate : FrameRate K) (s : Span K) (r : Run K) :
    (r.animate rate s).uncounted = r.uncounted.animate rate s := by
  have hclip : r.uncounted.clip = r.clip := rfl
  unfold Run.animate
  rw [hclip]
  cases s.clip.or r.clip with
  | none => rfl
  | some c => rfl

namespace Recounted

lemma play (h : Recounted r r') (rate : FrameRate K) (s : Span K) :
    Recounted (r.play rate s) (r'.play rate s) := by
  have hkeyed : ((r'.sample rate s).animate rate s).uncounted =
      ((r.sample rate s).animate rate s).uncounted := by
    rw [uncounted_animate, uncounted_animate, sample_eq_keyAll, sample_eq_keyAll,
      uncounted_keyAll, uncounted_keyAll, h.uncounted_eq]
  exact ⟨congrArg (fun q : Run K =>
    { q with pose := s.pose s.duration, cursor := q.cursor + s.duration }) hkeyed⟩

lemma hold (h : Recounted r r') (rate : FrameRate K) (duration : K) (clip : Option (Clip K)) :
    Recounted (r.hold rate duration clip) (r'.hold rate duration clip) := by
  unfold Run.hold
  rw [h.pose_eq, h.cursor_eq]
  exact h.play rate _

lemma holdUntil (h : Recounted r r') (rate : FrameRate K) (moment : K) (clip : Option (Clip K)) :
    Recounted (r.holdUntil rate moment clip) (r'.holdUntil rate moment clip) := by
  unfold Run.holdUntil
  rw [h.cursor_eq]
  split
  · exact h
  · exact h.hold rate _ clip

lemma enter_eq (h : Recounted r r') (anchor : Anchor) (heading : K) (corridor : Corridor K) :
    r'.enter anchor heading corridor = r.enter anchor heading corridor := by
  unfold Run.enter
  rw [h.actor_eq, h.lane_eq]

lemma move (h : Recounted r r') (anchor : Anchor) (c : MoveCommand K) :
    Matches (fun x y => Recounted x.1 y.1) (r.move rate anchor index c)
      (r'.move rate anchor index' c) := by
  unfold Run.move
  rw [h.actor_eq, h.pose_eq, h.cursor_eq]
  refine (Matches.mapError c.motion.resolve).bind ?_
  rintro motion _ rfl
  cases c.corridor with
  | none => exact .ok ((h.play rate _).withLane none)
  | some corridor =>
    dsimp only
    rw [h.enter_eq]
    exact .bind_same fun entered _ => .ok ((h.play rate _).withLane _)

lemma face (h : Recounted r r') (c : FaceCommand K) (target : K) :
    Recounted (r.face rate c target) (r'.face rate c target) := by
  unfold Run.face
  rw [h.pose_eq, h.cursor_eq]
  exact h.play rate _

lemma stay (h : Recounted r r') (c : StayCommand K) :
    Recounted (r.stay rate index c) (r'.stay rate index' c) := by
  unfold Run.stay
  cases c.length with
  | lasting span => exact h.hold rate _ c.animation
  | waiting moment => exact h.holdUntil rate _ c.animation
  | tillEnd => exact h.park index index' c.animation

lemma follow (h : Recounted r r') (c : FollowCommand K) (curve : Curve K) :
    Matches (fun x y => Recounted x.1 y.1) (r.follow rate index c curve)
      (r'.follow rate index' c curve) := by
  unfold Run.follow
  rw [h.actor_eq, h.pose_eq, h.cursor_eq]
  refine .bind_same fun first _ => .bind_same fun last _ => (Matches.mapError _).bind ?_
  rintro motion _ rfl
  exact .ok ((h.play rate _).withLane none)

/-- The stay that waited is played the same. -/
lemma finish (h : Recounted r r') (rate : FrameRate K) (last : ℕ) :
    Recounted (r.finish rate last).1 (r'.finish rate last).1 := by
  have hparked := h.parked_eq
  cases hp : r.parked with
  | none =>
    rw [hp, Option.map_none, Option.map_eq_none_iff] at hparked
    rw [finish_none hp, finish_none hparked]
    exact h
  | some p =>
    rw [hp, Option.map_some, Option.map_eq_some_iff] at hparked
    obtain ⟨p', hp', heq⟩ := hparked
    have hstart : p'.start = p.start := (congrArg Parked.start heq :)
    have hclip : p'.clip = p.clip := (congrArg Parked.clip heq :)
    rw [finish_some hp, finish_some hp', hstart, hclip]
    exact h.unpark.hold rate _ p.clip

lemma locationAt_eq (h : Recounted r r') (frame : ℕ) :
    r'.locationAt frame = r.locationAt frame := by
  unfold Run.locationAt
  rw [h.transform_eq, h.pose_eq]

lemma subjectAt_eq (h : Recounted r r') (frame : ℕ) : r'.subjectAt frame = r.subjectAt frame := by
  unfold Run.subjectAt
  rw [h.transform_eq, h.actor_eq]

end Recounted

end Runs

section Sessions

variable {K : Type} {s s' s'' : Session K} {r r' : Run K}

/-- Sessions that differ in the counts of their runs, in what they have reported and in the script
of their movie. -/
structure Recounts (s s' : Session K) : Prop where
  unscripted_eq : { s'.movie with script := [] } = { s.movie with script := [] }
  options_eq : s'.options = s.options
  curves_eq : s'.curves = s.curves
  sheets_eq : s'.sheets = s.sheets
  runs : List.Forall₂ Recounted s.runs s'.runs

namespace Recounts

lemma refl (s : Session K) : Recounts s s :=
  ⟨rfl, rfl, rfl, rfl, List.forall₂_same.mpr fun r _ => .refl r⟩

lemma trans (h : Recounts s s') (h' : Recounts s' s'') : Recounts s s'' where
  unscripted_eq := h'.unscripted_eq.trans h.unscripted_eq
  options_eq := h'.options_eq.trans h.options_eq
  curves_eq := h'.curves_eq.trans h.curves_eq
  sheets_eq := h'.sheets_eq.trans h.sheets_eq
  runs := forall₂_trans (fun _ _ _ hr hr' => hr.trans hr') h.runs h'.runs

lemma rate_eq (h : Recounts s s') : s'.movie.fps = s.movie.fps :=
  (congrArg Movie.fps h.unscripted_eq :)

/-- What sessions report does not count. -/
lemma reported {t t' : Session K} (h : Recounts s s') (ht : SameButReports s t)
    (ht' : SameButReports s' t') : Recounts t t' := by
  obtain ⟨_, rfl⟩ := ht
  obtain ⟨_, rfl⟩ := ht'
  exact ⟨h.unscripted_eq, h.options_eq, h.curves_eq, h.sheets_eq, h.runs⟩

lemma setRun (h : Recounts s s') (hr : Recounted r r') : Recounts (s.setRun r) (s'.setRun r') :=
  ⟨h.unscripted_eq, h.options_eq, h.curves_eq, h.sheets_eq,
    forall₂_setRuns h.runs (fun _ _ hr => hr.actor_eq) hr⟩

lemma setSheet (h : Recounts s s') (c : CueSheet K) : Recounts (s.setSheet c) (s'.setSheet c) :=
  ⟨h.unscripted_eq, h.options_eq, h.curves_eq,
    congrArg (fun sheets => sheets.map fun d => if d.camera.name = c.camera.name then c else d)
      h.sheets_eq, h.runs⟩

lemma run (h : Recounts s s') (name : String) : Matches Recounted (s.run name) (s'.run name) :=
  matches_run h.runs (fun _ _ hr => hr.actor_eq) name

lemma sheet_eq (h : Recounts s s') (name : String) : s'.sheet name = s.sheet name := by
  unfold Session.sheet
  rw [h.sheets_eq]

lemma curve_eq (h : Recounts s s') (name : String) : s'.curve name = s.curve name := by
  unfold Session.curve
  rw [h.curves_eq]

end Recounts

variable [Scalar K] {index index' : ℕ}

namespace Recounts

lemma horizon_eq (h : Recounts s s') : s'.horizon = s.horizon :=
  horizon_congr h.runs (fun _ _ hr => hr.cursor_eq) h.sheets_eq

/-- A turn to another actor sees the same place. -/
lemma faceYaw (h : Recounts s s') (hr : Recounted r r') (target : FaceTarget K) :
    Matches Eq (s.faceYaw r target) (s'.faceYaw r' target) := by
  unfold Session.faceYaw
  cases target with
  | direction d offset =>
    rw [hr.pose_eq]
    exact .ok rfl
  | yaw degrees => exact .ok rfl
  | actor name =>
    refine (h.run name).bind fun other other' hother => .ok ?_
    unfold Session.yawToward?
    dsimp only
    rw [h.rate_eq, hr.cursor_eq, hr.pose_eq, hother.locationAt_eq]

lemma obey (h : Recounts s s') (hr : Recounted r r') (c : Command K) :
    Matches (fun x y => Recounted x.1 y.1) (obey s index r c) (obey s' index' r' c) := by
  unfold Proofs.obey
  cases c with
  | move c =>
    dsimp only
    rw [h.rate_eq, h.options_eq]
    exact hr.move _ c
  | face c =>
    refine (h.faceYaw hr c.target).bind ?_
    rintro yaw? _ rfl
    rw [h.rate_eq, hr.pose_eq]
    cases yaw? with
    | none => exact .ok (hr.face c _)
    | some yaw => exact .ok (hr.face c yaw)
  | stay c =>
    dsimp only
    rw [h.rate_eq]
    exact .ok (hr.stay c)
  | follow c =>
    dsimp only
    rw [h.rate_eq, h.curve_eq]
    exact .bind_same fun curve _ => hr.follow c curve

lemma command (h : Recounts s s') (actor : String) (c : Command K) :
    Matches Recounts (Session.command actor s c) (Session.command actor s' c) := by
  rw [command_eq_change, command_eq_change]
  unfold commanded
  rw [bind_assoc, bind_assoc]
  refine (h.run actor).bind fun r r' hr => ?_
  by_cases hparked : r.parked.isSome = true
  · have hparked' : r'.parked.isSome = true := hr.isParked_eq.trans hparked
    rw [if_pos hparked, if_pos hparked']
    exact .error _ _
  · have hparked' : ¬r'.parked.isSome = true := hr.isParked_eq ▸ hparked
    rw [if_neg hparked, if_neg hparked', bind_assoc, bind_assoc]
    refine (h.obey (hr.counted _ _) c).bind fun x y hxy => ?_
    exact .ok ((h.setRun hxy).reported ⟨_, rfl⟩ ⟨_, rfl⟩)

end Recounts

/-- Stages whose sessions differ only in counts, reports and scripts. -/
structure RecountedStages (st st' : Stage K) : Prop where
  recounts : Recounts st.session st'.session
  groupStart_eq : st'.groupStart = st.groupStart

omit [Scalar K] in
lemma RecountedStages.refl (st : Stage K) : RecountedStages st st := ⟨.refl st.session, rfl⟩

omit [Scalar K] in
lemma RecountedStages.trans (st st' st'' : Stage K) (h : RecountedStages st st')
    (h' : RecountedStages st' st'') : RecountedStages st st'' :=
  ⟨h.recounts.trans h'.recounts, h'.groupStart_eq.trans h.groupStart_eq⟩

/-- Whatever step they are given, such stages go on alike. -/
theorem RecountedStages.perform {st st' : Stage K} (h : RecountedStages st st') (step : Step K) :
    Matches RecountedStages (perform st step) (perform st' step) := by
  obtain ⟨s, t⟩ := st
  obtain ⟨s', t'⟩ := st'
  obtain ⟨hs, ht⟩ := h
  dsimp only at hs ht
  subst ht
  unfold Proofs.perform
  cases step with
  | gather => exact .ok ⟨hs, hs.horizon_eq⟩
  | joinActor name =>
    refine (hs.run name).bind fun r r' hr => .ok ⟨?_, rfl⟩
    dsimp only
    rw [hs.rate_eq]
    exact hs.setRun (hr.holdUntil _ _ none)
  | joinCamera name =>
    dsimp only
    rw [hs.sheet_eq]
    exact .bind_same fun c _ => .ok ⟨hs.setSheet _, rfl⟩
  | call actor => exact (hs.run actor).bind fun r r' _ => .ok ⟨hs, rfl⟩
  | command actor c => exact (hs.command actor c).bind fun s s' hs => .ok ⟨hs, rfl⟩
  | cues q =>
    dsimp only [Session.cameraSequence]
    rw [hs.sheet_eq, bind_assoc, bind_assoc]
    exact .bind_same fun c _ => .ok ⟨hs.setSheet _, rfl⟩
  | nest => exact .error _ _

end Sessions

section Passes

variable {K : Type} [Scalar K] {s s' : Session K} {last : ℕ}

/-- The same result, and sessions that differ only in counts, reports and scripts. -/
structure RecountsWith {α : Type} (p q : α × Session K) : Prop where
  result_eq : q.1 = p.1
  recounts : Recounts p.2 q.2

namespace Recounts

lemma subject?_eq (h : Recounts s s') : s'.subject? = s.subject? := by
  funext frame name
  have hnames : ∀ r r' : Run K, Recounted r r' → r'.actor.name = r.actor.name :=
    fun _ _ hr => congrArg Actor.name hr.actor_eq
  unfold Session.subject?
  rcases find?_forall₂ h.runs hnames name with ⟨hr, hr'⟩ | ⟨r, r', hr, hr', hsame⟩
  · rw [hr, hr']
  · rw [hr, hr']
    exact hsame.subjectAt_eq frame

lemma extent_eq (h : Recounts s s') : s'.extent = s.extent := by
  have hframes : s.runs.map (·.transform.lastFrame?) = s'.runs.map (·.transform.lastFrame?) :=
    map_eq_of_forall₂ (h.runs.imp fun _ _ hr => by rw [hr.transform_eq])
  have hreached : s'.runs.filterMap (·.transform.lastFrame?) =
      s.runs.filterMap (·.transform.lastFrame?) := by
    have hread := congrArg (List.filterMap id) hframes
    rw [List.filterMap_map, List.filterMap_map] at hread
    exact hread.symm
  unfold Session.extent
  rw [hreached, h.sheets_eq, h.rate_eq]

/-- The movie ends with the same frame. -/
lemma lastFrame (h : Recounts s s') : Matches RecountsWith s.lastFrame s'.lastFrame := by
  have hduration : s'.movie.duration = s.movie.duration :=
    (congrArg Movie.duration h.unscripted_eq :)
  have hwaits : s.runs.map (·.parked.isSome) = s'.runs.map (·.parked.isSome) :=
    map_eq_of_forall₂ (h.runs.imp fun _ _ hr => hr.isParked_eq.symm)
  have hany : s'.runs.any (·.parked.isSome) = s.runs.any (·.parked.isSome) := by
    have hread := congrArg (fun l : List Bool => l.any id) hwaits
    simpa only [List.any_map, Function.id_comp] using hread.symm
  unfold Session.lastFrame
  rw [hduration, h.extent_eq, h.rate_eq, hany]
  cases s.movie.duration with
  | none =>
    dsimp only
    split
    · exact .error _ _
    · exact .ok ⟨rfl, h⟩
  | some duration =>
    dsimp only
    split
    · exact .ok ⟨rfl, h.reported ⟨_, rfl⟩ ⟨_, rfl⟩⟩
    · exact .ok ⟨rfl, h⟩

/-- The second pass plays the same stays. -/
lemma finishRuns (h : Recounts s s') : Recounts (s.finishRuns last) (s'.finishRuns last) := by
  refine List.rel_foldl ?_ h h.runs
  intro s s' hs r r' hr
  have hset : Recounts (s.setRun (r.finish s.movie.fps last).1)
      (s'.setRun (r'.finish s'.movie.fps last).1) := by
    rw [hs.rate_eq]
    exact hs.setRun (hr.finish _ last)
  exact hset.reported (finishRun_eq s last r) (finishRun_eq s' last r')

/-- A camera is shot the same. -/
lemma shoot (h : Recounts s s') (reels : List (CameraReel K)) (c : CueSheet K) :
    Matches RecountsWith (Session.shoot last (reels, s) c) (Session.shoot last (reels, s') c) := by
  unfold Session.shoot
  simp only [h.rate_eq, h.options_eq, h.subject?_eq]
  cases c.shoot? s.movie.fps s.options s.subject? last with
  | none => exact .error _ _
  | some shot =>
    refine .ok ⟨rfl, h.reported ?_ ?_⟩
    · exact SameButReports.foldl (fun _ _ => ⟨_, rfl⟩) shot.2 s
    · exact SameButReports.foldl (fun _ _ => ⟨_, rfl⟩) shot.2 s'

end Recounts

omit [Scalar K] in
/-- Reels that play back the same. -/
structure SamePlayback (reel reel' : Reel K) : Prop where
  actors_eq : reel'.actors = reel.actors
  cameras_eq : reel'.cameras = reel.cameras
  lastFrame_eq : reel'.lastFrame = reel.lastFrame
  timeline_eq : reel'.timeline = reel.timeline
  contentHash_eq : ∀ [Numeral K], reel'.contentHash = reel.contentHash

lemma Recounts.reel (h : Recounts s s') (last : ℕ) (cameras : List (CameraReel K)) :
    SamePlayback (s.reel last cameras) (s'.reel last cameras) := by
  have hsame : s'.reel last cameras =
      { s.reel last cameras with diagnostics := s'.diagnostics } := by
    have hactors : s.runs.map (fun r => (⟨r.actor, r.transform, r.animation⟩ : ActorReel K)) =
        s'.runs.map fun r => ⟨r.actor, r.transform, r.animation⟩ :=
      map_eq_of_forall₂ (h.runs.imp fun _ _ hr => by
        rw [hr.actor_eq, hr.transform_eq, hr.animation_eq])
    have hname : s'.movie.name = s.movie.name := (congrArg Movie.name h.unscripted_eq :)
    have hlights : s'.movie.lights = s.movie.lights := (congrArg Movie.lights h.unscripted_eq :)
    have htimeline : s'.movie.timeline = s.movie.timeline :=
      (congrArg Movie.timeline h.unscripted_eq :)
    unfold Session.reel Session.placeEvents
    rw [hactors, hname, h.rate_eq, hlights, htimeline]
  rw [hsame]
  exact ⟨rfl, rfl, rfl, rfl, rfl⟩

/-- Movies whose walks differ only in counts and reports are planned as reels that play back the
same. -/
theorem plan_samePlayback {m m' : Movie K} {o : PlanOptions K} (hpass : m.issues = [])
    (hpass' : m'.issues = []) (hwalks : Matches Recounts (walk o m) (walk o m')) :
    Matches SamePlayback (m.plan o) (m'.plan o) := by
  have hplayed : Matches RecountsWith (played o m) (played o m') := by
    refine hwalks.bind fun s s' hs => hs.lastFrame.bind ?_
    rintro ⟨_, t⟩ ⟨last, t'⟩ ⟨rfl, ht⟩
    exact .ok ⟨rfl, ht.finishRuns⟩
  rw [plan_eq hpass, plan_eq hpass']
  refine hplayed.bind ?_
  rintro ⟨_, s⟩ ⟨last, s'⟩ ⟨rfl, hs⟩
  dsimp only at hs ⊢
  rw [hs.sheets_eq]
  have hround : ∀ (p q : List (CameraReel K) × Session K) c, RecountsWith p q →
      Matches RecountsWith (Session.shoot last p c) (Session.shoot last q c) := by
    rintro ⟨_, t⟩ ⟨reels, t'⟩ c ⟨rfl, ht⟩
    exact ht.shoot reels c
  have hstart : RecountsWith (([] : List (CameraReel K)), s) ([], s') := ⟨rfl, hs⟩
  refine (Matches.foldlM hround s.sheets hstart).bind ?_
  rintro ⟨_, t⟩ ⟨cameras, t'⟩ ⟨rfl, ht⟩
  have hchecked := ht.reported (checkEvents_same last t) (checkEvents_same last t')
  exact .ok (hchecked.reel last cameras)

end Passes

end Stagecraft.Proofs
