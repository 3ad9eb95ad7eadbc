import Stagecraft.Movie.Reading
import Stagecraft.Proofs.RecordCodecs

/-!
# Movies read back

Every record of a movie has a codec: what is encoded is decoded to the same record, inside another
tagged record or not. Units of the script are read level by level, and as many levels as the unit
has are enough. The check of the command tags finds nothing in a movie that was encoded.
-/

namespace Stagecraft.Proofs

section Quantities

variable {K : Type} [Scalar K] {nested : Bool}

lemma distance_codec : Codec (Distance.toJson (K := K)) (Distance.ofJson nested) :=
  record_codec fun _ =>
    .field real_codec (by simp) <|
    .field (name_codec fun unit => by cases unit <;> rfl) (by simp) .pure

lemma timeSpan_codec : Codec (TimeSpan.toJson (K := K)) (TimeSpan.ofJson nested) :=
  record_codec fun _ =>
    .field real_codec (by simp) <|
    .field (name_codec fun unit => by cases unit <;> rfl) (by simp) .pure

lemma speed_codec : Codec (Speed.toJson (K := K)) (Speed.ofJson nested) :=
  record_codec fun _ =>
    .field real_codec (by simp) <|
    .field (name_codec fun unit => by cases unit <;> rfl) (by simp) .pure

lemma acceleration_codec : Codec (Acceleration.toJson (K := K)) Acceleration.ofJson :=
  record_codec fun _ => .field real_codec (by simp) .pure

lemma vec3_codec : Codec (Vec3.toJson (K := K)) Vec3.ofJson :=
  record_codec fun _ =>
    .field real_codec (by simp) <| .field real_codec (by simp) <| .field real_codec (by simp) .pure

lemma rotator_codec : Codec (Rotator.toJson (K := K)) Rotator.ofJson :=
  record_codec fun _ =>
    .field real_codec (by simp) <| .field real_codec (by simp) <| .field real_codec (by simp) .pure

lemma color_codec :
    Codec (fun c : Vec3 K => .arr [.ofReal c.x, .ofReal c.y, .ofReal c.z]) Vec3.ofColor where
  reads _ := rfl
  present _ := nofun

lemma frameRate_codec : Codec (FrameRate.toJson (K := K)) FrameRate.ofJson where
  reads _ := rfl
  present _ := nofun

omit [Scalar K] in
lemma direction_codec : Codec (K := K) Direction.toJson (Direction.ofJson nested) :=
  name_codec fun d => by cases d <;> rfl

end Quantities

section Commands

variable {K : Type} [Scalar K] {nested : Bool}

-- Each field is given by its codec, and looking it up passes by the fields that are left out.
lemma motionSpec_codec : Codec (MotionSpec.toJson (K := K)) (MotionSpec.ofJson nested) :=
  record_codec fun _ =>
    .field? distance_codec (by simp) <| .field? timeSpan_codec (by simp) <|
    .field? speed_codec (by simp) <| .field? speed_codec (by simp) <|
    .field? acceleration_codec (by simp) .pure

lemma corridor_codec : Codec (Corridor.toJson (K := K)) (Corridor.ofJson nested) :=
  record_codec fun _ =>
    .field distance_codec (by simp) <| .field distance_codec (by simp) .pure

lemma clip_codec : Codec (Clip.toJson (K := K)) Clip.ofJson :=
  record_codec fun _ =>
    .field text_codec (by simp) <| .fieldD real_codec (by simp) .pure

lemma faceTarget_codec : Codec (FaceTarget.toJson (K := K)) (FaceTarget.ofJson nested) where
  reads target := by
    cases target with
    | direction d offset =>
      refine reads_choice "direction" (by simp) rfl rfl ?_
      exact .field direction_codec (by simp) <| .field? real_codec (by simp) .pure
    | yaw degrees =>
      refine reads_choice "yaw" (by simp) rfl rfl ?_
      exact .field real_codec (by simp) .pure
    | actor name =>
      refine reads_choice "actor" (by simp) rfl rfl ?_
      exact .field text_codec (by simp) .pure
  present target := by cases target <;> nofun

lemma stayLength_codec : Codec (StayLength.toJson (K := K)) (StayLength.ofJson nested) where
  reads length := by
    cases length with
    | lasting span => exact congrArg (Option.map StayLength.lasting) (timeSpan_codec.reads span)
    | waiting moment => exact congrArg (Option.map StayLength.waiting) (timeSpan_codec.reads moment)
    | tillEnd => rfl
  present length := by cases length <;> nofun

lemma command_codec : Codec (Command.toJson (K := K)) (Command.ofJson nested) where
  reads c := by
    cases c with
    | move c =>
      refine reads_choice "move" (by simp [Command.kind]) rfl rfl ?_
      exact .fieldD direction_codec (by simp) <| .field? real_codec (by simp) <|
        .field motionSpec_codec (by simp) <| .field? corridor_codec (by simp) <|
        .field? clip_codec (by simp) .pure
    | face c =>
      refine reads_choice "face" (by simp [Command.kind]) rfl rfl ?_
      exact .field faceTarget_codec (by simp) <| .fieldD timeSpan_codec (by simp) <|
        .field? clip_codec (by simp) .pure
    | stay c =>
      refine reads_choice "stay" (by simp [Command.kind]) rfl rfl ?_
      exact .field stayLength_codec (by simp) <| .field? clip_codec (by simp) .pure
    | follow c =>
      refine reads_choice "follow_spline" (by simp [Command.kind]) rfl rfl ?_
      exact .field text_codec (by simp) <| .fieldD motionSpec_codec (by simp) <|
        .field? distance_codec (by simp) <| .field? distance_codec (by simp) <|
        .fieldD bool_codec (by simp) <| .field? clip_codec (by simp) .pure
  present _ := nofun

lemma cameraCommand_codec :
    Codec (CameraCommand.toJson (K := K)) (CameraCommand.ofJson nested) where
  reads c := by
    cases c with
    | lookAt subject heightPct =>
      refine reads_choice "look_at" (by simp [CameraCommand.kind]) rfl rfl ?_
      exact .field text_codec (by simp) <| .field? real_codec (by simp) .pure
    | autoFocus subject heightPct =>
      refine reads_choice "auto_focus" (by simp [CameraCommand.kind]) rfl rfl ?_
      exact .field text_codec (by simp) <| .field? real_codec (by simp) .pure
    | autoZoom subject occupancy minFocal maxFocal =>
      refine reads_choice "auto_zoom" (by simp [CameraCommand.kind]) rfl rfl ?_
      exact .field text_codec (by simp) <| .field? real_codec (by simp) <|
        .field? real_codec (by simp) <| .field? real_codec (by simp) .pure
    | setFocalLength mm =>
      refine reads_choice "set_focal_length" (by simp [CameraCommand.kind]) rfl rfl ?_
      exact .field real_codec (by simp) .pure
    | stopTracking =>
      exact reads_choice "stop_tracking" (by simp [CameraCommand.kind]) rfl rfl .pure
    | hold duration =>
      refine reads_choice "hold" (by simp [CameraCommand.kind]) rfl rfl ?_
      exact .field timeSpan_codec (by simp) .pure
  present _ := nofun

end Commands

section Entities

variable {K : Type} [Scalar K]

lemma actor_codec : Codec (Actor.toJson (K := K)) Actor.ofJson :=
  record_codec fun _ =>
    .field text_codec (by simp) <| .field vec3_codec (by simp) <|
    .fieldD real_codec (by simp) <| .fieldD real_codec (by simp) <|
    .fieldD distance_codec (by simp) <| .fieldD distance_codec (by simp) <|
    .field? text_codec (by simp) .pure

lemma attachment_codec : Codec (Attachment.toJson (K := K)) Attachment.ofJson :=
  record_codec fun _ =>
    .field text_codec (by simp) <| .field? text_codec (by simp) <|
    .fieldD vec3_codec (by simp) <| .fieldD rotator_codec (by simp) .pure

lemma zoomConfig_codec : Codec (ZoomConfig.toJson (K := K)) ZoomConfig.ofJson :=
  record_codec fun _ =>
    .field real_codec (by simp) <| .field real_codec (by simp) <| .field real_codec (by simp) .pure

lemma camera_codec : Codec (Camera.toJson (K := K)) Camera.ofJson :=
  record_codec fun _ =>
    .field text_codec (by simp) <| .field vec3_codec (by simp) <|
    .fieldD rotator_codec (by simp) <| .fieldD real_codec (by simp) <|
    .fieldD real_codec (by simp) <| .field? attachment_codec (by simp) <|
    .field? zoomConfig_codec (by simp) .pure

lemma light_codec : Codec (Light.toJson (K := K)) Light.ofJson :=
  record_codec fun _ =>
    .field text_codec (by simp) <|
    .field (name_codec fun kind => by cases kind <;> rfl) (by simp) <|
    .fieldD vec3_codec (by simp) <| .fieldD rotator_codec (by simp) <|
    .fieldD real_codec (by simp) <| .fieldD color_codec (by simp) .pure

lemma spline_codec : Codec (Spline.toJson (K := K)) Spline.ofJson :=
  record_codec fun _ =>
    .field text_codec (by simp) <| .field (list_codec vec3_codec) (by simp) <|
    .fieldD bool_codec (by simp) <| .fieldD real_codec (by simp) .pure

end Entities

section Scripts

variable {K : Type}

lemma listToJson_eq_map (bs : List (Block K)) : Block.listToJson bs = bs.map Block.toJson := by
  induction bs with
  | nil => rfl
  | cons b bs ih => rw [Block.listToJson, ih, List.map_cons]

lemma depth_le_of_mem {v : Json K} {items : List (Json K)} (h : v ∈ items) :
    v.depth ≤ Json.listDepth items := by
  induction h with
  | head rest => exact Nat.le_max_left _ _
  | tail w _ ih => exact Nat.le_trans ih (Nat.le_max_right _ _)

variable [Scalar K]

/-- As many levels as a unit has are enough to read it. -/
lemma block_reads {n : Nat} (nested : Bool) (b : Block K) (h : b.toJson.depth ≤ n) :
    Block.ofLevels nested n b.toJson = some b := by
  -- Whatever is written of a unit is an object, so no unit has depth zero.
  induction n generalizing nested b with
  | zero => cases b <;> cases h
  | succ n ih =>
    cases b with
    | actor s =>
      refine reads_choice "actor" (by simp) rfl rfl ?_
      exact .field text_codec (by simp) <| .field (list_codec command_codec) (by simp) .pure
    | camera s =>
      refine reads_choice "camera" (by simp) rfl rfl ?_
      exact .field text_codec (by simp) <| .field (list_codec cameraCommand_codec) (by simp) .pure
    | simultaneous members =>
      refine reads_choice "simultaneous" (by simp) rfl rfl ?_
      refine (finds_field (v := .arr (Block.listToJson members)) (by simp) ?_).bind .pure
      rw [listToJson_eq_map]
      refine list_reads fun b hb => ih true b ?_
      have hdepth : b.toJson.depth ≤ Json.listDepth (Block.listToJson members) := by
        rw [listToJson_eq_map]
        exact depth_le_of_mem (List.mem_map_of_mem hb)
      simp only [Block.toJson, Json.depth, Json.memberDepth] at h
      omega

lemma block_codec : Codec (Block.toJson (K := K)) Block.ofJson where
  reads b := block_reads false b (Nat.le_refl _)
  present b := by cases b <;> nofun

lemma timelineEvent_codec : Codec (TimelineEvent.toJson (K := K)) TimelineEvent.ofJson where
  reads e := by
    cases e with
    | cameraCut moment camera =>
      refine reads_choice "camera_cut" (by simp) rfl rfl ?_
      exact .field timeSpan_codec (by simp) <| .field text_codec (by simp) .pure
    | marker moment label =>
      refine reads_choice "marker" (by simp) rfl rfl ?_
      exact .field timeSpan_codec (by simp) <| .field text_codec (by simp) .pure
  present e := by cases e <;> nofun

lemma movie_codec : Codec (Movie.toJson (K := K)) Movie.ofJson :=
  record_codec fun _ =>
    .field text_codec (by simp) <| .field frameRate_codec (by simp) <|
    .field? timeSpan_codec (by simp) <| .fieldD (list_codec actor_codec) (by simp) <|
    .fieldD (list_codec camera_codec) (by simp) <| .fieldD (list_codec light_codec) (by simp) <|
    .fieldD (list_codec spline_codec) (by simp) <|
    .fieldD (list_codec block_codec) (by simp [listToJson_eq_map]) <|
    .fieldD (list_codec timelineEvent_codec) (by simp) .pure

end Scripts

section Tags

variable {K : Type}

lemma check_ok {commands : List (RawCommand K)} (h : ∀ c ∈ commands, c.kind ∈ c.known)
    (earlier : List String) : RawCommand.check earlier commands = .ok () := by
  induction commands generalizing earlier with
  | nil => rfl
  | cons c rest ih =>
    obtain ⟨hc, hrest⟩ := List.forall_mem_cons.mp h
    rw [RawCommand.check, if_pos hc, ih hrest]

/-- The check reports a command with an unknown tag by its number, when all before it are known. -/
lemma check_first {front rest : List (RawCommand K)} {c : RawCommand K}
    (hfront : ∀ a ∈ front, a.kind ∈ a.known) (hc : c.kind ∉ c.known) (earlier : List String) :
    RawCommand.check earlier (front ++ c :: rest) = .error (.unknownCommand c.entity
      ((front.map RawCommand.entity).count c.entity + earlier.count c.entity) c.kind) := by
  induction front generalizing earlier with
  | nil => rw [List.nil_append, RawCommand.check, if_neg hc, List.map_nil, List.count_nil,
      Nat.zero_add]
  | cons a front ih =>
    obtain ⟨ha, hfront⟩ := List.forall_mem_cons.mp hfront
    rw [List.cons_append, RawCommand.check, if_pos ha, ih hfront, List.map_cons, List.count_cons,
      List.count_cons, Nat.add_right_comm, Nat.add_assoc]

lemma kind_toJson (entity : String) (known : List String) (c : Command K) :
    RawCommand.kind ⟨entity, known, c.toJson⟩ = c.kind := by
  cases c <;> simp [RawCommand.kind, Command.toJson, Json.get?, Json.asString?]

lemma cameraKind_toJson (entity : String) (known : List String) (c : CameraCommand K) :
    RawCommand.kind ⟨entity, known, c.toJson⟩ = c.kind := by
  cases c <;> simp [RawCommand.kind, CameraCommand.toJson, Json.get?, Json.asString?]

lemma kind_mem_kinds (c : Command K) : c.kind ∈ Command.kinds := by
  cases c <;> simp [Command.kind, Command.kinds]

lemma cameraKind_mem_kinds (c : CameraCommand K) : c.kind ∈ CameraCommand.kinds := by
  cases c <;> simp [CameraCommand.kind, CameraCommand.kinds]

/-- A group that stands where a sequence is expected has no commands of its own. -/
lemma known_ofSequence (b : Block K) :
    ∀ c ∈ RawCommand.ofSequence b.toJson, c.kind ∈ c.known := by
  cases b with
  | actor s =>
    have hcommands : RawCommand.ofSequence (Block.actor s).toJson =
        (s.commands.map Command.toJson).map fun c => ⟨s.actor, Command.kinds, c⟩ := rfl
    rw [hcommands]
    simp [kind_toJson, kind_mem_kinds]
  | camera s =>
    have hcommands : RawCommand.ofSequence (Block.camera s).toJson =
        (s.commands.map CameraCommand.toJson).map fun c => ⟨s.camera, CameraCommand.kinds, c⟩ := rfl
    rw [hcommands]
    simp [cameraKind_toJson, cameraKind_mem_kinds]
  | simultaneous members => exact fun _ hc => nomatch hc

lemma known_flatMap {commandsOf : Json K → List (RawCommand K)}
    (h : ∀ b : Block K, ∀ c ∈ commandsOf b.toJson, c.kind ∈ c.known) (bs : List (Block K)) :
    ∀ c ∈ (Block.listToJson bs).flatMap commandsOf, c.kind ∈ c.known := by
  intro c hc
  rw [listToJson_eq_map] at hc
  obtain ⟨j, hj, hc⟩ := List.mem_flatMap.mp hc
  obtain ⟨b, -, rfl⟩ := List.mem_map.mp hj
  exact h b c hc

lemma known_ofBlock (b : Block K) : ∀ c ∈ RawCommand.ofBlock b.toJson, c.kind ∈ c.known := by
  cases b with
  | actor s => exact known_ofSequence (.actor s)
  | camera s => exact known_ofSequence (.camera s)
  | simultaneous members => exact known_flatMap known_ofSequence members

/-- The check of the tags lets pass whatever is written. -/
lemma check_ofMovie (m : Movie K) :
    RawCommand.check [] (RawCommand.ofMovie m.toJson) = .ok () := by
  have hscript : RawCommand.ofMovie m.toJson =
      (Block.listToJson m.script).flatMap RawCommand.ofBlock := by
    simp [RawCommand.ofMovie, Movie.toJson, Json.get?, Json.asList?]
  rw [hscript]
  exact check_ok (known_flatMap known_ofBlock m.script) []

end Tags

lemma read_of_parse {K : Type} [Scalar K] [Numeral K] {text : String} {raw : Json K}
    (h : Json.parse? text = some raw) : Movie.read text = Movie.ofRaw raw := by
  rw [Movie.read, h]

/-- A movie that was encoded is decoded, behind the check of its command tags. -/
theorem ofRaw_toJson {K : Type} [Scalar K] (m : Movie K) : Movie.ofRaw m.toJson = .ok m := by
  unfold Movie.ofRaw
  rw [check_ofMovie, movie_codec.reads m]
  rfl

end Stagecraft.Proofs
