import Stagecraft.Plan.Session
import Stagecraft.Proofs.Outcomes

/-!
# A script step by step

Walking a script nests loops over blocks, members and commands. `scriptSteps` lays everything the
walk does out in one list, and `walk_eq_steps` says that performing the steps one after another is
the walk. A step needs to know more than the session only within a group, whose members wait for
one moment.
-/

namespace Stagecraft.Proofs

variable {K : Type} [Scalar K]

/-- One thing a script makes a session do. -/
inductive Step (K : Type) where
  | gather
  | joinActor (name : String)
  | joinCamera (name : String)
  | call (actor : String)
  | command (actor : String) (c : Command K)
  | cues (q : CameraSequence K)
  | nest

/-- A session, and the moment the group it is in begins. -/
structure Stage (K : Type) where
  session : Session K
  groupStart : K

/-- A group begins at the horizon, and its members join it there. A sequence calls its actor before
its first command. -/
def perform (st : Stage K) : Step K → Except (PlanError K) (Stage K)
  | .gather => .ok { st with groupStart := st.session.horizon }
  | .joinActor name => do
    let r ← st.session.run name
    let r := r.holdUntil st.session.movie.fps st.groupStart none
    return { st with session := st.session.setRun r }
  | .joinCamera name => do
    let c ← st.session.sheet name
    let c := { c with cursor := Scalar.larger c.cursor st.groupStart }
    return { st with session := st.session.setSheet c }
  | .call actor => do
    let _ ← st.session.run actor
    return st
  | .command actor c => do
    let s ← Session.command actor st.session c
    return { st with session := s }
  | .cues q => do
    let s ← st.session.cameraSequence q
    return { st with session := s }
  | .nest => .error .groupNested

omit [Scalar K] in
def actorSteps (q : ActorSequence K) : List (Step K) :=
  .call q.actor :: q.commands.map (.command q.actor)

omit [Scalar K] in
def memberSteps : Block K → List (Step K)
  | .actor q => .joinActor q.actor :: actorSteps q
  | .camera q => [.joinCamera q.camera, .cues q]
  | .simultaneous _ => [.nest]

omit [Scalar K] in
def blockSteps : Block K → List (Step K)
  | .actor q => actorSteps q
  | .camera q => [.cues q]
  | .simultaneous members => .gather :: members.flatMap memberSteps

omit [Scalar K] in
def scriptSteps (m : Movie K) : List (Step K) :=
  m.script.flatMap blockSteps

omit [Scalar K] in
/-- Where the script has a step from: from a sequence, or from a group within a group. -/
def Scripted (m : Movie K) : Step K → Prop
  | .gather => True
  | .joinActor name => ∃ q, Block.actor q ∈ m.sequences ∧ q.actor = name
  | .joinCamera name => ∃ q, Block.camera q ∈ m.sequences ∧ q.camera = name
  | .call actor => ∃ q, Block.actor q ∈ m.sequences ∧ q.actor = actor
  | .command actor c => ∃ q, Block.actor q ∈ m.sequences ∧ q.actor = actor ∧ c ∈ q.commands
  | .cues q => Block.camera q ∈ m.sequences
  | .nest => ∃ members inner, Block.simultaneous members ∈ m.script ∧
      Block.simultaneous inner ∈ members

/-- The session when the script is walked, before the stays to the end are played. -/
def walk (o : PlanOptions K) (m : Movie K) : Except (PlanError K) (Session K) :=
  m.script.foldlM Session.block (Session.start m o)

section Origins

omit [Scalar K]
variable {m : Movie K} {step : Step K}

lemma scripted_actor {q : ActorSequence K} (hq : Block.actor q ∈ m.sequences)
    (h : step ∈ actorSteps q) : Scripted m step := by
  rcases List.mem_cons.mp h with rfl | hcommand
  · exact ⟨q, hq, rfl⟩
  · obtain ⟨c, hc, rfl⟩ := List.mem_map.mp hcommand
    exact ⟨q, hq, rfl, hc⟩

lemma scripted_camera {q : CameraSequence K} (hq : Block.camera q ∈ m.sequences)
    (h : step = .joinCamera q.camera ∨ step = .cues q) : Scripted m step := by
  rcases h with rfl | rfl
  · exact ⟨q, hq, rfl⟩
  · exact hq

theorem scripted_of_mem (h : step ∈ scriptSteps m) : Scripted m step := by
  obtain ⟨b, hb, hstep⟩ := List.mem_flatMap.mp h
  have hflat : ∀ q ∈ b.flatten, q ∈ m.sequences :=
    fun q hq => List.mem_flatMap.mpr ⟨b, hb, hq⟩
  cases b with
  | actor q => exact scripted_actor (hflat _ (List.mem_singleton_self _)) hstep
  | camera q =>
    exact scripted_camera (hflat _ (List.mem_singleton_self _))
      (Or.inr (List.mem_singleton.mp hstep))
  | simultaneous members =>
    rcases List.mem_cons.mp hstep with rfl | hmember
    · trivial
    · obtain ⟨member, hmem, hmember⟩ := List.mem_flatMap.mp hmember
      cases member with
      | actor q =>
        rcases List.mem_cons.mp hmember with rfl | hmember
        · exact ⟨q, hflat _ hmem, rfl⟩
        · exact scripted_actor (hflat _ hmem) hmember
      | camera q => exact scripted_camera (hflat _ hmem) (by simpa [memberSteps] using hmember)
      | simultaneous inner =>
        rw [List.mem_singleton.mp hmember]
        exact ⟨members, inner, hb, hmem⟩

end Origins

section Loops

variable {ε α β σ τ : Type}

lemma foldlM_flatMap {f : σ → β → Except ε σ} (g : α → List β) (l : List α) (s : σ) :
    (l.flatMap g).foldlM f s = l.foldlM (fun s a => (g a).foldlM f s) s := by
  induction l generalizing s with
  | nil => rfl
  | cons a l ih => simp only [List.flatMap_cons, List.foldlM_append, List.foldlM_cons, ih]

/-- A loop on a part of the state is a loop on the state. -/
lemma foldlM_embed {M : Type → Type} [Monad M] [LawfulMonad M] {f : τ → α → M τ} {g : σ → α → M σ}
    (e : σ → τ)
    (h : ∀ s a, f (e s) a = e <$> g s a) (l : List α) (s : σ) :
    l.foldlM f (e s) = e <$> l.foldlM g s := by
  induction l generalizing s with
  | nil => simp only [List.foldlM_nil, map_pure]
  | cons a l ih => simp only [List.foldlM_cons, h, bind_map_left, ih, map_bind]

/-- A loop may be watched in a part of the state that decides its own course. -/
lemma foldlM_project {f : τ → α → Except ε τ} {g : σ → α → Except ε σ} (p : τ → σ)
    (h : ∀ t a, p <$> f t a = g (p t) a) (l : List α) (t : τ) :
    p <$> l.foldlM f t = l.foldlM g (p t) := by
  induction l generalizing t with
  | nil => rfl
  | cons a l ih => simp only [List.foldlM_cons, map_bind, ih, ← h, bind_map_left]

end Loops

lemma actorSteps_eq (q : ActorSequence K) (s : Session K) (t : K) :
    (actorSteps q).foldlM perform ⟨s, t⟩ = (Stage.mk · t) <$> s.actorSequence q := by
  have hcommands : ∀ s : Session K, (q.commands.map (Step.command q.actor)).foldlM perform ⟨s, t⟩ =
      (Stage.mk · t) <$> q.commands.foldlM (Session.command q.actor) s := by
    intro s
    rw [List.foldlM_map]
    apply foldlM_embed (Stage.mk · t)
    intro s c
    exact (map_eq_pure_bind _ _).symm
  unfold actorSteps Session.actorSequence
  simp only [List.foldlM_cons, perform, bind_assoc, pure_bind, hcommands, map_bind]

lemma memberSteps_eq (b : Block K) (s : Session K) (t : K) :
    (memberSteps b).foldlM perform ⟨s, t⟩ = (Stage.mk · t) <$> Session.member t s b := by
  cases b with
  | actor q =>
    unfold memberSteps Session.member
    simp only [List.foldlM_cons, perform, bind_assoc, pure_bind, actorSteps_eq, map_bind]
  | camera q =>
    unfold memberSteps Session.member
    simp only [List.foldlM_cons, List.foldlM_nil, perform, bind_assoc, pure_bind, map_bind]
    simp only [map_eq_pure_bind]
  | simultaneous members => rfl

lemma membersSteps_eq (members : List (Block K)) (s : Session K) (t : K) :
    (members.flatMap memberSteps).foldlM perform ⟨s, t⟩ =
      (Stage.mk · t) <$> members.foldlM (Session.member t) s := by
  rw [foldlM_flatMap]
  exact foldlM_embed (Stage.mk · t) (fun s b => memberSteps_eq b s t) members s

lemma blockSteps_eq (b : Block K) (st : Stage K) :
    Stage.session <$> (blockSteps b).foldlM perform st = st.session.block b := by
  obtain ⟨s, t⟩ := st
  cases b with
  | actor q =>
    unfold blockSteps
    rw [actorSteps_eq, Functor.map_map]
    exact id_map _
  | camera q =>
    unfold blockSteps
    simp only [List.foldlM_cons, List.foldlM_nil, perform, bind_assoc, pure_bind, map_bind,
      map_pure]
    exact bind_pure _
  | simultaneous members =>
    unfold blockSteps
    have hbegin : perform ⟨s, t⟩ .gather = pure ⟨s, s.horizon⟩ := rfl
    rw [List.foldlM_cons, hbegin, pure_bind, membersSteps_eq, Functor.map_map]
    exact id_map _

lemma blocksSteps_eq (blocks : List (Block K)) (st : Stage K) :
    Stage.session <$> (blocks.flatMap blockSteps).foldlM perform st =
      blocks.foldlM Session.block st.session := by
  rw [foldlM_flatMap]
  exact foldlM_project Stage.session (fun st b => blockSteps_eq b st) blocks st

/-- The walk of a script is its steps, one after another. -/
theorem walk_eq_steps (o : PlanOptions K) (m : Movie K) (t : K) :
    walk o m = Stage.session <$> (scriptSteps m).foldlM perform ⟨Session.start m o, t⟩ :=
  (blocksSteps_eq m.script ⟨Session.start m o, t⟩).symm

end Stagecraft.Proofs
