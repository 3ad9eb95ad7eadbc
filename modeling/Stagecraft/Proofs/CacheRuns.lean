import Mathlib.Data.Set.Card
import Stagecraft.Binary64
import Stagecraft.Proofs.ContentKeys
import Stagecraft.Proofs.Outcomes

/-!
# Runs of a cache

A cache answers as if it planned every movie afresh. Whatever has been asked of it, its entries
belong one by one to the movies that were planned with success and not dropped since: each entry is
under the key of its movie, with its name and its reel. This is kept by every call, because a movie
is planned only when its key is not there yet.
-/

namespace Stagecraft

variable {K : Type} [Scalar K] [Numeral K]

/-- What can be asked of a cache. -/
inductive CacheCall (K : Type) where
  | plan (m : Movie K)
  | get (key : String)
  | invalidate (key : String)
  | invalidateMovie (name : String)
  | clear

def ReelCache.after (c : ReelCache K) : CacheCall K → ReelCache K
  | .plan m => (c.plan m).2
  | .get _ => c
  | .invalidate key => (c.invalidate key).2
  | .invalidateMovie name => (c.invalidateMovie name).2
  | .clear => c.clear

def ReelCache.afterAll (c : ReelCache K) (calls : List (CacheCall K)) : ReelCache K :=
  calls.foldl ReelCache.after c

/-- A call that drops the reel of a movie, if there is one. -/
def CacheCall.Drops (o : PlanOptions K) (m : Movie K) : CacheCall K → Prop
  | .plan _ | .get _ => False
  | .invalidate key => key = (ReelCache.empty o).key m
  | .invalidateMovie name => name = m.name
  | .clear => True

/-- A movie that was planned with success, and whose reel was not dropped since. -/
def Live (o : PlanOptions K) (calls : List (CacheCall K)) (m : Movie K) : Prop :=
  ∃ front rest reel, calls = front ++ .plan m :: rest ∧ m.plan o = .ok reel ∧
    ∀ call ∈ rest, ¬call.Drops o m

/-- A cache that has answered some calls, about movies that it tells apart, answers the next one as
if every movie was planned afresh, and holds the reels of the live movies and no others. -/
structure Transparent (o : PlanOptions K) (S : Set (Movie K)) (calls : List (CacheCall K))
    (c : ReelCache K) : Prop where
  plan_eq : ∀ m ∈ S, (c.plan m).1 = m.plan o
  plan_error : ∀ m ∈ S, ∀ e, m.plan o = .error e → (c.plan m).2 = c
  get_isSome : ∀ m ∈ S, (c.get? (c.key m)).isSome ↔ Live o calls m
  get_eq : ∀ m ∈ S, ∀ reel, c.get? (c.key m) = some reel → m.plan o = .ok reel
  get_invalidateMovie : ∀ name key reel, (c.invalidateMovie name).2.get? key = some reel ↔
    c.get? key = some reel ∧ ¬∃ m, Live o calls m ∧ m.name = name ∧ c.key m = key
  count_invalidateMovie : ∀ name,
    (c.invalidateMovie name).1 = {m | Live o calls m ∧ m.name = name}.encard
  size_eq : c.size = {m | Live o calls m}.encard

end Stagecraft

namespace Stagecraft.Proofs

variable {K : Type} [Scalar K] [Numeral K] {o : PlanOptions K} {S : Set (Movie K)}
  {live : List (Movie K)} {c : ReelCache K} {m : Movie K} {calls : List (CacheCall K)}

/-- An entry that holds the reel of a movie. -/
structure Files (o : PlanOptions K) (m : Movie K) (e : CacheEntry K) : Prop where
  key_eq : e.key = (ReelCache.empty o).key m
  movie_eq : e.movie = m.name
  plan_eq : m.plan o = .ok e.reel

/-- A cache whose entries belong to some movies, one by one. -/
structure Keeps (o : PlanOptions K) (S : Set (Movie K)) (live : List (Movie K))
    (c : ReelCache K) : Prop where
  options_eq : c.options = o
  known : ∀ m ∈ live, m ∈ S
  nodup : live.Nodup
  entries : List.Forall₂ (Files o) live c.entries

section Entries

lemma Keeps.key_eq (hc : Keeps o S live c) (m : Movie K) :
    c.key m = (ReelCache.empty o).key m := by
  obtain rfl := hc.options_eq
  rfl

/-- What is found under a key is the reel of the movie that has it. -/
lemma Keeps.get?_eq_some_iff (hc : Keeps o S live c) (h : ToldApart o S) {key : String}
    {reel : Reel K} :
    c.get? key = some reel ↔
      ∃ m ∈ live, (ReelCache.empty o).key m = key ∧ m.plan o = .ok reel := by
  have hfound {reel : Reel K} (hget : c.get? key = some reel) :
      ∃ m ∈ live, (ReelCache.empty o).key m = key ∧ m.plan o = .ok reel := by
    obtain ⟨e, hfind, rfl⟩ := Option.map_eq_some_iff.mp hget
    obtain ⟨m, hm, hfiles⟩ := mem_of_forall₂_right hc.entries (List.mem_of_find?_eq_some hfind)
    have hkey : e.key = key := by simpa using List.find?_some hfind
    exact ⟨m, hm, hfiles.key_eq.symm.trans hkey, hfiles.plan_eq⟩
  refine ⟨hfound, ?_⟩
  rintro ⟨m, hm, hkey, hplan⟩
  -- Some entry is found under the key, and its movie has the key too, so it is the same movie.
  obtain ⟨e, he, hfiles⟩ := mem_of_forall₂_left hc.entries hm
  have hsome : (c.get? key).isSome := by
    rw [ReelCache.get?, Option.isSome_map, List.find?_isSome]
    exact ⟨e, he, decide_eq_true (hfiles.key_eq.trans hkey)⟩
  obtain ⟨reel', hget⟩ := Option.isSome_iff_exists.mp hsome
  obtain ⟨m', hm', hkey', hplan'⟩ := hfound hget
  obtain rfl := (key_eq_iff h (hc.known m' hm') (hc.known m hm)).mp (hkey'.trans hkey.symm)
  rw [hget, Except.ok.inj (hplan'.symm.trans hplan)]

lemma Keeps.get?_key_iff (hc : Keeps o S live c) (h : ToldApart o S) (hm : m ∈ S)
    {reel : Reel K} : c.get? (c.key m) = some reel ↔ m ∈ live ∧ m.plan o = .ok reel := by
  rw [hc.get?_eq_some_iff h, hc.key_eq]
  constructor
  · rintro ⟨m', hm', hkey, hplan⟩
    obtain rfl := (key_eq_iff h (hc.known m' hm') hm).mp hkey
    exact ⟨hm', hplan⟩
  · rintro ⟨hmem, hplan⟩
    exact ⟨m, hmem, rfl, hplan⟩

lemma Keeps.planned (hc : Keeps o S live c) (hm : m ∈ live) : ∃ reel, m.plan o = .ok reel := by
  obtain ⟨e, -, hfiles⟩ := mem_of_forall₂_left hc.entries hm
  exact ⟨e.reel, hfiles.plan_eq⟩

lemma Keeps.get?_isSome_iff (hc : Keeps o S live c) (h : ToldApart o S) (hm : m ∈ S) :
    (c.get? (c.key m)).isSome ↔ m ∈ live := by
  rw [Option.isSome_iff_exists]
  constructor
  · rintro ⟨reel, hget⟩
    exact ((hc.get?_key_iff h hm).mp hget).1
  · intro hmem
    obtain ⟨reel, hplan⟩ := hc.planned hmem
    exact ⟨reel, (hc.get?_key_iff h hm).mpr ⟨hmem, hplan⟩⟩

lemma Keeps.size_eq (hc : Keeps o S live c) : c.size = live.length :=
  hc.entries.length_eq.symm

end Entries

section Calls

/-- The entries that are left belong to the movies that are left. -/
lemma Keeps.retain (hc : Keeps o S live c) {p : CacheEntry K → Bool} {q : Movie K → Bool}
    (hpq : ∀ m e, Files o m e → (q m ↔ p e)) :
    Keeps o S (live.filter q) (c.retain p) where
  options_eq := hc.options_eq
  known m hm := hc.known m (List.mem_of_mem_filter hm)
  nodup := hc.nodup.filter q
  entries := List.rel_filter (fun {m e} => hpq m e) hc.entries

lemma Keeps.invalidate (hc : Keeps o S live c) (key : String) :
    Keeps o S (live.filter fun m => (ReelCache.empty o).key m ≠ key) (c.invalidate key).2 :=
  hc.retain fun m e hfiles => by rw [hfiles.key_eq]

lemma Keeps.invalidateMovie (hc : Keeps o S live c) (name : String) :
    Keeps o S (live.filter fun m => m.name ≠ name) (c.invalidateMovie name).2 :=
  hc.retain fun m e hfiles => by rw [hfiles.movie_eq]

/-- Dropping the movies with a name leaves everything that is under no key of theirs. -/
lemma Keeps.get?_invalidateMovie_iff (hc : Keeps o S live c) (h : ToldApart o S)
    {name key : String} {reel : Reel K} :
    (c.invalidateMovie name).2.get? key = some reel ↔
      c.get? key = some reel ∧
        ¬∃ m, m ∈ live ∧ m.name = name ∧ (ReelCache.empty o).key m = key := by
  rw [(hc.invalidateMovie name).get?_eq_some_iff h, hc.get?_eq_some_iff h]
  simp only [List.mem_filter, decide_eq_true_eq]
  constructor
  · rintro ⟨m, ⟨hm, hname⟩, hkey, hplan⟩
    refine ⟨⟨m, hm, hkey, hplan⟩, ?_⟩
    rintro ⟨m', hm', hname', hkey'⟩
    obtain rfl := (key_eq_iff h (hc.known m hm) (hc.known m' hm')).mp (hkey.trans hkey'.symm)
    exact hname hname'
  · rintro ⟨⟨m, hm, hkey, hplan⟩, hnone⟩
    exact ⟨m, ⟨hm, fun hname => hnone ⟨m, hm, hname, hkey⟩⟩, hkey, hplan⟩

lemma Keeps.invalidateMovie_count (hc : Keeps o S live c) (name : String) :
    (c.invalidateMovie name).1 = (live.filter fun m => m.name = name).length := by
  have hkept : (c.invalidateMovie name).2.size = (live.filter fun m => m.name ≠ name).length :=
    (hc.invalidateMovie name).size_eq
  have hsplit := List.length_eq_length_filter_add (l := live) fun m => decide (m.name = name)
  have hcount : (c.invalidateMovie name).1 = c.size - (c.invalidateMovie name).2.size := rfl
  simp only [← decide_not, ← ne_eq] at hsplit
  rw [hcount, hkept, hc.size_eq]
  omega

lemma Keeps.plan_live (hc : Keeps o S live c) (h : ToldApart o S) (hm : m ∈ live) :
    c.plan m = (m.plan o, c) := by
  obtain ⟨reel, hplan⟩ := hc.planned hm
  have hget := (hc.get?_key_iff h (hc.known m hm)).mpr ⟨hm, hplan⟩
  rw [ReelCache.plan, hget, hplan]

lemma Keeps.get?_key_eq_none (hc : Keeps o S live c) (h : ToldApart o S) (hm : m ∈ S)
    (hnew : m ∉ live) : c.get? (c.key m) = none := by
  rw [← hc.get?_isSome_iff h hm, Option.not_isSome_iff_eq_none] at hnew
  exact hnew

lemma Keeps.plan_error (hc : Keeps o S live c) (h : ToldApart o S) (hm : m ∈ S)
    {e : PlanError K} (hplan : m.plan o = .error e) : c.plan m = (.error e, c) := by
  have hnew : m ∉ live := by
    intro hmem
    obtain ⟨reel, hok⟩ := hc.planned hmem
    cases hok.symm.trans hplan
  rw [ReelCache.plan, hc.get?_key_eq_none h hm hnew, hc.options_eq, hplan]

lemma Keeps.plan_new (hc : Keeps o S live c) (h : ToldApart o S) (hm : m ∈ S)
    (hnew : m ∉ live) {reel : Reel K} (hplan : m.plan o = .ok reel) :
    (c.plan m).1 = .ok reel ∧ Keeps o S (m :: live) (c.plan m).2 := by
  rw [ReelCache.plan, hc.get?_key_eq_none h hm hnew]
  dsimp only
  rw [hc.options_eq, hplan]
  exact ⟨rfl, {
    options_eq := rfl
    known := List.forall_mem_cons.mpr ⟨hm, hc.known⟩
    nodup := List.nodup_cons.mpr ⟨hnew, hc.nodup⟩
    entries := .cons ⟨hc.key_eq m, rfl, hplan⟩ hc.entries }⟩

/-- A movie is planned from what is kept as it is planned afresh. -/
lemma Keeps.plan_eq (hc : Keeps o S live c) (h : ToldApart o S) (hm : m ∈ S) :
    (c.plan m).1 = m.plan o := by
  cases hplan : m.plan o with
  | error e => rw [hc.plan_error h hm hplan]
  | ok reel =>
    by_cases hmem : m ∈ live
    · rw [hc.plan_live h hmem, hplan]
    · exact (hc.plan_new h hm hmem hplan).1

/-- A movie that is planned with success is live from then on. -/
lemma Keeps.plan (hc : Keeps o S live c) (h : ToldApart o S) (hm : m ∈ S) :
    ∃ live', Keeps o S live' (c.plan m).2 ∧
      ∀ m', m' ∈ live' ↔ (m = m' ∧ ∃ reel, m'.plan o = .ok reel) ∨ m' ∈ live := by
  by_cases hmem : m ∈ live
  · refine ⟨live, by rwa [hc.plan_live h hmem], fun m' => ⟨.inr, ?_⟩⟩
    rintro (⟨rfl, -⟩ | hm')
    · exact hmem
    · exact hm'
  · cases hplan : m.plan o with
    | error e =>
      refine ⟨live, by rwa [hc.plan_error h hm hplan], fun m' => ⟨.inr, ?_⟩⟩
      rintro (⟨rfl, reel, hok⟩ | hm')
      · cases hok.symm.trans hplan
      · exact hm'
    | ok reel =>
      refine ⟨m :: live, (hc.plan_new h hm hmem hplan).2, fun m' => ?_⟩
      rw [List.mem_cons, eq_comm]
      refine or_congr_left ⟨?_, And.left⟩
      rintro rfl
      exact ⟨rfl, reel, hplan⟩

/-- A call makes the movie it plans live, and the movies it drops no longer so. -/
lemma Keeps.after (hc : Keeps o S live c) (h : ToldApart o S) (call : CacheCall K)
    (hcall : ∀ m, call = .plan m → m ∈ S) :
    ∃ live', Keeps o S live' (c.after call) ∧
      ∀ m, m ∈ live' ↔
        (call = .plan m ∧ ∃ reel, m.plan o = .ok reel) ∨ (m ∈ live ∧ ¬call.Drops o m) := by
  cases call with
  | plan m =>
    simp only [CacheCall.plan.injEq, CacheCall.Drops, not_false_eq_true, and_true]
    exact hc.plan h (hcall m rfl)
  | get key => exact ⟨live, hc, fun m => by simp [CacheCall.Drops]⟩
  | invalidate key =>
    refine ⟨_, hc.invalidate key, fun m => ?_⟩
    simp [CacheCall.Drops, List.mem_filter, eq_comm (a := key)]
  | invalidateMovie name =>
    refine ⟨_, hc.invalidateMovie name, fun m => ?_⟩
    simp [CacheCall.Drops, List.mem_filter, eq_comm (a := name)]
  | clear =>
    refine ⟨[], ⟨hc.options_eq, nofun, .nil, .nil⟩, fun m => ?_⟩
    simp [CacheCall.Drops]

end Calls

section Histories

/-- Whether a movie is live is decided call by call. -/
lemma live_concat {call : CacheCall K} :
    Live o (calls ++ [call]) m ↔
      (call = .plan m ∧ ∃ reel, m.plan o = .ok reel) ∨ (Live o calls m ∧ ¬call.Drops o m) := by
  constructor
  · rintro ⟨front, rest, reel, heq, hplan, hrest⟩
    rcases List.eq_nil_or_concat rest with rfl | ⟨rest, last, rfl⟩
    · obtain ⟨-, hcall⟩ := List.append_inj' heq rfl
      exact .inl ⟨List.singleton_inj.mp hcall, reel, hplan⟩
    · rw [List.concat_eq_append, ← List.cons_append, ← List.append_assoc] at heq
      obtain ⟨rfl, hcall⟩ := List.append_inj' heq rfl
      obtain rfl := List.singleton_inj.mp hcall
      rw [List.concat_eq_append, List.forall_mem_append, List.forall_mem_singleton] at hrest
      exact .inr ⟨⟨front, rest, reel, rfl, hplan, hrest.1⟩, hrest.2⟩
  · rintro (⟨rfl, reel, hplan⟩ | ⟨⟨front, rest, reel, rfl, hplan, hrest⟩, hcall⟩)
    · exact ⟨calls, [], reel, rfl, hplan, nofun⟩
    · refine ⟨front, rest ++ [call], reel, by simp, hplan, ?_⟩
      exact List.forall_mem_append.mpr ⟨hrest, List.forall_mem_singleton.mpr hcall⟩

/-- After any calls, a cache keeps the live movies. -/
lemma keeps_afterAll (h : ToldApart o S) (calls : List (CacheCall K))
    (hcalls : ∀ m, .plan m ∈ calls → m ∈ S) :
    ∃ live, Keeps o S live ((ReelCache.empty o).afterAll calls) ∧
      ∀ m, m ∈ live ↔ Live o calls m := by
  -- Whether a movie is live is told from the last call back, so the calls are taken from the end.
  induction calls using List.reverseRecOn with
  | nil =>
    refine ⟨[], ⟨rfl, nofun, .nil, .nil⟩, fun m => iff_of_false List.not_mem_nil ?_⟩
    rintro ⟨front, rest, reel, heq, -⟩
    exact absurd heq (by simp)
  | append_singleton calls call ih =>
    obtain ⟨live, hc, hlive⟩ := ih fun m hm => hcalls m (List.mem_append_left _ hm)
    obtain ⟨live', hc', hlive'⟩ := hc.after h call fun m hm => hcalls m (by simp [hm])
    refine ⟨live', ?_, fun m => ?_⟩
    · rwa [ReelCache.afterAll, List.foldl_concat]
    · rw [hlive', hlive, live_concat]

end Histories

omit [Scalar K] [Numeral K] in
lemma encard_eq_length {P : Movie K → Prop} (hnodup : live.Nodup) (hmem : ∀ m, m ∈ live ↔ P m) :
    {m | P m}.encard = live.length := by
  have hset : {m | P m} = ((⟨live, hnodup⟩ : Finset (Movie K)) : Set (Movie K)) :=
    Set.ext fun m => (hmem m).symm
  rw [hset, Set.encard_coe_eq_coe_finsetCard]
  rfl

/-- Whatever has been asked of a cache about movies that it tells apart, it answers as if it planned
every movie afresh. -/
theorem cache_transparent (h : ToldApart o S) (calls : List (CacheCall K))
    (hcalls : ∀ m, .plan m ∈ calls → m ∈ S) :
    Transparent o S calls ((ReelCache.empty o).afterAll calls) := by
  obtain ⟨live, hc, hlive⟩ := keeps_afterAll h calls hcalls
  exact {
    plan_eq := fun m hm => hc.plan_eq h hm
    plan_error := fun m hm e hplan => by rw [hc.plan_error h hm hplan]
    get_isSome := fun m hm => (hc.get?_isSome_iff h hm).trans (hlive m)
    get_eq := fun m hm reel hget => ((hc.get?_key_iff h hm).mp hget).2
    get_invalidateMovie := fun name key reel => by
      simp only [hc.get?_invalidateMovie_iff h, hlive, hc.key_eq]
    count_invalidateMovie := fun name => by
      rw [hc.invalidateMovie_count, encard_eq_length (hc.nodup.filter _)]
      simp [hlive]
    size_eq := by rw [hc.size_eq, encard_eq_length hc.nodup hlive] }

/-- Two movies without actors, at different rates. -/
def overture : Movie Float := .empty "Overture" 24

def encore : Movie Float := .empty "Encore" 30

/-- The digest is evaluated on both streams, and differs. -/
lemma overture_encore_digest :
    Sha256.digest (keyStream Settings.standard.options overture) ≠
      Sha256.digest (keyStream Settings.standard.options encore) := by
  unfold keyStream contentStream Json.octets ByteArray.toList
  simp only [toList_loop_eq]
  decide +kernel

lemma overture_encore_printed :
    PrintedApart {n | ∃ m ∈ ({overture, encore} : Set (Movie Float)), n ∈ m.toJson.numbers} := by
  have hnumbers {x : Float} (hx : ∃ m ∈ ({overture, encore} : Set (Movie Float)),
      Number.real x ∈ m.toJson.numbers) : x ∈ [24, 30] := by
    obtain ⟨m, rfl | rfl, hx⟩ := hx
    · cases List.mem_singleton.mp hx
      exact List.mem_cons_self
    · cases List.mem_singleton.mp hx
      exact List.mem_cons_of_mem _ List.mem_cons_self
  have hfinite : ∀ x ∈ [(24 : Float), 30], Scalar.isFinite x = true := by decide +kernel
  have hdigits : ∀ x ∈ [(24 : Float), 30], ∃ d ∈ [Decimal.mk false 24 0, ⟨false, 3, 1⟩],
      Numeral.shortest .even x = .finite d := by decide +kernel
  have hapart : ∀ x ∈ [(24 : Float), 30], ∀ y ∈ [(24 : Float), 30],
      Json.writeNumber (.real x) = Json.writeNumber (.real y) → x = y := by decide +kernel
  exact {
    finite := fun x hx => hfinite x (hnumbers hx)
    digits := fun x hx _ =>
      let ⟨d, _, hd⟩ := hdigits x (hnumbers hx)
      ⟨d, hd⟩
    apart := fun x y hx hy _ _ => hapart x (hnumbers hx) y (hnumbers hy) }

theorem overture_encore_transparent :
    ToldApart Settings.standard.options {overture, encore} ∧
      Transparent Settings.standard.options {overture, encore}
        [.plan overture, .plan encore, .plan overture, .invalidateMovie "Encore"]
        ((ReelCache.empty Settings.standard.options).afterAll
          [.plan overture, .plan encore, .plan overture, .invalidateMovie "Encore"]) := by
  have hapart : ToldApart Settings.standard.options {overture, encore} := {
    printed := overture_encore_printed
    no_collision := by
      rintro m (rfl | rfl) m' (rfl | rfl) heq
      · rfl
      · exact absurd heq overture_encore_digest
      · exact absurd heq.symm overture_encore_digest
      · rfl }
  exact ⟨hapart, cache_transparent hapart _ (by simp)⟩

end Stagecraft.Proofs
