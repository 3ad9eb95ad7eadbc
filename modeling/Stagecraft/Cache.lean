import Stagecraft.Digest.Content
import Stagecraft.Plan.Session
import Stagecraft.Settings

/-!
# Reel caches

A cache keeps the reels of the movies it has planned, all with the same options. An entry is found
by the digest of the movie together with the options, so any change to either is planned afresh.
Only plans that succeed are kept.
-/

namespace Stagecraft

variable {K : Type}

/-- A reel that is kept, under its key and with the name of its movie. -/
structure CacheEntry (K : Type) where
  key : String
  movie : String
  reel : Reel K

structure ReelCache (K : Type) where
  options : PlanOptions K
  entries : List (CacheEntry K)

namespace ReelCache

def empty (o : PlanOptions K) : ReelCache K := ⟨o, []⟩

def key [Numeral K] (c : ReelCache K) (m : Movie K) : String :=
  contentHash [m.toJson, c.options.toJson]

def get? (c : ReelCache K) (key : String) : Option (Reel K) :=
  (c.entries.find? (·.key = key)).map (·.reel)

/-- The reel of a movie, planned unless it is kept, and the cache that keeps it from then on. -/
def plan [Scalar K] [Numeral K] (c : ReelCache K) (m : Movie K) :
    Except (PlanError K) (Reel K) × ReelCache K :=
  match c.get? (c.key m) with
  | some reel => (.ok reel, c)
  | none =>
    match m.plan c.options with
    | .ok reel => (.ok reel, { c with entries := ⟨c.key m, m.name, reel⟩ :: c.entries })
    | .error e => (.error e, c)

def retain (c : ReelCache K) (p : CacheEntry K → Bool) : ReelCache K :=
  { c with entries := c.entries.filter p }

def size (c : ReelCache K) : Nat := c.entries.length

def isEmpty (c : ReelCache K) : Bool := c.entries.isEmpty

def invalidate (c : ReelCache K) (key : String) : Bool × ReelCache K :=
  ((c.get? key).isSome, c.retain (·.key ≠ key))

/-- Drops the reels of all movies with a name, and says how many there were. -/
def invalidateMovie (c : ReelCache K) (name : String) : Nat × ReelCache K :=
  let kept := c.retain (·.movie ≠ name)
  (c.size - kept.size, kept)

def clear (c : ReelCache K) : ReelCache K := empty c.options

end ReelCache

end Stagecraft
