import Stagecraft.Command

/-!
# Lanes

A corridor confines a straight move sideways. Offsets are in centimeters along the right-hand
perpendicular of the move's heading, and they only compare places within one lane: the actor's
first corridor puts it in the middle, the same corridor keeps its offset, and another corridor
makes it drift across the move that enters it.
-/

namespace Stagecraft

variable {K : Type}

/-- What a drift into another corridor aims at: its middle, or the nearest place inside that
leaves room for the actor. -/
inductive Anchor where
  | midpoint
  | nearestEdge
  deriving DecidableEq, Repr

structure Bounds (K : Type) where
  left : K
  right : K
  deriving BEq

namespace Bounds

variable [Scalar K]

/-- The bounds between two offsets, whichever is the lesser. -/
def between (a b : K) : Bounds K :=
  ⟨Scalar.smaller a b, Scalar.larger a b⟩

def ofCorridor (c : Corridor K) : Bounds K :=
  between c.left.internal c.right.internal

def width (b : Bounds K) : K :=
  b.right - b.left

def midpoint (b : Bounds K) : K :=
  (b.left + b.right) / 2

/-- Equal up to the tolerance. -/
def sameAs (a b : Bounds K) : Bool :=
  decide (Scalar.abs (a.left - b.left) ≤ Scalar.tolerance ∧
    Scalar.abs (a.right - b.right) ≤ Scalar.tolerance)

/-- Too narrow for an actor of a radius. -/
def isTight (b : Bounds K) (radius : K) : Bool :=
  !decide (2 * Scalar.larger radius 0 ≤ b.width + Scalar.tolerance)

/-- The bounds with room for an actor of a radius: widened about their middle where they are too
narrow. -/
def fit (b : Bounds K) (radius : K) : Bounds K :=
  let diameter := 2 * Scalar.larger radius 0
  if b.isTight radius then between (b.midpoint - diameter / 2) (b.midpoint + diameter / 2) else b

end Bounds

/-- The corridor an actor is in, and its offset there. -/
structure Lane (K : Type) where
  bounds : Bounds K
  offset : K
  deriving BEq

/-- A change of the offset that is spread evenly over a move. -/
structure Drift (K : Type) where
  start : K
  finish : K
  deriving BEq

namespace Drift

variable [Scalar K]

def offsetAt (d : Drift K) (fraction : K) : K :=
  d.start + (d.finish - d.start) * Scalar.clamp 0 1 fraction

/-- How far aside the actor is of where it started. -/
def deltaAt (d : Drift K) (fraction : K) : K :=
  d.offsetAt fraction - d.start

def isDrift (d : Drift K) : Bool :=
  decide (Scalar.tolerance < Scalar.abs (d.finish - d.start))

def lane (d : Drift K) (bounds : Bounds K) : Lane K :=
  ⟨bounds, d.finish⟩

/-- The drift of an actor that enters a corridor; none when the place to aim at is undefined. -/
def into? (previous : Option (Lane K)) (bounds : Bounds K) (radius : K) (anchor : Anchor) :
    Option (Drift K) :=
  match previous with
  | none => some ⟨bounds.midpoint, bounds.midpoint⟩
  | some lane =>
    if lane.bounds.sameAs bounds then some ⟨lane.offset, lane.offset⟩
    else
      match anchor with
      | .midpoint => some ⟨lane.offset, bounds.midpoint⟩
      | .nearestEdge =>
        let lo := bounds.left + radius
        let hi := bounds.right - radius
        if hi < lo then some ⟨lane.offset, bounds.midpoint⟩
        else (Scalar.clamp? lo hi lane.offset).map fun target => ⟨lane.offset, target⟩

end Drift

end Stagecraft
