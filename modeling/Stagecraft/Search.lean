/-!
# Searching by halving

Where a property holds up to some index and not from there on, halving finds that index.
-/

namespace Stagecraft

/-- The index among `base`, …, `base + size` up to which a property holds. -/
def partitionPoint (p : Nat → Bool) (base size : Nat) : Nat :=
  if size ≤ 1 then (if size = 1 ∧ p base then base + 1 else base)
  else
    let half := size / 2
    partitionPoint p (if p (base + half) then base + half else base) (size - half)
termination_by size

def countFront {α : Type} (xs : Array α) (p : α → Bool) : Nat :=
  partitionPoint (fun i => (xs[i]?).any p) 0 xs.size

end Stagecraft
