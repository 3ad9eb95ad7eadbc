import Stagecraft.Scalar
import Stagecraft.Decimal

/-!
# Frames

A movie has one frame rate, and it is the only bridge between seconds and frames. A moment
belongs to the last frame that starts no later than it, where a millionth of a frame of lateness
is forgiven.
-/

namespace Stagecraft

variable {K : Type}

structure FrameRate (K : Type) where
  fps : K
  deriving BEq

namespace FrameRate

def standard [Scalar K] : FrameRate K := ⟨30⟩

def isValid [Scalar K] (r : FrameRate K) : Bool :=
  Scalar.isFinite r.fps && decide (0 < r.fps)

/-- The frame a moment belongs to. -/
def frameAt [Scalar K] (r : FrameRate K) (seconds : K) : Nat :=
  Scalar.floor (Scalar.larger seconds 0 * r.fps + 1e-6)

/-- The moment a frame starts. -/
def secondsAt [Scalar K] (r : FrameRate K) (frame : Nat) : K :=
  (frame : K) / r.fps

def framesIn [Scalar K] (r : FrameRate K) (seconds : K) : Nat :=
  r.frameAt seconds

def text [Numeral K] (r : FrameRate K) : String :=
  Numeral.text r.fps ++ "fps"

/-- The moment a frame starts, as `hh:mm:ss.mmm`. -/
def timecode [Scalar K] (r : FrameRate K) (frame : Nat) : String :=
  let ms := Scalar.round (r.secondsAt frame * 1000)
  paddedText 2 (ms / 3600000) ++ ":" ++ paddedText 2 (ms % 3600000 / 60000) ++ ":" ++
    paddedText 2 (ms % 60000 / 1000) ++ "." ++ paddedText 3 (ms % 1000)

end FrameRate

end Stagecraft
