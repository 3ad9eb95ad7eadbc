import Stagecraft.Command
import Stagecraft.Json.Record
import Stagecraft.Search

/-!
# Tracks

A track holds keys ordered by frame, at most one at each frame. Pushing a key keeps that order and
replaces a key at the same frame, so stretches that follow one another may share the frame at
which they meet. Transform tracks are sampled between their keys; animation tracks hold segments
that may be extended.
-/

namespace Stagecraft

variable {K : Type} {κ : Type}

/-- Keys that stand at a frame. -/
class Keyed (κ : Type) where
  frame : κ → Nat

structure Track (κ : Type) where
  keys : Array κ

namespace Track

def empty : Track κ := ⟨#[]⟩

def countFront [Keyed κ] (t : Track κ) (p : Nat → Bool) : Nat :=
  Stagecraft.countFront t.keys fun k => p (Keyed.frame k)

/-- Puts a key at its place, over an earlier key at the same frame. -/
def push [Keyed κ] (t : Track κ) (key : κ) : Track κ :=
  match t.keys.back? with
  | none => ⟨t.keys.push key⟩
  | some last =>
    if Keyed.frame last < Keyed.frame key then ⟨t.keys.push key⟩
    else
      let i := t.countFront fun f => f < Keyed.frame key
      if (t.keys[i]?).any fun k => Keyed.frame k = Keyed.frame key then
        ⟨t.keys.setIfInBounds i key⟩
      else ⟨t.keys.insertIdxIfInBounds i key⟩

def length (t : Track κ) : Nat := t.keys.size

def isEmpty (t : Track κ) : Bool := t.keys.isEmpty

def first? (t : Track κ) : Option κ := t.keys[0]?

def last? (t : Track κ) : Option κ := t.keys.back?

def firstFrame? [Keyed κ] (t : Track κ) : Option Nat := t.first?.map Keyed.frame

def lastFrame? [Keyed κ] (t : Track κ) : Option Nat := t.last?.map Keyed.frame

def isMonotonic [Keyed κ] (t : Track κ) : Bool :=
  let frames := t.keys.toList.map Keyed.frame
  (frames.zip (frames.drop 1)).all fun (a, b) => a ≤ b

end Track

structure TransformKey (K : Type) where
  frame : Nat
  transform : Transform K
  deriving BEq

instance : Keyed (TransformKey K) := ⟨TransformKey.frame⟩

abbrev TransformTrack (K : Type) : Type := Track (TransformKey K)

/-- The transform at a frame: held before the first and after the last key, and in between a
mixture of the two keys around the frame. -/
def Track.sample [Scalar K] (t : TransformTrack K) (frame : Nat) : Option (Transform K) := do
  let first ← t.first?
  if frame ≤ first.frame then return first.transform
  let i := t.countFront (· ≤ frame)
  match t.keys[i - 1]?, t.keys[i]? with
  | some a, some b =>
    if a.frame = frame then return a.transform
    return a.transform.lerp b.transform (((frame - a.frame : Nat) : K) / ((b.frame - a.frame : Nat) : K))
  | _, _ => t.last?.map TransformKey.transform

/-- A stretch of frames, both ends included, that plays a clip. -/
structure Segment (K : Type) where
  startFrame : Nat
  endFrame : Nat
  clip : Clip K
  deriving BEq

instance : Keyed (Segment K) := ⟨Segment.startFrame⟩

abbrev AnimationTrack (K : Type) : Type := Track (Segment K)

/-- Adds a segment, as a part of the last one where that plays the same clip and reaches it. -/
def Track.extendOrPush [BEq K] (t : AnimationTrack K) (s : Segment K) : AnimationTrack K :=
  match t.last? with
  | some last =>
    if last.clip == s.clip && s.startFrame ≤ last.endFrame then
      ⟨t.keys.pop.push { last with endFrame := max last.endFrame s.endFrame }⟩
    else t.push s
  | none => t.push s

def Track.activeAt (t : AnimationTrack K) (frame : Nat) : Option (Segment K) :=
  t.keys.toList.reverse.find? fun s => s.startFrame ≤ frame && frame ≤ s.endFrame

/-- The optics of a camera at a frame: the focal length in millimeters and the distance in
centimeters that is in focus, if any is. -/
structure SettingsKey (K : Type) where
  frame : Nat
  focalLength : K
  focusDistance : Option K
  deriving BEq

instance : Keyed (SettingsKey K) := ⟨SettingsKey.frame⟩

abbrev SettingsTrack (K : Type) : Type := Track (SettingsKey K)

section Encoding

def TransformKey.toJson (k : TransformKey K) : Json K :=
  let l := k.transform.location
  let r := k.transform.rotation
  .obj [("frame", .ofNat k.frame), ("x", .ofReal l.x), ("y", .ofReal l.y), ("z", .ofReal l.z),
    ("pitch", .ofReal r.pitch), ("yaw", .ofReal r.yaw), ("roll", .ofReal r.roll)]

open Json.Reader in
def TransformKey.ofJson [Scalar K] : Json K → Option (TransformKey K) :=
  Json.record do
    return ⟨← field "frame" Json.count?,
      ⟨⟨← field "x" Json.real?, ← field "y" Json.real?, ← field "z" Json.real?⟩,
        ⟨← field "pitch" Json.real?, ← field "yaw" Json.real?, ← field "roll" Json.real?⟩⟩⟩

def Segment.toJson (s : Segment K) : Json K :=
  .obj [("start_frame", .ofNat s.startFrame), ("end_frame", .ofNat s.endFrame),
    ("name", .str s.clip.name), ("speed_multiplier", .ofReal s.clip.speedMultiplier)]

def SettingsKey.toJson (k : SettingsKey K) : Json K :=
  .obj [("frame", .ofNat k.frame), ("focal_length", .ofReal k.focalLength),
    ("focus_distance", (k.focusDistance.map Json.ofReal).getD .null)]

/-- A track is the list of its keys. -/
def Track.toJson (encode : κ → Json K) (t : Track κ) : Json K :=
  .arr (t.keys.toList.map encode)

end Encoding

end Stagecraft
