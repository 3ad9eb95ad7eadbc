import Stagecraft.Movie.Basic
import Stagecraft.Search

/-!
# Curves

A spline becomes a curve of cubic segments, one from each control point to the next, whose
tangents are scaled by the tension: one half gives the classic shape through the points, zero
straight lines. Travel along a curve is measured by arclength, which is tabulated once by chords.
-/

namespace Stagecraft

variable {K : Type}

/-- The coefficients of a cubic, constant term first. -/
structure Cubic (K : Type) where
  c0 : Vec3 K
  c1 : Vec3 K
  c2 : Vec3 K
  c3 : Vec3 K

namespace Cubic

variable [Scalar K]

/-- The segment from `p1` to `p2` with tangents along the chords of their neighbours. -/
def through (s : K) (p0 p1 p2 p3 : Vec3 K) : Cubic K where
  c0 := p1
  c1 := (p2 - p0) * s
  c2 := p0 * (2 * s) + p1 * (s - 3) + p2 * (3 - 2 * s) + p3 * (-s)
  c3 := p0 * (-s) + p1 * (2 - s) + p2 * (s - 2) + p3 * s

def point (c : Cubic K) (t : K) : Vec3 K :=
  c.c0 + c.c1 * t + c.c2 * (t * t) + c.c3 * (t * t * t)

def derivative (c : Cubic K) (t : K) : Vec3 K :=
  c.c1 + c.c2 * (2 * t) + c.c3 * (3 * t * t)

end Cubic

/-- A segment of a curve with the straight way between its ends. -/
structure CurveSegment (K : Type) where
  cubic : Cubic K
  chord : Vec3 K

/-- A curve with its table of arclength: parameters, which count segments, against lengths. -/
structure Curve (K : Type) where
  segments : Array (CurveSegment K)
  closed : Bool
  table : Array (K × K)
  length : K

/-- A place on a curve with the unit vector of the direction of travel. -/
structure CurveSample (K : Type) where
  position : Vec3 K
  tangent : Vec3 K

/-- The place on a segment. Where the curve stands still the chord gives the direction. -/
def CurveSegment.sample [Scalar K] (s : CurveSegment K) (t : K) : CurveSample K :=
  let tangent := (s.cubic.derivative t).normalized
  ⟨s.cubic.point t, if tangent == Vec3.zero then s.chord.normalized else tangent⟩

/-- How far a table has come: the last point and the length up to it. -/
structure Survey (K : Type) where
  last : Vec3 K
  length : K
  rows : Array (K × K)

namespace Survey

variable [Scalar K]

/-- Extends a table by one more chord, to the point at a fraction of a segment. -/
def chord (samples : Nat) (segment : CurveSegment K) (index : Nat) (s : Survey K) (k : Nat) :
    Survey K :=
  let t : K := (k : K) / (samples : K)
  let p := segment.cubic.point t
  let length := s.length + s.last.distance p
  ⟨p, length, s.rows.push ((index : K) + t, length)⟩

def along (samples : Nat) (s : Survey K) (segment : CurveSegment K × Nat) : Survey K :=
  (List.range' 1 samples).foldl (chord samples segment.1 segment.2) s

def ofSegments (samples : Nat) (segments : List (CurveSegment K)) : Survey K :=
  let start : Vec3 K := (segments.head?.map fun s => s.cubic.point 0).getD Vec3.zero
  segments.zipIdx.foldl (along samples) ⟨start, 0, #[(0, 0)]⟩

end Survey

namespace Curve

variable [Scalar K]

omit [Scalar K] in
/-- The control points with one neighbour in front and one or two behind, so that every segment
has four points: around the end of a closed curve, and repeated at the ends of an open one. -/
def padded (closed : Bool) (points : List (Vec3 K)) : List (Vec3 K) :=
  if closed then points.getLast?.toList ++ points ++ points.take 2
  else points.take 1 ++ points ++ points.getLast?.toList

def segmentsOf (s : K) : List (Vec3 K) → List (CurveSegment K)
  | p0 :: p1 :: p2 :: p3 :: rest =>
    ⟨Cubic.through s p0 p1 p2 p3, p2 - p1⟩ :: segmentsOf s (p1 :: p2 :: p3 :: rest)
  | _ => []

/-- The curve of a spline, with at least four chords to a segment; none without two control
points. -/
def ofSpline? (spline : Spline K) (samplesPerSegment : Nat) : Option (Curve K) :=
  if spline.points.length < 2 then none
  else
    let segments := segmentsOf spline.tension (padded spline.closed spline.points)
    let table := Survey.ofSegments (max samplesPerSegment 4) segments
    some ⟨segments.toArray, spline.closed, table.rows, table.length⟩

/-- The parameter at an arclength: between two rows of the table in proportion. -/
def parameterAt (c : Curve K) (distance : K) : K :=
  let s := Scalar.clamp 0 c.length distance
  let i := countFront c.table fun row => row.2 < s
  match i, c.table[i - 1]?, c.table[i]? with
  | 0, _, _ => 0
  | _ + 1, some (u0, s0), some (u1, s1) =>
    if s1 - s0 ≤ Scalar.epsilon then u1 else u0 + (u1 - u0) * (s - s0) / (s1 - s0)
  | _, _, _ => (c.segments.size : K)

def locate (c : Curve K) (distance : K) : Nat × K :=
  let u := c.parameterAt distance
  let i := min (Scalar.floor u) (c.segments.size - 1)
  (i, u - (i : K))

/-- The place at an arclength; none where lengths are undefined. -/
def sampleAt? (c : Curve K) (distance : K) : Option (CurveSample K) := do
  guard (0 ≤ c.length)
  let (i, t) := c.locate distance
  let segment ← c.segments[i]?
  return segment.sample t

/-- An arclength brought onto the curve: around a closed one, to the ends of an open one; none
where lengths are undefined. -/
def wrap? (c : Curve K) (distance : K) : Option K :=
  if c.closed && decide (0 < c.length) then some (Scalar.modulo distance c.length)
  else Scalar.clamp? 0 c.length distance

/-- The place where a traveller is after an unbounded arclength. -/
def travelAt? (c : Curve K) (distance : K) : Option (CurveSample K) := do
  c.sampleAt? (← c.wrap? distance)

end Curve

end Stagecraft
