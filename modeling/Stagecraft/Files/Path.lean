/-!
# Paths

A path is kept as it was written, cut at its slashes, so that it is shown the way its author wrote
it. The place it leads to is the list of names that remain when the pieces that lead nowhere are
left out.
-/

namespace Stagecraft

/-- A path, cut at its slashes. -/
structure Path where
  pieces : List String
  deriving BEq, DecidableEq, Repr

namespace Path

def cutAtSlashes : List Char → List (List Char)
  | [] => [[]]
  | c :: cs =>
    if c = '/' then [] :: cutAtSlashes cs
    else
      match cutAtSlashes cs with
      | [] => [[c]]
      | piece :: rest => (c :: piece) :: rest

def ofText (text : String) : Path :=
  ⟨(cutAtSlashes text.toList).map String.ofList⟩

def text (p : Path) : String :=
  "/".intercalate p.pieces

/-- The path of something in a directory. A slash at the end is not doubled. -/
def child (p : Path) (name : String) : Path :=
  ⟨(if p.pieces.getLast? = some "" then p.pieces.dropLast else p.pieces) ++ [name]⟩

/-- A step along a path from a place: empty pieces and single dots stay, double dots go back, also
to the directories above the root. -/
def follow (place : List String) (piece : String) : List String :=
  if piece = "" ∨ piece = "." then place
  else if piece = ".." then
    if place.all (· = "..") then place ++ [".."] else place.dropLast
  else place ++ [piece]

def place (p : Path) : List String :=
  p.pieces.foldl follow []

def trimmed (p : Path) : Path :=
  ⟨(p.pieces.reverse.dropWhile (· = "")).reverse⟩

/-- The stretches of a path, given backwards, from its start to each piece that leads somewhere,
longest first. A dot at the start counts as such a piece. -/
def stretches : List String → List Path
  | [] => []
  | piece :: rest =>
    if piece = "" ∨ (piece = "." ∧ rest ≠ []) then stretches rest
    else ⟨(piece :: rest).reverse⟩ :: stretches rest

/-- The path and those of the directories on the way to it, longest first. -/
def ancestors (p : Path) : List Path :=
  p :: (stretches p.pieces.reverse).tail

end Path

end Stagecraft
