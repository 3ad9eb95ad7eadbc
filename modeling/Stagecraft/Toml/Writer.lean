import Stagecraft.Decimal

/-!
# Writing TOML

Numbers with a point are written in full, and a string takes the plainest quotes that hold it:
double quotes if nothing needs an escape, single quotes if there are none inside, quotes of
several lines, and escapes only where nothing else will do.
-/

namespace Stagecraft.Toml

variable {K : Type}

def realText [Numeral K] (x : K) : String :=
  match Numeral.shortest .away x with
  | .finite d =>
    String.ofList (d.positional ++ (if 0 ≤ d.exponent then ['.', '0'] else []))
  | .infinite negative => if negative then "-inf" else "inf"
  | .undefined => "nan"

def longestRun (c : Char) (cs : List Char) : Nat :=
  (cs.foldl (fun (best, current) d =>
    if d = c then (max best (current + 1), current + 1) else (best, 0)) (0, 0)).1

def needsCode (c : Char) : Bool :=
  (c < ' ' && c ≠ '\t' && c ≠ '\n') || c = '\x7f'

def hexDigitChar (n : Nat) : Char :=
  if n < 10 then Char.ofNat (48 + n) else Char.ofNat (55 + n)

def escape (c : Char) : List Char :=
  if c = '"' then ['\\', '"']
  else if c = '\\' then ['\\', '\\']
  else if c = '\x08' then ['\\', 'b']
  else if c = '\t' then ['\\', 't']
  else if c = '\n' then ['\\', 'n']
  else if c = '\x0c' then ['\\', 'f']
  else if c = '\r' then ['\\', 'r']
  else if c < ' ' || c = '\x7f' then
    ['\\', 'u', '0', '0', hexDigitChar (c.toNat / 16), hexDigitChar (c.toNat % 16)]
  else [c]

/-- The text of a string of several lines between double quotes: every third quote in a row is
escaped. -/
def escapeLong : Nat → List Char → List Char
  | _, [] => []
  | quotes, c :: rest =>
    if c = '"' then
      if quotes = 2 then '\\' :: '"' :: escapeLong 0 rest else '"' :: escapeLong (quotes + 1) rest
    else if c = '\n' then '\n' :: escapeLong 0 rest
    else escape c ++ escapeLong 0 rest

def quote (s : String) : String :=
  let cs := s.toList
  let lines := cs.contains '\n'
  let codes := cs.any needsCode
  let backslash := cs.contains '\\'
  let doubles := longestRun '"' cs
  let singles := longestRun '\'' cs
  let long (mark : Char) (body : List Char) : List Char :=
    let marks := [mark, mark, mark]
    marks ++ (if lines then ['\n'] else []) ++ body ++ marks
  String.ofList <|
    if !codes && !backslash && doubles = 0 && !lines then '"' :: cs.flatMap escape ++ ['"']
    else if !codes && singles = 0 && !lines then '\'' :: cs ++ ['\'']
    else if !codes && !backslash && doubles ≤ 2 then long '"' (escapeLong 0 cs)
    else if !codes && singles ≤ 2 then long '\'' cs
    else if lines then long '"' (escapeLong 0 cs)
    else '"' :: cs.flatMap escape ++ ['"']

end Stagecraft.Toml
